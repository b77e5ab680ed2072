import TransportStream.Proofs.Bits.Bytewise
import TransportStream.Proofs.Bytes.Places
import TransportStream.Proofs.Layout.Spelling
import TransportStream.Proofs.Layout.Tables

/-!
# The fields of tables at their places

What stands at a place in a section is a number of some of its bytes, or some bits of this number.
The parts that sections have in common are read from there, and written back they give the same
bytes, apart from the bits that are reserved.
-/

namespace TransportStream

open Decoder Layout

/-- The head of a section, of which the length counts some bytes. -/
def SectionHead.atPlaces (tableId : Nat) (generalLayout : Bool) (body : Bytes) : SectionHead where
  tableId
  generalLayout
  subject := body.number 0 2
  version := body.number 2 3 / 2 % 2 ^ 5
  current := (body.number 2 3).testBit 0
  number := body.number 3 4
  lastNumber := body.number 4 5

variable {bytes body s : Bytes} {r : BitReader} {n : Nat}

/-- A flag is one bit of a number. -/
theorem toNat_testBit (n i : Nat) : (n.testBit i).toNat = n / 2 ^ i % 2 := by
  rw [Nat.testBit_eq_decide_div_mod_eq]
  rcases Nat.mod_two_eq_zero_or_one (n / 2 ^ i) with h | h
  · simp [h]
  · simp [h]

/-- A section consists of its first byte, of two bytes with its length, and of the bytes that the
length counts. -/
theorem take_section (bytes : Bytes) (length : Nat) : bytes.take (3 + length) =
    bytes.extract 0 1 ++ (bytes.extract 1 3 ++ bytes.extract 3 (3 + length)) := by
  rw [extract_append_extract _ (by omega) (by omega),
    extract_append_extract _ (by omega) (by omega)]
  rfl

/-- The bytes that the length counts are those behind the length. -/
theorem take_body (bytes : Bytes) (length : Nat) :
    ((bytes.drop 1).drop 2).take length = bytes.extract 3 (3 + length) := by
  rw [List.extract, Nat.add_sub_cancel_left, List.drop_drop]

/-- The head of a section is read from its places. -/
theorem SectionHead.eq_of_decoder {tableId : Nat} {generalLayout : Bool} {head : SectionHead}
    (h : SectionHead.decoder tableId generalLayout (.ofBytes s) = .ok head r) :
    5 ≤ s.length ∧ head = .atPlaces tableId generalLayout s ∧ r = .ofBytes (s.drop 5) := by
  unfold SectionHead.decoder at h
  obtain ⟨subject, _, hsubject, h⟩ := bind_eq_ok.mp h
  obtain ⟨_, rfl, rfl⟩ := u16_eq_ok.mp hsubject
  obtain ⟨state, _, hstate, h⟩ := bind_eq_ok.mp h
  obtain ⟨_, rfl, rfl⟩ := (fields_eq_ok (k := 1) rfl).mp hstate
  obtain ⟨number, _, hnumber, h⟩ := bind_eq_ok.mp h
  obtain ⟨_, rfl, rfl⟩ := u8_eq_ok.mp hnumber
  obtain ⟨lastNumber, _, hlast, h⟩ := bind_eq_ok.mp h
  obtain ⟨hroom, rfl, rfl⟩ := u8_eq_ok.mp hlast
  simp only [List.drop_drop, List.length_drop] at hroom h
  cases h
  refine ⟨by omega, ?_, rfl⟩
  rw [Fields.get_eq, Fields.flag_eq _ _ _ rfl]
  rfl

/-- A PID is read from the lower bits of two bytes. -/
theorem eq_of_pidField (h : pidField (.ofBytes s) = .ok n r) :
    2 ≤ s.length ∧ n = Bytes.toNat (s.take 2) % 2 ^ 13 ∧ r = .ofBytes (s.drop 2) := by
  unfold pidField at h
  obtain ⟨f, _, hfields, h⟩ := bind_eq_ok.mp h
  obtain ⟨hroom, rfl, rfl⟩ := (fields_eq_ok (k := 2) rfl).mp hfields
  cases h
  refine ⟨hroom, ?_, rfl⟩
  rw [Fields.get_eq]
  exact congrArg (· % 2 ^ 13) (Nat.div_one _)

/-- A length is read from the lower bits of two bytes, if the bits above it are zero. -/
theorem eq_of_infoLength (h : infoLength (.ofBytes s) = .ok n r) :
    2 ≤ s.length ∧ Bytes.toNat (s.take 2) / 2 ^ 10 % 2 ^ 2 = 0 ∧
      n = Bytes.toNat (s.take 2) % 2 ^ 10 ∧ r = .ofBytes (s.drop 2) := by
  unfold infoLength at h
  obtain ⟨f, _, hfields, h⟩ := bind_eq_ok.mp h
  obtain ⟨hroom, rfl, rfl⟩ := (fields_eq_ok (k := 2) rfl).mp hfields
  obtain ⟨_, _, hexpect, h⟩ := bind_eq_ok.mp h
  obtain ⟨hzeros, rfl⟩ := expectEq_eq_ok.mp hexpect
  cases h
  rw [Fields.get_eq] at hzeros ⊢
  exact ⟨hroom, hzeros, congrArg (· % 2 ^ 10) (Nat.div_one _), rfl⟩

/-- Items up to the checksum tile what is in front of the last four bytes, which are the
checksum. -/
theorem Decoder.Finds.checked {α β : Type} {form : Bytes → α → Prop} {item : Decoder α}
    (h : Finds form item) (hreads : Reads n item) (hn : 0 < n) {value : List α → Nat → β} {b : β}
    {start : Nat} (hstart : start ≤ bytes.length)
    (hread : (do
      let items ← repeated checksumSize item
      let crc ← u32
      return value items crc) (.ofBytes (bytes.drop start)) = .ok b r) :
    start + 4 ≤ bytes.length ∧
      ∃ items, Tiled form (bytes.extract start (bytes.length - 4)) items ∧
        b = value items (bytes.number (bytes.length - 4) bytes.length) := by
  obtain ⟨items, _, hitems, hread⟩ := bind_eq_ok.mp hread
  obtain ⟨region, behind, hregion, htiled, hbehind, rfl⟩ := h.tiled hreads hn hitems
  obtain ⟨crc, _, hcrc, hread⟩ := bind_eq_ok.mp hread
  obtain ⟨hroom, rfl, rfl⟩ := u32_eq_ok.mp hcrc
  cases hread
  have hfour : behind.length = 4 := Nat.le_antisymm hbehind hroom
  obtain ⟨hfront, hlast⟩ := extract_of_drop hstart hregion
  rw [hfour] at hfront hlast
  have hlength := congrArg List.length hregion
  rw [List.length_drop, List.length_append] at hlength
  refine ⟨by omega, items, hfront ▸ htiled, ?_⟩
  rw [List.take_of_length_le (Nat.le_of_eq hfour), Bytes.number, ← hlast]

section Spelling

/-- A number of whole bytes at its place. -/
theorem spells_number_at {start stop width : Nat} (hstop : stop ≤ bytes.length)
    (hwidth : width = 8 * (stop - start)) :
    Spells [.value width (bytes.number start stop)] (bytes.extract start stop) := by
  rw [hwidth, ← length_extract hstop]
  exact spells_number _

/-- A PID with the reserved bits above it. -/
theorem spells_pid (h : bytes.length = 2) :
    Spells [.free 3, .value 13 (bytes.toNat % 2 ^ 13)] bytes := by
  refine spells_of_agrees (by simp [h]) ?_
  rintro (_ | _ | i) hi width n hpiece
  · cases hpiece
  · cases hpiece
    rw [Fields.get_eq]
    simp [Piece.width]
  · simp at hpiece

/-- A version with the flag below it. -/
theorem spells_version (h : bytes.length = 1) :
    Spells [.free 2, .value 5 (bytes.toNat / 2 % 2 ^ 5), flag (bytes.toNat.testBit 0)] bytes := by
  refine spells_of_agrees (by simp [h, flag]) ?_
  rintro (_ | _ | _ | i) hi width n hpiece
  · cases hpiece
  · cases hpiece
    rw [Fields.get_eq]
    rfl
  · cases hpiece
    rw [Fields.get_eq, toNat_testBit]
    rfl
  · simp at hpiece

/-- A length of ten bits with zeros above it. -/
theorem spells_infoLength (h : bytes.length = 2) (hzeros : bytes.toNat / 2 ^ 10 % 2 ^ 2 = 0) :
    Spells (ofInfoLength (bytes.toNat % 2 ^ 10)) bytes := by
  refine spells_of_agrees (by simp [h, ofInfoLength]) ?_
  rintro (_ | _ | _ | i) hi width n hpiece
  · cases hpiece
  · cases hpiece
    rw [Fields.get_eq]
    exact hzeros
  · cases hpiece
    rw [Fields.get_eq]
    simp [ofInfoLength, Piece.width]
  · simp [ofInfoLength] at hpiece

/-- The head of a section is written as it is read. -/
theorem SectionHead.spells_atPlaces (tableId : Nat) (generalLayout : Bool) (h : 5 ≤ body.length) :
    (SectionHead.atPlaces tableId generalLayout body).layout.Spells (body.extract 0 5) := by
  have hsplit : body.extract 0 5 = body.extract 0 2 ++ (body.extract 2 3 ++
      (body.extract 3 4 ++ body.extract 4 5)) := by
    rw [extract_append_extract _ (by omega) (by omega),
      extract_append_extract _ (by omega) (by omega),
      extract_append_extract _ (by omega) (by omega)]
  have hsubject : Spells [.value 16 (body.number 0 2)] (body.extract 0 2) :=
    spells_number_at (by omega) rfl
  have hversion := spells_version (length_extract (by omega) : (body.extract 2 3).length = 3 - 2)
  have hnumber : Spells [.value 8 (body.number 3 4)] (body.extract 3 4) :=
    spells_number_at (by omega) rfl
  have hlast : Spells [.value 8 (body.number 4 5)] (body.extract 4 5) :=
    spells_number_at (by omega) rfl
  rw [hsplit]
  exact hsubject.append (hversion.append (hnumber.append hlast))

/-- What tiles some bytes is written in the layouts of its items. -/
theorem Tiled.spells {α : Type} {form : Bytes → α → Prop} {part : α → Layout} {items : List α}
    (h : Tiled form bytes items) (hitem : ∀ item a, form item a → (part a).Spells item) :
    Spells (items.flatMap part) bytes := by
  induction h with
  | nil => exact spells_nil
  | cons hform _ ih =>
    rw [List.flatMap_cons]
    exact (hitem _ _ hform).append ih

end Spelling

end TransportStream
