import TransportStream.Proofs.Bits.Bytewise
import TransportStream.Proofs.Layout.Tables
import TransportStream.Proofs.Reassembly.Run
import TransportStream.Proofs.Tables.Growth

/-!
# Tables carried by packets

A packet in which a section starts carries the table of that section if its payload reaches to
the place that its first byte points at, and the bytes from there on are a table of the kind
that their first byte tells. This is a matter of the packet alone.
-/

namespace TransportStream

/-- The bytes that a payload points at with its first byte. -/
def pointedSection? : Bytes → Option Bytes
  | [] => none
  | pointer :: bytes =>
    if pointer.toNat ≤ bytes.length then some (bytes.drop pointer.toNat) else none

/-- The bytes from the start of a section on, if it is of one kind of table. -/
def sectionIn? (kind : TableKind) (payload : Bytes) : Option Bytes :=
  (pointedSection? payload).filter fun bytes => bytes.head?.map (·.toNat) = some kind.id

/-- A section of some kind begins with the number of this kind. -/
theorem head?_of_sectionIn {kind : TableKind} {payload bytes : Bytes}
    (h : sectionIn? kind payload = some bytes) : bytes.head?.map (·.toNat) = some kind.id := by
  simpa using (Option.filter_eq_some_iff.mp h).2

/-- The program association table that a packet carries. -/
def associationIn? (bytes : Bytes) : Option ProgramAssociation := do
  let f ← (fragment? bytes).filter fun f => f.unitStart && f.pid == associationPid
  let found ← sectionIn? .association f.payload
  (ProgramAssociation.decode found).toOption

/-- The program map table that a packet carries, with the PID of the packet. -/
def mapIn? (bytes : Bytes) : Option (Nat × ProgramMap) := do
  let f ← (fragment? bytes).filter (·.unitStart)
  let found ← sectionIn? .map f.payload
  let table ← (ProgramMap.decode found).toOption
  return (f.pid, table)

namespace Section

variable {kind : TableKind} {payload bytes : Bytes} {found : Section}

/-- Behind what the pointer counts stands what a payload points at. -/
theorem countedBytes_eq_ok {r : BitReader} :
    (∃ filler, Decoder.countedBytes (.ofBytes payload) = .ok filler r) ↔
      ∃ bytes, pointedSection? payload = some bytes ∧ r = .ofBytes bytes := by
  cases payload with
  | nil =>
    constructor
    · rintro ⟨filler, h⟩
      cases h
    · rintro ⟨bytes, h, _⟩
      cases h
  | cons pointer behind =>
    by_cases hroom : pointer.toNat ≤ behind.length
    · have hcounted := countedBytes_pointer (List.length_take_of_le hroom)
        (behind.drop pointer.toNat)
      rw [List.take_append_drop] at hcounted
      simp [pointedSection?, hroom, hcounted, eq_comm]
    · have hover : ¬ 8 * pointer.toNat ≤ (BitReader.ofBytes behind).available := by
        simp only [BitReader.ofBytes, BitReader.available]
        omega
      simp [pointedSection?, hroom, Decoder.countedBytes, Decoder.bind_of_ok (Decoder.u8_cons _ _),
        Decoder.bytes_eq_ok, Decoder.consume_eq_ok, hover]

/-- No table is read off nothing. -/
theorem tableDecoder_nil (kind : TableKind) (found : Section) :
    (tableDecoder kind).decode [] ≠ .ok found := by
  cases kind with
  | association =>
    intro h
    cases h
  | map =>
    intro h
    cases h

/-- A payload points at a section with a first byte that counts the bytes in between. -/
theorem exists_of_pointed (h : pointedSection? payload = some bytes) :
    ∃ (pointer : UInt8) (filler : Bytes),
      payload = pointer :: (filler ++ bytes) ∧ filler.length = pointer.toNat := by
  cases payload with
  | nil => cases h
  | cons pointer behind =>
    rw [pointedSection?] at h
    split at h
    case isFalse => cases h
    case isTrue hroom =>
      cases h
      exact ⟨pointer, behind.take pointer.toNat, by rw [List.take_append_drop],
        List.length_take_of_le hroom⟩

/-- What a payload points at is read as the kind of table that its first byte tells. -/
theorem decode_eq_ok_iff_of_pointed (hbytes : pointedSection? payload = some bytes)
    (hkind : ∀ tableId, found ≠ .other tableId) :
    (Section.decoder kind).decode payload = .ok found ↔
      bytes.head?.map (·.toNat) = some kind.id ∧ (tableDecoder kind).decode bytes = .ok found := by
  obtain ⟨pointer, filler, rfl, hfiller⟩ := exists_of_pointed hbytes
  rw [decode_pointer kind hfiller]
  cases hhead : bytes.head?.map (·.toNat) with
  | none =>
    have hnil : bytes = [] := by simpa using hhead
    subst hnil
    simpa using tableDecoder_nil kind found
  | some tableId =>
    by_cases hid : tableId = kind.id
    · subst hid
      have hfilter : (some kind.id).filter (· ≠ kind.id) = none := by simp
      simp only [hfilter, true_and]
    · have hfilter : (some tableId).filter (· ≠ kind.id) = some tableId := by simp [hid]
      simp only [hfilter]
      constructor
      · intro h
        cases h
        exact absurd rfl (hkind tableId)
      · rintro ⟨h, _⟩
        exact absurd (Option.some_inj.mp h) hid

/-- A table of the expected kind is found in a payload exactly if the payload points at a section
of this kind, from which the table can be read. -/
theorem decode_eq_ok_iff (hkind : ∀ tableId, found ≠ .other tableId) :
    (Section.decoder kind).decode payload = .ok found ↔
      ∃ bytes, sectionIn? kind payload = some bytes ∧
        (tableDecoder kind).decode bytes = .ok found := by
  simp only [sectionIn?, Option.filter_eq_some_iff, decide_eq_true_eq]
  cases hbytes : pointedSection? payload with
  | none =>
    have hcounted : ∀ filler r, Decoder.countedBytes (.ofBytes payload) ≠ .ok filler r := by
      intro filler r h
      obtain ⟨bytes, hpointed, _⟩ := countedBytes_eq_ok.mp ⟨filler, h⟩
      rw [hbytes] at hpointed
      cases hpointed
    simp [Decoder.decode_eq_ok, Section.decoder, Decoder.bind_eq_ok, hcounted]
  | some bytes =>
    rw [decode_eq_ok_iff_of_pointed hbytes hkind]
    simp [and_assoc]

/-- An association table is what its own decoder reads. -/
theorem tableDecoder_association {table : ProgramAssociation} :
    (tableDecoder .association).decode bytes = .ok (.association table) ↔
      (ProgramAssociation.decode bytes).toOption = some table := by
  rw [toOption_eq_some_iff]
  exact Decoder.decode_map_eq_ok fun _ _ => association.inj

/-- A map table is what its own decoder reads. -/
theorem tableDecoder_map {table : ProgramMap} :
    (tableDecoder .map).decode bytes = .ok (.map table) ↔
      (ProgramMap.decode bytes).toOption = some table := by
  rw [toOption_eq_some_iff]
  exact Decoder.decode_map_eq_ok fun _ _ => map.inj

end Section

variable {bytes : Bytes} {f : Fragment}

/-- A packet carries the program association table that is read off its payload. -/
theorem associationIn?_eq_some_iff {table : ProgramAssociation} (h : fragment? bytes = some f) :
    associationIn? bytes = some table ↔ f.pid = associationPid ∧ f.unitStart = true ∧
      (Section.decoder .association).decode f.payload = .ok (.association table) := by
  rw [Section.decode_eq_ok_iff (by simp)]
  simp only [associationIn?, h, Section.tableDecoder_association, Option.bind_eq_bind,
    Option.bind_eq_some_iff, Option.filter_eq_some_iff, Option.some_inj, Bool.and_eq_true,
    beq_iff_eq]
  constructor
  · rintro ⟨_, ⟨rfl, hstart, hpid⟩, hsection⟩
    exact ⟨hpid, hstart, hsection⟩
  · rintro ⟨hpid, hstart, hsection⟩
    exact ⟨f, ⟨rfl, hstart, hpid⟩, hsection⟩

/-- A packet carries the program map table that is read off its payload. -/
theorem mapIn?_eq_some_iff {pid : Nat} {table : ProgramMap} (h : fragment? bytes = some f) :
    mapIn? bytes = some (pid, table) ↔ f.pid = pid ∧ f.unitStart = true ∧
      (Section.decoder .map).decode f.payload = .ok (.map table) := by
  rw [Section.decode_eq_ok_iff (by simp)]
  simp only [mapIn?, h, Section.tableDecoder_map, Option.bind_eq_bind, Option.pure_def,
    Option.bind_eq_some_iff, Option.filter_eq_some_iff, Option.some_inj, Prod.mk.injEq]
  constructor
  · rintro ⟨_, ⟨rfl, hstart⟩, found, hfound, _, htable, hpid, rfl⟩
    exact ⟨hpid, hstart, found, hfound, htable⟩
  · rintro ⟨hpid, hstart, found, hfound, htable⟩
    exact ⟨f, ⟨rfl, hstart⟩, found, hfound, table, htable, hpid, rfl⟩

end TransportStream
