import TransportStream.Proofs.Bits.Progress
import TransportStream.Proofs.Bits.Session
import TransportStream.Proofs.Machine.Reading

/-!
# A bit reader is its list of unread bits

Of a bit reader only the bits ahead matter, and whether an operation has failed. Each operation
takes some bits off the front of this list or leaves it as it is: where a byte starts is told by
how many bits are left.
-/

namespace TransportStream

/-- The bytes that some bits write, eight bits each. -/
def Bytes.ofBits (bits : List Bool) : Bytes :=
  (List.range (bits.length / 8)).map fun i =>
    UInt8.ofNat (bitsToNat ((bits.drop (8 * i)).take 8))

/-- Bytes are told by their bits. -/
theorem Bytes.ofBits_bits (bytes : Bytes) : ofBits bytes.bits = bytes := by
  have hcount : bytes.bits.length / 8 = bytes.length := by
    rw [length_bits]
    omega
  refine List.ext_getElem (by simp [ofBits]) fun i hi hbyte => ?_
  have hown : (bytes.bits.drop (8 * i)).take 8 = bits [bytes[i]] := by
    rw [← bits_drop, List.drop_eq_getElem_cons hbyte, ← Nat.mul_one 8, ← bits_take]
    rfl
  simp [ofBits, hown, bitsToNat_bits, toNat]

/-- The bits that have not been read. -/
structure Unread where
  /-- The bits, the next one first. -/
  bits : List Bool
  /-- Whether an operation has failed. -/
  failed : Bool := false
  deriving DecidableEq, Repr

/-- The bits ahead of a reader, and whether it has failed. -/
def BitReader.unread (r : BitReader) : Unread := ⟨r.bits, r.failed⟩

open BitSession

namespace Unread

/-- A computation that takes bits off the front and gives a value or reports an error. -/
abbrev Taking (α : Type) := EStateM DecodeError Unread α

variable {α : Type}

/-- Reports an error and notes the failure. -/
def fail (e : DecodeError) : Taking α := fun u => .error e { u with failed := true }

/-- Takes the first `n` bits and makes something of them, provided that nothing has failed and that
so many are left. -/
def take (n : Nat) (value : List Bool → α) : Taking α := fun u =>
  if u.failed then .error .readerFailed u
  else if n ≤ u.bits.length then .ok (value (u.bits.take n)) { u with bits := u.bits.drop n }
  else .error (.endOfData n u.bits.length) { u with failed := true }

/-- Takes one bit. -/
def flag : Taking Bool := take 1 (· == [true])

/-- Takes a number of at most 64 bits, written with the highest bit first. -/
def number (n : Nat) : Taking Nat := if 64 < n then fail (.wideRead n) else take n bitsToNat

/-- Takes one number after the other. -/
def numbers : List Nat → Taking (List Nat)
  | [] => return []
  | width :: widths => do
    let first ← number width
    let later ← numbers widths
    return first :: later

/-- Takes one number after the other, all or none. -/
def allNumbers (widths : List Nat) : Taking (List Nat) := fun u =>
  if u.failed then .error .readerFailed u
  else
    match numbers widths u with
    | .ok values later => .ok values later
    | .error _ _ =>
      .error (.endOfData (totalWidth widths) u.bits.length) { u with failed := true }

/-- Drops the first `n` bits. -/
def skip (n : Nat) : Taking Unit := take n fun _ => ()

/-- Takes the bits of the next `n` bytes, provided that whole bytes are left. -/
def wholeBytes (n : Nat) : Taking (List Bool) := do
  if (← get).bits.length % 8 = 0 then take (8 * n) id else fail .unalignedRead

/-- Drops bits until whole bytes are left. -/
def align : Taking Unit :=
  modify fun u => { u with bits := u.bits.drop (u.bits.length % 8) }

/-- Fails unless a condition holds. -/
def require (p : Prop) [Decidable p] (e : DecodeError) : Taking Unit :=
  if p then return () else fail e

/-- What an operation does with the bits that have not been read. -/
def ofOperation : Operation → Taking (Answer × Option Unread)
  | .bit => answering .flag flag
  | .bits n => answering .number (number n)
  | .u8 => answering .number (number 8)
  | .u16 => answering .number (number 16)
  | .u24 => answering .number (number 24)
  | .u32 => answering .number (number 32)
  | .fields widths _ => answering .numbers (allNumbers widths)
  | .bytes n => answering (fun bits => .bytes (Bytes.ofBits bits)) (wholeBytes n)
  | .split n => splitting (return { bits := ← wholeBytes n })
  | .skipBits n => answering (fun _ => .done) (skip n)
  | .align => answering (fun _ => .done) align
  | .expectEq fields i expected h =>
    answering (fun _ => .done)
      (require (fields.get i h = expected) (.unexpectedValue i expected (fields.get i h)))
  | .expectNe fields i forbidden h =>
    answering (fun _ => .done)
      (require (fields.get i h ≠ forbidden) (.forbiddenValue i forbidden))
  | .available => answering (.number ·.bits.length) get
  | .remainingBytes => answering (fun u => .number (u.bits.length / 8)) get
  | .failed => answering (.flag ·.failed) get

/-- What an operation on the bits that have not been read leads to. -/
def perform (u : Unread) (operation : Operation) : Outcome Unread :=
  .ofResult (ofOperation operation u)

end Unread

variable {α β γ δ : Type} {widths : List Nat}

namespace Unread

open Machine (fieldNumbers fieldNumbers_take)

section Take

variable {n : Nat} {u : Unread}

/-- Where a reader has failed, no bits are taken. -/
theorem take_of_failed (hfailed : u.failed = true) (value : List Bool → α) :
    take n value u = .error .readerFailed u := by
  rw [take, if_pos hfailed]

/-- Where enough bits are left, the first ones are taken and the others stay. -/
theorem take_of_room (hfailed : u.failed = false) (hroom : n ≤ u.bits.length)
    (value : List Bool → α) :
    take n value u = .ok (value (u.bits.take n)) { u with bits := u.bits.drop n } := by
  rw [take, if_neg (by simp [hfailed]), if_pos hroom]

/-- Where too few bits are left, none is taken and the reader fails. -/
theorem take_of_short (hfailed : u.failed = false) (hshort : ¬ n ≤ u.bits.length)
    (value : List Bool → α) :
    take n value u = .error (.endOfData n u.bits.length) { u with failed := true } := by
  rw [take, if_neg (by simp [hfailed]), if_neg hshort]

/-- A number of at most 64 bits is that of the bits that are taken. -/
theorem number_eq (hn : n ≤ 64) : number n = take n bitsToNat := by
  rw [number, if_neg (Nat.not_lt.mpr hn)]

end Take

/-- If there are enough bits for all numbers, then all of them are taken. -/
theorem numbers_of_room {u : Unread} (hwidths : ∀ width ∈ widths, width ≤ 64)
    (hfailed : u.failed = false) (hroom : totalWidth widths ≤ u.bits.length) :
    numbers widths u =
      .ok (fieldNumbers widths u.bits) { u with bits := u.bits.drop (totalWidth widths) } := by
  induction widths generalizing u with
  | nil => rfl
  | cons width widths ih =>
    rw [totalWidth_cons] at hroom
    have hfirst := take_of_room hfailed (n := width) (by omega) bitsToNat
    have hlater := @ih { u with bits := u.bits.drop width }
      (fun later hmem => hwidths later (List.mem_cons_of_mem width hmem)) hfailed
      (by simp only [List.length_drop]; omega)
    rw [numbers, number_eq (hwidths width List.mem_cons_self)]
    simp only [bind, EStateM.bind, hfirst, hlater, fieldNumbers, totalWidth_cons, List.drop_drop]
    rfl

/-- If there are too few bits for all numbers, then one of them cannot be taken. -/
theorem numbers_of_short {u : Unread} (hwidths : ∀ width ∈ widths, width ≤ 64)
    (hfailed : u.failed = false) (hshort : ¬ totalWidth widths ≤ u.bits.length) :
    ∃ e later, numbers widths u = .error e later := by
  induction widths generalizing u with
  | nil => exact absurd (Nat.zero_le _) hshort
  | cons width widths ih =>
    rw [numbers, number_eq (hwidths width List.mem_cons_self)]
    by_cases hroom : width ≤ u.bits.length
    · have hfirst := take_of_room hfailed hroom bitsToNat
      obtain ⟨e, later, hlater⟩ := @ih { u with bits := u.bits.drop width }
        (fun later hmem => hwidths later (List.mem_cons_of_mem width hmem)) hfailed
        (by rw [totalWidth_cons] at hshort; simp only [List.length_drop]; omega)
      refine ⟨e, later, ?_⟩
      simp only [bind, EStateM.bind, hfirst, hlater]
    · have hfirst := take_of_short hfailed hroom bitsToNat
      refine ⟨.endOfData width u.bits.length, { u with failed := true }, ?_⟩
      simp only [bind, EStateM.bind, hfirst]

/-- All numbers are taken together from the bits that they have together. -/
theorem allNumbers_eq (hwidths : ∀ width ∈ widths, width ≤ 64) :
    allNumbers widths = take (totalWidth widths) (fieldNumbers widths) := by
  funext u
  rw [allNumbers]
  cases hfailed : u.failed with
  | true => rw [if_pos rfl, take_of_failed hfailed]
  | false =>
    rw [if_neg (by simp)]
    by_cases hroom : totalWidth widths ≤ u.bits.length
    · rw [numbers_of_room hwidths hfailed hroom, take_of_room hfailed hroom, fieldNumbers_take]
    · obtain ⟨e, later, hshort⟩ := numbers_of_short hwidths hfailed hroom
      rw [hshort, take_of_short hfailed hroom]

end Unread

/-- The same result, with a view of the value and the bits ahead of the reader. -/
def viewed (view : α → β) :
    EStateM.Result DecodeError BitReader α → EStateM.Result DecodeError Unread β
  | .ok a r => .ok (view a) r.unread
  | .error e r => .error e r.unread

/-- What a decoder does with a reader, a computation does with the bits ahead of it. -/
def Mirrors (view : α → β) (decoder : Decoder α) (taking : Unread.Taking β) : Prop :=
  ∀ r, viewed view (decoder r) = taking r.unread

namespace Mirrors

variable {view : α → β} {decoder : Decoder α} {taking : Unread.Taking β}

/-- Decoders in turn are mirrored in turn, if the later one is for each value of the first. -/
theorem bind {view' : γ → δ} {next : α → Decoder γ} {next' : β → Unread.Taking δ}
    (h : Mirrors view decoder taking) (hnext : ∀ a, Mirrors view' (next a) (next' (view a))) :
    Mirrors view' (decoder >>= next) (taking >>= next') := by
  intro r
  have hfirst := h r
  cases hread : decoder r with
  | ok a r' =>
    rw [hread] at hfirst
    rw [Decoder.bind_of_ok hread, hnext a r']
    simp only [Bind.bind, EStateM.bind, ← hfirst, viewed]
  | error e r' =>
    rw [hread] at hfirst
    rw [Decoder.bind_of_error hread]
    simp only [Bind.bind, EStateM.bind, ← hfirst, viewed]

/-- A value that is there without reading is mirrored by its view. -/
theorem pure (a : α) : Mirrors view (pure a) (pure (view a)) := fun _ => rfl

/-- Errors are mirrored by themselves. -/
theorem fail (e : DecodeError) : Mirrors view (Decoder.fail e) (Unread.fail e) := fun _ => rfl

/-- The reader itself is mirrored by its unread bits. -/
theorem get : Mirrors BitReader.unread get get := fun _ => rfl

/-- Cases are mirrored case by case. -/
theorem ite {p q : Prop} [Decidable p] [Decidable q] (hpq : p ↔ q) {decoder' : Decoder α}
    {taking' : Unread.Taking β} (h : Mirrors view decoder taking)
    (h' : Mirrors view decoder' taking') :
    Mirrors view (if p then decoder else decoder') (if q then taking else taking') := by
  by_cases hp : p
  · rwa [if_pos hp, if_pos (hpq.mp hp)]
  · rwa [if_neg hp, if_neg (mt hpq.mpr hp)]

/-- Moving on takes bits off the front, and a value is read off these. -/
theorem viewed_consume {n : Nat} {value : BitReader → α} {value' : List Bool → β} {r : BitReader}
    (h : n ≤ r.available → view (value r) = value' (r.bits.take n)) :
    viewed view (Decoder.consume n value r) = Unread.take n value' r.unread := by
  have hlength : r.unread.bits.length = r.available := r.length_bits
  rw [Decoder.consume]
  cases hfailed : r.failed with
  | true =>
    rw [if_pos rfl, Unread.take_of_failed hfailed]
    rfl
  | false =>
    rw [if_neg (by simp)]
    by_cases hroom : n ≤ r.available
    · rw [dif_pos hroom, Unread.take_of_room hfailed (hlength ▸ hroom), viewed, h hroom,
        BitReader.unread, BitReader.bits_advance]
      rfl
    · rw [dif_neg hroom, Unread.take_of_short hfailed (hlength ▸ hroom), hlength]
      rfl

/-- One bit is mirrored by the first unread bit. -/
theorem bit : Mirrors id Decoder.bit Unread.flag := by
  refine fun r => viewed_consume fun hroom => ?_
  obtain ⟨first, hfirst⟩ : ∃ first, r.bits.take 1 = [first] := by
    refine List.length_eq_one_iff.mp ?_
    rw [List.length_take, BitReader.length_bits, Nat.min_eq_left hroom]
  rw [id, BitReader.peek_eq r 1 hroom, hfirst]
  cases first <;> rfl

/-- A number is mirrored by the number of the first unread bits. -/
theorem bits (n : Nat) : Mirrors id (Decoder.bits n) (Unread.number n) := by
  refine ite Iff.rfl (fail _) fun r => viewed_consume fun hroom => ?_
  exact BitReader.peek_eq r n hroom

/-- Skipped bits are mirrored by unread bits that are dropped. -/
theorem skipBits (n : Nat) : Mirrors id (Decoder.skipBits n) (Unread.skip n) :=
  fun _ => viewed_consume fun _ => rfl

/-- Whole bytes are left exactly if the reader stands at a byte boundary. -/
theorem aligned_iff (r : BitReader) : r.aligned = true ↔ r.unread.bits.length % 8 = 0 := by
  have hlt := r.used_lt
  have hle := r.used_le
  rw [BitReader.aligned, beq_iff_eq, BitReader.unread, BitReader.length_bits, BitReader.available]
  omega

/-- Bytes are mirrored by their bits. -/
theorem bytes (n : Nat) : Mirrors Bytes.bits (Decoder.bytes n) (Unread.wholeBytes n) := by
  intro r
  have hget : Unread.wholeBytes n r.unread = (if r.unread.bits.length % 8 = 0 then
      Unread.take (8 * n) id else Unread.fail .unalignedRead) r.unread := rfl
  rw [hget]
  cases haligned : r.aligned with
  | true =>
    have hused : r.used = 0 := by simpa [BitReader.aligned] using haligned
    rw [if_pos ((aligned_iff r).mp haligned), Decoder.bytes_of_aligned haligned]
    refine viewed_consume fun _ => ?_
    rw [Bytes.bits_take, BitReader.bits, hused, List.drop_zero, id]
  | false =>
    rw [if_neg (by simp [← aligned_iff, haligned]), Decoder.bytes_of_not_aligned haligned]
    rfl

/-- A part that is split off is mirrored by the bits of its bytes. -/
theorem split (n : Nat) : Mirrors BitReader.unread (Decoder.split n)
    (return { bits := ← Unread.wholeBytes n }) :=
  (bytes n).bind fun _ => pure _

/-- The next byte boundary is mirrored by dropping what is left of the byte. -/
theorem align : Mirrors id Decoder.align Unread.align := by
  intro r
  have hlt := r.used_lt
  have hle := r.used_le
  have hrest : r.available % 8 = (8 - r.used) % 8 := by
    rw [BitReader.available]
    omega
  have hunread : r.align.unread = ⟨r.bits.drop (r.bits.length % 8), r.failed⟩ := by
    rw [BitReader.unread, BitReader.bits_align, BitReader.failed_align, BitReader.length_bits,
      hrest]
  exact congrArg (EStateM.Result.ok ()) hunread

/-- A check for one value is mirrored by requiring that value. -/
theorem expectEq (fields : Fields widths) (i expected : Nat) (h : i < widths.length) :
    Mirrors id (Decoder.expectEq fields i expected h) (Unread.require (fields.get i h = expected)
      (.unexpectedValue i expected (fields.get i h))) :=
  ite Iff.rfl (pure ()) (fail _)

/-- A check against one value is mirrored by requiring another. -/
theorem expectNe (fields : Fields widths) (i forbidden : Nat) (h : i < widths.length) :
    Mirrors id (Decoder.expectNe fields i forbidden h)
      (Unread.require (fields.get i h ≠ forbidden) (.forbiddenValue i forbidden)) := by
  rw [Unread.require, ite_not]
  exact ite Iff.rfl (fail _) (pure ())

/-- Fields are as many numbers, taken one after the other. -/
theorem fields (hpacked : PackedWidths widths) :
    Mirrors Fields.values (Decoder.fields widths hpacked) (Unread.allNumbers widths) := by
  have hwidths : ∀ width ∈ widths, width ≤ 64 :=
    fun width hwidth => Nat.le_trans (Machine.le_totalWidth hwidth) hpacked.2
  intro r
  rw [Machine.fields_eq_consume, Unread.allNumbers_eq hwidths]
  refine viewed_consume fun hroom => ?_
  have hlength : (r.bits.take (totalWidth widths)).length = totalWidth widths := by
    rw [List.length_take, BitReader.length_bits, Nat.min_eq_left hroom]
  rw [BitReader.peek_eq r _ hroom, Machine.values_bitsToNat hlength]

/-- If a value is mirrored, so is an answer that is made of it. -/
theorem answering {answer : α → Answer} {answer' : β → Answer} (h : Mirrors view decoder taking)
    (hanswer : ∀ a, answer' (view a) = answer a) :
    Mirrors (Prod.map id (Option.map BitReader.unread)) (BitSession.answering answer decoder)
      (BitSession.answering answer' taking) :=
  h.bind fun a => by
    rw [hanswer]
    exact pure _

/-- If the reader that is split off is mirrored, so is the operation that hands it out. -/
theorem splitting {decoder : Decoder BitReader} {taking : Unread.Taking Unread}
    (h : Mirrors BitReader.unread decoder taking) :
    Mirrors (Prod.map id (Option.map BitReader.unread)) (BitSession.splitting decoder)
      (BitSession.splitting taking) :=
  h.bind fun _ => pure _

/-- What an operation does with a reader, it does with the bits ahead of it. -/
theorem ofOperation (operation : Operation) :
    Mirrors (Prod.map id (Option.map BitReader.unread)) (Decoder.ofOperation operation)
      (Unread.ofOperation operation) := by
  cases operation with
  | bit => exact bit.answering fun _ => rfl
  | bits n => exact (bits n).answering fun _ => rfl
  | u8 => exact (bits 8).answering fun _ => rfl
  | u16 => exact (bits 16).answering fun _ => rfl
  | u24 => exact (bits 24).answering fun _ => rfl
  | u32 => exact (bits 32).answering fun _ => rfl
  | fields widths packed => exact (fields packed).answering fun _ => rfl
  | bytes n => exact (bytes n).answering fun found => by rw [Bytes.ofBits_bits]
  | split n => exact (split n).splitting
  | skipBits n => exact (skipBits n).answering fun _ => rfl
  | align => exact align.answering fun _ => rfl
  | expectEq fields i expected h =>
    exact (expectEq fields i expected h).answering fun _ => rfl
  | expectNe fields i forbidden h =>
    exact (expectNe fields i forbidden h).answering fun _ => rfl
  | available => exact get.answering fun r => by rw [BitReader.unread, BitReader.length_bits]
  | remainingBytes =>
    exact get.answering fun r => by
      rw [BitReader.unread, BitReader.length_bits, BitReader.remainingBytes]
  | failed => exact get.answering fun _ => rfl

end Mirrors

/-- Each operation does to the bits ahead of a reader what it does to the reader. -/
theorem BitReader.refines_unread :
    Refines (m := Id) (fun r u => r.unread = u) (fun _ => True) perform Unread.perform := by
  rintro r _ rfl operation _
  refine ⟨r.perform operation, rfl, ?_⟩
  have hmirrors := Mirrors.ofOperation operation r
  rw [Unread.perform, ← hmirrors, perform]
  cases Decoder.ofOperation operation r with
  | ok a r' =>
    obtain ⟨answer, part⟩ := a
    cases part with
    | none => exact ⟨rfl, rfl, .nil⟩
    | some part => exact ⟨rfl, rfl, .cons rfl .nil⟩
  | error e r' => exact ⟨rfl, rfl, .nil⟩

/-- A session on some bytes goes as one on the list of their bits. -/
theorem BitReader.run_eq_unread (bytes : Bytes) (calls : List Call) :
    (run perform [.ofBytes bytes] calls).answers =
        (run Unread.perform [⟨bytes.bits, false⟩] calls).answers ∧
      (run perform [.ofBytes bytes] calls).readers.map unread =
        (run Unread.perform [⟨bytes.bits, false⟩] calls).readers := by
  obtain ⟨last, hrun, hlast⟩ := refines_unread.runM calls (fun _ _ => trivial)
    (.cons (rfl : (ofBytes bytes).unread = ⟨bytes.bits, false⟩) .nil)
  have hhistory : run perform [.ofBytes bytes] calls = ⟨_, last⟩ := hrun
  rw [hhistory]
  refine ⟨rfl, ?_⟩
  rwa [← List.forall₂_eq_eq_eq, List.forall₂_map_left_iff]

end TransportStream
