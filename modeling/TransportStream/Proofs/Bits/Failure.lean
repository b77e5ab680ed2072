import TransportStream.Proofs.Bits.Session
import TransportStream.Proofs.Machine.Reading

/-!
# Failed bit readers

An operation that fails leaves the reader in place and marks it as failed. A failed reader stays
failed, refuses every read, and is moved by nothing but an alignment. It mostly says that it has
failed before. But a read that is too wide for a number, and one of whole bytes between two byte
boundaries, are refused for their own sake.
-/

namespace TransportStream

namespace BitSession.Operation

/-- Whether bits are read, or moved over. -/
def isRead : Operation → Bool
  | bit | bits _ | u8 | u16 | u24 | u32 | fields _ _ | bytes _ | split _ | skipBits _ => true
  | align | expectEq .. | expectNe .. | available | remainingBytes | failed => false

/-- Whether the reader moves on to the next byte boundary. -/
def isAlign : Operation → Bool
  | align => true
  | _ => false

/-- The number of bits that are asked for. -/
def size : Operation → Nat
  | bit => 1
  | bits n | skipBits n => n
  | u8 => 8
  | u16 => 16
  | u24 => 24
  | u32 => 32
  | fields widths _ => totalWidth widths
  | bytes n | split n => 8 * n
  | align | expectEq .. | expectNe .. | available | remainingBytes | failed => 0

/-- Why a reader that has failed refuses a read. -/
def refusal (r : BitReader) : Operation → DecodeError
  | bits n => if 64 < n then .wideRead n else .readerFailed
  | bytes _ | split _ => if r.aligned then .readerFailed else .unalignedRead
  | _ => .readerFailed

end BitSession.Operation

open BitSession

namespace BitReader

variable {r : BitReader}

/-- A reader fails only once. -/
theorem fail_of_failed (h : r.failed = true) : r.fail = r := by
  rw [fail, ← h]

/-- A reader that stands at a byte boundary is there already. -/
theorem align_align (r : BitReader) : r.align.align = r.align := by
  have haligned : r.align.aligned = true := by
    rw [align]
    split
    case isTrue h => exact h
    case isFalse => rfl
  rw [align, if_pos haligned]

end BitReader

namespace Decoder

variable {α : Type} {n size : Nat} {decoder : Decoder α} {widths : List Nat}

/-- Whenever a decoder reports an error, the reader stays in place and is marked as failed. If there
are too few bits, then the error says how many are asked for, and how many are ahead. -/
def FailsInPlace (size : Nat) (decoder : Decoder α) : Prop :=
  ∀ r e r', decoder r = .error e r' →
    r' = r.fail ∧ ∀ needed available, e = .endOfData needed available →
      needed = size ∧ available = r.available

/-- What never fails needs no place to fail in. -/
theorem failsInPlace_of_total (value : BitReader → α) (next : BitReader → BitReader) :
    FailsInPlace size (fun r => .ok (value r) (next r)) := by
  intro r e r' h
  cases h

/-- Moving over bits fails in place, for want of so many bits. -/
theorem failsInPlace_consume (n : Nat) (value : BitReader → α) :
    FailsInPlace n (consume n value) := by
  intro r e r' h
  unfold consume at h
  split at h
  case isTrue hfailed =>
    cases h
    refine ⟨(BitReader.fail_of_failed hfailed).symm, fun needed available heq => ?_⟩
    cases heq
  case isFalse =>
    split at h
    case isTrue => cases h
    case isFalse =>
      cases h
      refine ⟨rfl, fun needed available heq => ?_⟩
      cases heq
      exact ⟨rfl, rfl⟩

/-- An error other than the end of the data marks the reader as failed where it stands. -/
theorem failsInPlace_fail {e : DecodeError}
    (h : ∀ needed available, e ≠ .endOfData needed available) :
    FailsInPlace size (fail e : Decoder α) := by
  intro r e' r' hread
  cases hread
  exact ⟨rfl, fun needed available heq => absurd heq (h needed available)⟩

/-- Whichever of two decoders is taken, it fails in place if both do. -/
theorem failsInPlace_ite {p : Prop} [Decidable p] {decoder' : Decoder α}
    (h : FailsInPlace size decoder) (h' : FailsInPlace size decoder') :
    FailsInPlace size (if p then decoder else decoder') := by
  split
  case isTrue => exact h
  case isFalse => exact h'

/-- Reading a number fails in place, for want of its bits or because it is too wide. -/
theorem failsInPlace_bits (n : Nat) : FailsInPlace n (bits n) :=
  failsInPlace_ite (failsInPlace_fail nofun) (failsInPlace_consume n _)

/-- Fields are read at once, so that they fail in place. -/
theorem failsInPlace_fields (hpacked : PackedWidths widths) :
    FailsInPlace (totalWidth widths) (fields widths hpacked) := by
  rw [Machine.fields_eq_consume]
  exact failsInPlace_consume _ _

/-- Reading bytes fails in place, for want of them or between two byte boundaries. -/
theorem failsInPlace_bytes (n : Nat) : FailsInPlace (8 * n) (bytes n) := by
  intro r e r' h
  cases haligned : r.aligned with
  | true =>
    rw [bytes_of_aligned haligned] at h
    exact failsInPlace_consume _ _ r e r' h
  | false =>
    rw [bytes_of_not_aligned haligned] at h
    exact failsInPlace_fail (e := .unalignedRead) nofun r e r' h

/-- A check for one value fails where the reader stands. -/
theorem failsInPlace_expectEq (fields : Fields widths) (i expected : Nat)
    (h : i < widths.length) : FailsInPlace size (expectEq fields i expected h) :=
  failsInPlace_ite (failsInPlace_of_total _ _) (failsInPlace_fail nofun)

/-- A check against one value fails where the reader stands. -/
theorem failsInPlace_expectNe (fields : Fields widths) (i forbidden : Nat)
    (h : i < widths.length) : FailsInPlace size (expectNe fields i forbidden h) :=
  failsInPlace_ite (failsInPlace_fail nofun) (failsInPlace_of_total _ _)

/-- What is made of the value does not matter. -/
theorem FailsInPlace.bind_pure {β : Type} (h : FailsInPlace size decoder) (f : α → β) :
    FailsInPlace size (decoder >>= fun a => pure (f a)) := by
  intro r e r' hread
  cases hfirst : decoder r with
  | ok a r'' =>
    rw [bind_of_ok hfirst] at hread
    cases hread
  | error e' r'' =>
    rw [bind_of_error hfirst] at hread
    cases hread
    exact h r e r' hfirst

/-- Whichever of two decoders is taken, the reader is left where both leave it. -/
theorem readerAfter_ite {p : Prop} [Decidable p] {decoder' : Decoder α} {r r' : BitReader}
    (h : decoder.readerAfter r = r') (h' : decoder'.readerAfter r = r') :
    (if p then decoder else decoder').readerAfter r = r' := by
  split
  case isTrue => exact h
  case isFalse => exact h'

/-- Each operation that fails does so in place. -/
theorem failsInPlace_ofOperation (operation : Operation) :
    FailsInPlace operation.size (ofOperation operation) := by
  cases operation with
  | bit => exact (failsInPlace_consume 1 _).bind_pure _
  | bits n => exact (failsInPlace_bits n).bind_pure _
  | u8 => exact (failsInPlace_bits 8).bind_pure _
  | u16 => exact (failsInPlace_bits 16).bind_pure _
  | u24 => exact (failsInPlace_bits 24).bind_pure _
  | u32 => exact (failsInPlace_bits 32).bind_pure _
  | fields widths packed => exact (failsInPlace_fields packed).bind_pure _
  | bytes n => exact (failsInPlace_bytes n).bind_pure _
  | split n => exact ((failsInPlace_bytes n).bind_pure _).bind_pure _
  | skipBits n => exact (failsInPlace_consume n _).bind_pure _
  | expectEq fields i expected h => exact (failsInPlace_expectEq fields i expected h).bind_pure _
  | expectNe fields i forbidden h => exact (failsInPlace_expectNe fields i forbidden h).bind_pure _
  | align | available | remainingBytes | failed => exact failsInPlace_of_total _ _

section Failed

variable {r : BitReader} (hfailed : r.failed = true)

include hfailed

/-- A reader that has failed refuses to move, even by no bits. -/
theorem consume_of_failed (n : Nat) (value : BitReader → α) :
    consume n value r = .error .readerFailed r := by
  rw [consume, if_pos hfailed]

/-- The width is looked at before the failure is. -/
theorem bits_of_failed (n : Nat) :
    bits n r = .error (if 64 < n then .wideRead n else .readerFailed) r := by
  rw [bits]
  split
  case isTrue => rw [fail, BitReader.fail_of_failed hfailed]
  case isFalse => exact consume_of_failed hfailed n _

/-- Off a reader that has failed no fields are read. -/
theorem fields_of_failed (hpacked : PackedWidths widths) :
    fields widths hpacked r = .error .readerFailed r := by
  rw [Machine.fields_eq_consume, consume_of_failed hfailed]

/-- The place of the reader is looked at before the failure is. -/
theorem bytes_of_failed (n : Nat) :
    bytes n r = .error (if r.aligned then .readerFailed else .unalignedRead) r := by
  cases haligned : r.aligned with
  | true => rw [bytes_of_aligned haligned, consume_of_failed hfailed, if_pos rfl]
  | false =>
    rw [bytes_of_not_aligned haligned, fail, BitReader.fail_of_failed hfailed]
    rfl

/-- A further error does not change a reader that has failed. -/
theorem readerAfter_fail_of_failed (e : DecodeError) :
    (fail e : Decoder α).readerAfter r = r :=
  BitReader.fail_of_failed hfailed

/-- A failed reader refuses each read, and stays in place. -/
theorem ofOperation_of_failed {operation : Operation} (hread : operation.isRead = true) :
    ofOperation operation r = .error (operation.refusal r) r := by
  cases operation with
  | bit => exact bind_of_error (consume_of_failed hfailed 1 _) _
  | bits n => exact bind_of_error (bits_of_failed hfailed n) _
  | u8 => exact bind_of_error (bits_of_failed hfailed 8) _
  | u16 => exact bind_of_error (bits_of_failed hfailed 16) _
  | u24 => exact bind_of_error (bits_of_failed hfailed 24) _
  | u32 => exact bind_of_error (bits_of_failed hfailed 32) _
  | fields widths packed => exact bind_of_error (fields_of_failed hfailed packed) _
  | bytes n => exact bind_of_error (bytes_of_failed hfailed n) _
  | split n => exact bind_of_error (bind_of_error (bytes_of_failed hfailed n) _) _
  | skipBits n => exact bind_of_error (consume_of_failed hfailed n _) _
  | align | expectEq | expectNe | available | remainingBytes | failed => cases hread

end Failed

end Decoder

namespace BitReader

variable {r : BitReader} {operation : Operation}

/-- The answer that is made of a value does not matter for the reader. -/
theorem reader_ofResult_answering {α : Type} (answer : α → Answer) (decoder : Decoder α)
    (r : BitReader) :
    (Outcome.ofResult (answering answer decoder r)).reader = decoder.readerAfter r := by
  rw [Decoder.readerAfter]
  cases hread : decoder r with
  | ok a r' =>
    rw [answering, Decoder.bind_of_ok hread]
    rfl
  | error e r' =>
    rw [answering, Decoder.bind_of_error hread]
    rfl

/-- A read from a failed reader is refused, and leaves the reader as it is. -/
theorem perform_of_failed (hfailed : r.failed = true) (hread : operation.isRead = true) :
    r.perform operation =
      { answer := .error (operation.refusal r), reader := r, part := none } := by
  rw [perform, Decoder.ofOperation_of_failed hfailed hread]
  rfl

/-- A failed reader is moved by an alignment alone. -/
theorem reader_perform_of_failed (hfailed : r.failed = true) (operation : Operation) :
    (r.perform operation).reader = if operation.isAlign then r.align else r := by
  cases operation with
  | expectEq fields i expected h =>
    exact (reader_ofResult_answering _ _ r).trans
      (Decoder.readerAfter_ite rfl (Decoder.readerAfter_fail_of_failed hfailed _))
  | expectNe fields i forbidden h =>
    exact (reader_ofResult_answering _ _ r).trans
      (Decoder.readerAfter_ite (Decoder.readerAfter_fail_of_failed hfailed _) rfl)
  | align | available | remainingBytes | failed => rfl
  | _ => rw [perform_of_failed hfailed rfl]; rfl

/-- A failed reader stays failed, and is moved by alignments alone. -/
theorem after_of_failed (hfailed : r.failed = true) (operations : List Operation) :
    after perform r operations = if operations.any (·.isAlign) then r.align else r := by
  induction operations generalizing r with
  | nil => rfl
  | cons operation operations ih =>
    rw [after, List.foldl_cons, ← after, reader_perform_of_failed hfailed]
    cases halign : operation.isAlign with
    | true =>
      rw [if_pos rfl, ih (by rw [failed_align, hfailed]), align_align, ite_self]
      simp [halign]
    | false =>
      rw [if_neg (by simp), ih hfailed]
      simp [halign]

/-- An operation that fails marks the reader as failed. -/
theorem perform_of_error {e : DecodeError} (h : (r.perform operation).answer = .error e) :
    r.perform operation = { answer := .error e, reader := r.fail, part := none } ∧
      ∀ needed available, e = .endOfData needed available →
        needed = operation.size ∧ available = r.available := by
  cases hresult : Decoder.ofOperation operation r with
  | ok a r' =>
    rw [perform, hresult] at h
    cases h
  | error e' r' =>
    rw [perform, hresult] at h
    cases h
    obtain ⟨rfl, hcounts⟩ := Decoder.failsInPlace_ofOperation operation r e r' hresult
    exact ⟨by rw [perform, hresult]; rfl, hcounts⟩

/-- In every session, each operation that fails marks its reader as failed. From then on the reader
stays failed, whatever is done with it or with the other readers, and moves only if it is aligned.
It refuses each read: it stays in place, splits nothing off, and says that it has failed, unless the
read is too wide for a number, or is one of whole bytes between two byte boundaries. -/
theorem failures_are_sticky (bytes : Bytes) (calls : List Call) (i : Nat) (r : BitReader)
    (h : (run perform [.ofBytes bytes] calls).readers[i]? = some r) :
    (∀ operation e, (r.perform operation).answer = .error e →
      (r.perform operation).reader.failed = true) ∧
    (r.failed = true → ∀ more, ∃ r',
      (run perform (run perform [.ofBytes bytes] calls).readers more).readers[i]? = some r' ∧
      r' = (if (operationsOn i more).any (·.isAlign) then r.align else r) ∧ r'.failed = true ∧
      ∀ operation, operation.isRead = true → r'.perform operation =
        { answer := .error (operation.refusal r'), reader := r', part := none }) := by
  constructor
  · intro operation e he
    rw [(perform_of_error he).1]
    rfl
  · intro hfailed more
    have hlater : (run perform (run perform [.ofBytes bytes] calls).readers more).readers[i]? =
        some (after perform r (operationsOn i more)) := getElem?_readers_run h more
    rw [after_of_failed hfailed] at hlater
    have hstays : (if (operationsOn i more).any (·.isAlign) then r.align else r).failed = true := by
      split
      case isTrue => rw [failed_align, hfailed]
      case isFalse => exact hfailed
    exact ⟨_, hlater, rfl, hstays, fun operation hread => perform_of_failed hstays hread⟩

/-- A reader that was split off asks for one bit too many, while the other one reads on. -/
theorem failures_are_sticky_in_part :
    let part : BitReader := { rest := [0xff], failed := true }
    let readers := (run perform [.ofBytes [0xff, 0x00]] [⟨0, .split 1⟩, ⟨1, .bits 9⟩]).readers
    readers[1]? = some part ∧ part.failed = true ∧
      (run perform readers [⟨1, .bit⟩, ⟨0, .u8⟩]).readers[1]? = some part ∧
      part.perform .u8 = { answer := .error .readerFailed, reader := part, part := none } := by
  intro part readers
  have hpart : readers[1]? = some part := rfl
  obtain ⟨_, hsticky⟩ := failures_are_sticky [0xff, 0x00] [⟨0, .split 1⟩, ⟨1, .bits 9⟩] 1 part hpart
  obtain ⟨r', hr', rfl, _, hrefuses⟩ := hsticky rfl [⟨1, .bit⟩, ⟨0, .u8⟩]
  exact ⟨hpart, rfl, hr', hrefuses .u8 rfl⟩

/-- Not each refusal says that the reader has failed: between two byte boundaries, a failed reader
complains of its place when whole bytes are asked for. -/
theorem refusals_are_not_all_alike :
    ¬ ∀ (bytes : Bytes) (calls : List Call) (i : Nat) (r : BitReader),
      (run perform [.ofBytes bytes] calls).readers[i]? = some r → r.failed = true →
      ∀ operation, operation.isRead = true →
        (r.perform operation).answer = .error .readerFailed := by
  intro h
  let failed : BitReader := ⟨[0xff, 0x00], 3, true, by decide, by decide⟩
  have hall := h [0xff, 0x00] [⟨0, .bits 3⟩, ⟨0, .bits 64⟩] 0 failed rfl rfl (.bytes 1) rfl
  have hplace : (failed.perform (.bytes 1)).answer = .error .unalignedRead := rfl
  rw [hplace] at hall
  cases hall

/-- A number that is too wide is refused for its width at every place. -/
example :
    (run perform [.ofBytes [0xff]] [⟨0, .u16⟩, ⟨0, .failed⟩, ⟨0, .u8⟩, ⟨0, .bits 65⟩]).answers =
      [some (.error (.endOfData 16 8)), some (.ok (.flag true)), some (.error .readerFailed),
        some (.error (.wideRead 65))] :=
  rfl

end BitReader

end TransportStream
