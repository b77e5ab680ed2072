import TransportStream.Proofs.Bits.Failure
import TransportStream.Proofs.Bits.Unread

/-!
# Sessions with a cursor

A session with a cursor goes as one with a bit reader, and so as one with the list of the bits that
have not been read. No step of it is a fault, and the cursor and all that are split off from it stay
inside of their buffers.
-/

namespace TransportStream

open BitSession (Operation Outcome answering splitting)

/-- If whole bytes are asked for, then their bits can be counted in 64 bits. -/
def BitSession.Operation.fits : Operation → Bool
  | bytes n | split n => n < 2 ^ 61
  | _ => true

namespace Machine

namespace Reader

/-- Takes the bit at the cursor. -/
def nextBit : Reader Bool := do
  let bit ← peekBit
  stepBit
  return bit = 1

/-- Reads one bit. -/
def readBit : Reader Bool := do
  ensureBits 1
  nextBit

/-- Reads bit after bit and drops each. -/
def dropBits : Nat → Reader Unit
  | 0 => return ()
  | n + 1 => do
    let _ ← readBit
    dropBits n

/-- Moves on by `n` bits. -/
def skipBits (n : Nat) : Reader Unit := do
  ensureBits n
  dropBits n

/-- Moves on to the next byte boundary. -/
def alignByte : Reader Unit := do
  let c ← get
  if c.bitOffset ≠ 0 then
    let byteOffset ← add 64 c.byteOffset 1
    set { c with byteOffset, bitOffset := 0 }

/-- Moves on by `n` whole bytes and hands out a cursor over just these. -/
def split (n : Nat) : Reader Cursor := return { data := ← readBytes n }

/-- Whether a read has failed. -/
def hasFailed : Reader Bool := return (← get).failed

/-- What an operation does with a cursor. -/
def ofOperation : Operation → Reader (BitSession.Answer × Option Cursor)
  | .bit => answering .flag readBit
  | .bits n => answering .number (readBits n)
  | .u8 => answering .number readU8
  | .u16 => answering .number readU16
  | .u24 => answering .number readU24
  | .u32 => answering .number readU32
  | .fields widths _ => answering .numbers (readFields widths)
  | .bytes n => answering .bytes (readBytes n)
  | .split n => splitting (split n)
  | .skipBits n => answering (fun _ => .done) (skipBits n)
  | .align => answering (fun _ => .done) alignByte
  | .expectEq fields i expected _ =>
    answering (fun _ => .done) (expectEq fields.values i expected)
  | .expectNe fields i forbidden _ =>
    answering (fun _ => .done) (expectNe fields.values i forbidden)
  | .available => answering .number availableBits
  | .remainingBytes => answering .number remainingBytes
  | .failed => answering .flag hasFailed

end Reader

/-- What an operation on a cursor leads to. -/
def Cursor.perform (c : Cursor) (operation : Operation) : Checked (Outcome Cursor) := do
  let (result, c') ← (Reader.ofOperation operation).runOn c
  match result with
  | .ok (answer, part) => return { answer := .ok answer, reader := c', part }
  | .error e => return { answer := .error e, reader := c', part := none }

namespace Follows

open Reader

variable {c : Cursor} {r : BitReader}

/-- The bit at the cursor is taken unasked, if there is one. -/
theorem runOn_nextBit (h : Follows c r) (hroom : 1 ≤ r.available) :
    nextBit.runOn c = pure (.ok (r.peek 1 != 0), c.advance 1) := by
  have hlt := bitsToNat_lt (r.bits.take 1)
  rw [List.length_take, BitReader.length_bits, Nat.min_eq_left hroom] at hlt
  have hbit : (r.peek 1 != 0) = decide (bitsToNat (r.bits.take 1) = 1) := by
    rw [BitReader.peek_eq r 1 hroom]
    obtain hzero | hone : bitsToNat (r.bits.take 1) = 0 ∨ bitsToNat (r.bits.take 1) = 1 := by omega
    · rw [hzero]
      rfl
    · rw [hone]
      rfl
  rw [nextBit, runOn_bind_of_ok (h.runOn_peekBit hroom), runOn_bind_of_ok h.runOn_stepBit,
    runOn_pure, hbit]

/-- Without a failure before it, the bit ahead is read and the cursor moves on by one. -/
theorem runOn_readBit (h : Follows c r) (hfailed : r.failed = false) (hroom : 1 ≤ r.available) :
    readBit.runOn c = pure (.ok (r.peek 1 != 0), c.advance 1) := by
  rw [readBit, runOn_bind_of_ok (h.runOn_ensureBits hfailed hroom), h.runOn_nextBit hroom]

/-- Bits are dropped one by one. -/
theorem runOn_dropBits (h : Follows c r) (hfailed : r.failed = false) {n : Nat}
    (hroom : n ≤ r.available) : (dropBits n).runOn c = pure (.ok (), c.advance n) := by
  induction n generalizing c r with
  | zero =>
    have hused := r.used_lt
    rw [h.used] at hused
    rw [dropBits, runOn_pure, Cursor.advance_zero hused]
  | succ n ih =>
    have hone : 1 ≤ r.available := by omega
    have hlater : n ≤ (r.advance 1 hone).available := by
      rw [BitReader.available_advance]
      omega
    rw [dropBits, runOn_bind_of_ok (h.runOn_readBit hfailed hone),
      ih (h.advance hone) hfailed hlater, Cursor.advance_advance, Nat.add_comm]

/-- A cursor that stands at the start of a byte need not be aligned. -/
theorem align_of_aligned (h : Follows c r) (hused : c.bitOffset = 0) : r.align = r := by
  rw [BitReader.align, if_pos]
  rw [BitReader.aligned, h.used, hused]
  rfl

/-- Aligning moves the cursor on by one byte if it stands inside of one. -/
theorem runOn_alignByte (h : Follows c r) :
    ∃ c', alignByte.runOn c = pure (.ok (), c') ∧ Follows c' r.align := by
  have hsmall := h.small
  have hle := r.used_le
  rw [bufferLimit] at hsmall
  rw [h.length_rest, h.used] at hle
  rw [alignByte, runOn_get_bind]
  by_cases hused : c.bitOffset = 0
  · rw [if_neg (by simp [hused]), h.align_of_aligned hused]
    exact ⟨c, rfl, h⟩
  · have haligned : r.aligned = false := by simpa [BitReader.aligned, h.used] using hused
    have hinside : c.byteOffset + 1 ≤ c.data.length := by omega
    have hrest : r.rest.drop 1 = c.data.drop (c.byteOffset + 1) := by rw [h.rest, List.drop_drop]
    rw [if_pos hused, lift_bind (add_eq (by omega)), runOn_set, BitReader.align,
      if_neg (by simp [haligned])]
    exact ⟨_, rfl, h.small, hinside, hrest, rfl, h.failed⟩

end Follows

/-- A cursor at the first byte that a reader has ahead. -/
def Cursor.onRest (r : BitReader) : Cursor := { data := r.rest }

/-- A computation and a decoder give the same answer, and split off the same part. -/
abbrev Performs (reader : Reader (BitSession.Answer × Option Cursor))
    (decoder : Decoder (BitSession.Answer × Option BitReader)) : Prop :=
  SimulatesAs (Prod.map id (Option.map .onRest))
    (fun x => ∀ part ∈ x.2, Follows (.onRest part) part) reader decoder

variable {α β γ δ : Type} {view : α → γ} {P : α → Prop}

/-- What is made of the values on both sides is alike if the values are. -/
theorem SimulatesAs.bind_pure {view' : β → δ} {Q : β → Prop} {reader : Reader γ}
    {decoder : Decoder α} (h : SimulatesAs view P reader decoder) {f : γ → δ} {g : α → β}
    (hview : ∀ a, P a → f (view a) = view' (g a)) (hvalue : ∀ a, P a → Q (g a)) :
    SimulatesAs view' Q (reader >>= fun x => pure (f x)) (decoder >>= fun a => pure (g a)) := by
  intro c r hfollows
  cases hread : decoder r with
  | ok a r' =>
    obtain ⟨ha, c', hrun, hfollows'⟩ := h.of_ok hfollows hread
    rw [Decoder.bind_of_ok hread, Reader.runOn_bind_of_ok hrun, hview a ha]
    exact ⟨hvalue a ha, c', rfl, hfollows'⟩
  | error e r' =>
    obtain ⟨c', hrun, hfollows'⟩ := h.of_error hfollows hread
    rw [Decoder.bind_of_error hread, Reader.runOn_bind_of_error hrun]
    exact ⟨c', rfl, hfollows'⟩

/-- If a computation gives a view of a value from which its answer can be told, the operations are
performed alike. -/
theorem SimulatesAs.answering {reader : Reader γ} {decoder : Decoder α}
    {answer : α → BitSession.Answer} {answer' : γ → BitSession.Answer}
    (h : SimulatesAs view P reader decoder) (hanswer : ∀ a, answer' (view a) = answer a) :
    Performs (BitSession.answering answer' reader) (BitSession.answering answer decoder) := by
  refine h.bind_pure (fun a _ => ?_) fun a _ part hpart => ?_
  · rw [hanswer]
    rfl
  · cases hpart

/-- If what is split off is followed by a cursor over the same bytes, the operations are performed
alike. -/
theorem SimulatesAs.splitting {reader : Reader Cursor} {decoder : Decoder BitReader}
    (h : SimulatesAs .onRest (fun part => Follows (.onRest part) part) reader decoder) :
    Performs (BitSession.splitting reader) (BitSession.splitting decoder) := by
  refine h.bind_pure (fun _ _ => rfl) fun part hpart other hother => ?_
  cases hother
  exact hpart

/-- One bit is read with a cursor as it is decoded. -/
theorem simulates_readBit : Simulates Reader.readBit Decoder.bit := fun _ _ hfollows =>
  EndsAs.consume hfollows fun _ hroom => ⟨trivial, hfollows.runOn_nextBit hroom⟩

/-- A number is read with a cursor as it is decoded, and refused alike if it is too wide. -/
theorem simulates_readBits (n : Nat) : Simulates (Reader.readBits n) (Decoder.bits n) := by
  by_cases hn : n ≤ 64
  · exact (SimulatesWith.readBits hn).simulates
  · have hwide : 64 < n := Nat.lt_of_not_le hn
    rw [Reader.readBits, Decoder.bits, if_pos hwide, if_pos hwide]
    exact SimulatesWith.fail _

/-- Bits are skipped with a cursor all or none, although it drops them one by one. -/
theorem simulates_skipBits (n : Nat) : Simulates (Reader.skipBits n) (Decoder.skipBits n) :=
  fun _ _ hfollows => EndsAs.consume hfollows fun hfailed hroom =>
    ⟨trivial, hfollows.runOn_dropBits hfailed hroom⟩

/-- A cursor goes on to the next byte boundary as the reader does. -/
theorem simulates_alignByte : Simulates Reader.alignByte Decoder.align := by
  intro c r hfollows
  obtain ⟨c', hrun, hfollows'⟩ := hfollows.runOn_alignByte
  exact ⟨trivial, c', hrun, hfollows'⟩

/-- A cursor counts the bits ahead as the reader does. -/
theorem simulates_availableBits :
    SimulatesAs BitReader.available (fun _ => True) Reader.availableBits get :=
  fun c _ hfollows => ⟨trivial, c, hfollows.runOn_availableBits, hfollows⟩

/-- A cursor counts the whole bytes ahead as the reader does. -/
theorem simulates_remainingBytes :
    SimulatesAs BitReader.remainingBytes (fun _ => True) Reader.remainingBytes get :=
  fun c _ hfollows => ⟨trivial, c, hfollows.runOn_remainingBytes, hfollows⟩

/-- A cursor knows of failures what the reader knows. -/
theorem simulates_hasFailed :
    SimulatesAs BitReader.failed (fun _ => True) Reader.hasFailed get := by
  intro c r hfollows
  refine ⟨trivial, c, ?_, hfollows⟩
  rw [Reader.hasFailed, Reader.runOn_get_bind, Reader.runOn_pure, hfollows.failed]

/-- A cursor that is split off follows the reader that is split off. -/
theorem simulates_split {n : Nat} (hn : n < 2 ^ 61) :
    SimulatesAs .onRest (fun part => Follows (.onRest part) part) (Reader.split n)
      (Decoder.split n) := by
  have hbytes := SimulatesWith.readBytes_of_fits (n := n) (by omega)
  exact hbytes.bind_pure (fun _ _ => rfl) fun _ hsmall => Follows.ofBytes hsmall

/-- Each operation does with a cursor what it does with the reader that it follows. -/
theorem performs_ofOperation {operation : Operation} (hfits : operation.fits = true) :
    Performs (Reader.ofOperation operation) (Decoder.ofOperation operation) := by
  cases operation with
  | bit => exact simulates_readBit.answering fun _ => rfl
  | bits n => exact (simulates_readBits n).answering fun _ => rfl
  | u8 => exact SimulatesWith.readU8.answering fun _ => rfl
  | u16 => exact SimulatesWith.readU16.answering fun _ => rfl
  | u24 => exact SimulatesWith.readU24.answering fun _ => rfl
  | u32 => exact SimulatesWith.readU32.answering fun _ => rfl
  | fields widths packed => exact (SimulatesAs.readFields packed).answering fun _ => rfl
  | bytes n =>
    have hn : n < 2 ^ 61 := of_decide_eq_true hfits
    exact (SimulatesWith.readBytes_of_fits (n := n) (by omega)).answering fun _ => rfl
  | split n => exact (simulates_split (of_decide_eq_true hfits)).splitting
  | skipBits n => exact (simulates_skipBits n).answering fun _ => rfl
  | align => exact simulates_alignByte.answering fun _ => rfl
  | expectEq fields i expected h =>
    exact (Simulates.expectEq fields i h expected).answering fun _ => rfl
  | expectNe fields i forbidden h =>
    exact (Simulates.expectNe fields i h forbidden).answering fun _ => rfl
  | available => exact simulates_availableBits.answering fun _ => rfl
  | remainingBytes => exact simulates_remainingBytes.answering fun _ => rfl
  | failed => exact simulates_hasFailed.answering fun _ => rfl

/-- Each operation leads to the same with a cursor as with the reader that it follows. -/
theorem refines_reader :
    BitSession.Refines (m := Checked) Follows (·.fits = true) Cursor.perform BitReader.perform := by
  intro c r hfollows operation hfits
  have hperforms := performs_ofOperation hfits
  rw [BitReader.perform]
  cases hread : Decoder.ofOperation operation r with
  | ok a r' =>
    obtain ⟨hpart, c', hrun, hfollows'⟩ := hperforms.of_ok hfollows hread
    obtain ⟨answer, part⟩ := a
    refine ⟨⟨.ok answer, c', part.map .onRest⟩, ?_, rfl, hfollows', ?_⟩
    · rw [Cursor.perform, hrun, pure_bind]
      rfl
    · cases part with
      | none => exact .nil
      | some part => exact .cons (hpart part rfl) .nil
  | error e r' =>
    obtain ⟨c', hrun, hfollows'⟩ := hperforms.of_error hfollows hread
    refine ⟨⟨.error e, c', none⟩, ?_, rfl, hfollows', .nil⟩
    rw [Cursor.perform, hrun, pure_bind]

end Machine

open BitSession (Call run runM after operationsOn)
open Machine (Cursor Follows bufferLimit)

/-- In every session, on any bytes and on all readers that are split off, each reader behaves as the
list of its unread bits: the answers are those that the lists give, and the readers have ahead of
them what is left of the lists. An operation that fails marks its reader as failed, leaves it in
place and splits nothing off; if bits are missing, it says how many were asked for and how many are
left. What becomes of a reader depends on what is done with it alone. Where sizes fit into 64 bits,
cursors that move bit by bit through the bytes give the same answers, none of them with a fault, and
end where the readers do. -/
theorem BitReader.behaves_as_unread_bits (bytes : Bytes) (calls : List Call) :
    let session := run perform [.ofBytes bytes] calls
    let ideal := run Unread.perform [{ bits := bytes.bits }] calls
    (session.answers = ideal.answers ∧ session.readers.map unread = ideal.readers) ∧
    (∀ r ∈ session.readers, ∀ operation e, (r.perform operation).answer = .error e →
      r.perform operation = { answer := .error e, reader := r.fail, part := none } ∧
      ∀ needed available, e = .endOfData needed available →
        needed = operation.size ∧ available = r.unread.bits.length) ∧
    (∀ i r, session.readers[i]? = some r → ∀ more,
      (run perform session.readers more).readers[i]? =
        some (after perform r (operationsOn i more))) ∧
    (bytes.length < bufferLimit → (∀ call ∈ calls, call.operation.fits = true) →
      ∃ cursors, runM Cursor.perform [{ data := bytes }] calls = pure ⟨session.answers, cursors⟩ ∧
        List.Forall₂ Follows cursors session.readers) := by
  intro session ideal
  refine ⟨run_eq_unread bytes calls, ?_, ?_, ?_⟩
  · intro r _ operation e he
    obtain ⟨hinPlace, hcounts⟩ := perform_of_error he
    refine ⟨hinPlace, fun needed available heq => ?_⟩
    rw [unread, length_bits]
    exact hcounts needed available heq
  · intro i r hr more
    exact BitSession.getElem?_readers_run hr more
  · intro hsmall hfits
    exact Machine.refines_reader.runM calls hfits (.cons (Follows.ofBytes hsmall) .nil)

/-- Numbers cross bytes, and a part is asked for one bit too many before the whole is read on. -/
theorem BitReader.behaves_as_unread_bits_around_failed_part :
    let bytes : Bytes := [0xb3, 0xab, 0x40, 0xff]
    let calls : List Call := [⟨0, .bits 3⟩, ⟨0, .bits 10⟩, ⟨0, .align⟩, ⟨0, .split 1⟩, ⟨1, .bits 9⟩,
      ⟨0, .fields [1, 7] (by decide)⟩, ⟨1, .available⟩, ⟨0, .u8⟩]
    let answers := [some (.ok (.number 5)), some (.ok (.number 629)), some (.ok .done),
      some (.ok .done), some (.error (.endOfData 9 8)), some (.ok (.numbers [1, 127])),
      some (.ok (.number 8)), some (.error (.endOfData 8 0))]
    bytes.length < bufferLimit ∧ (∀ call ∈ calls, call.operation.fits = true) ∧
      (run Unread.perform [{ bits := bytes.bits }] calls).answers = answers ∧
      ∃ cursors, runM Cursor.perform [{ data := bytes }] calls = pure ⟨answers, cursors⟩ := by
  intro bytes calls answers
  have hsmall : bytes.length < bufferLimit := by decide
  have hfits : ∀ call ∈ calls, call.operation.fits = true := by decide
  obtain ⟨⟨hideal, _⟩, _, _, hcursor⟩ := behaves_as_unread_bits bytes calls
  obtain ⟨cursors, hrun, _⟩ := hcursor hsmall hfits
  have hanswers : (run perform [.ofBytes bytes] calls).answers = answers := by decide +kernel
  rw [hanswers] at hideal hrun
  exact ⟨hsmall, hfits, hideal.symm, cursors, hrun⟩

end TransportStream
