import TransportStream.Bits.Fields
import TransportStream.Bits.Reader

/-!
# Decoders

A decoder reads a value off a bit reader or reports an error, and in both cases says
where the reader stands afterwards. A failed read leaves the reader in place and marks
it as failed. Reading inside a bounded part of the bytes never touches the reader
outside, whatever happens there.
-/

namespace TransportStream

/-- A computation that reads a value off a bit reader. -/
abbrev Decoder (α : Type) := EStateM DecodeError BitReader α

namespace Decoder

variable {α : Type} {widths : List Nat}

/-- The value that a decoder reads off a whole byte string. -/
def decode (decoder : Decoder α) (bytes : Bytes) : Except DecodeError α :=
  match decoder (.ofBytes bytes) with
  | .ok a _ => .ok a
  | .error e _ => .error e

/-- Reports an error and marks the reader as failed. -/
def fail (e : DecodeError) : Decoder α := fun r => .error e r.fail

/-- Looks at the reader and moves it on by `n` bits, provided that it has not failed
and that so many bits are left. -/
def consume (n : Nat) (value : BitReader → α) : Decoder α := fun r =>
  if r.failed then .error .readerFailed r
  else if h : n ≤ r.available then .ok (value r) (r.advance n h)
  else .error (.endOfData n r.available) r.fail

/-- Reads a number of at most 64 bits. -/
def bits (n : Nat) : Decoder Nat :=
  if 64 < n then fail (.wideRead n) else consume n (·.peek n)

/-- Reads one bit. -/
def bit : Decoder Bool := consume 1 (·.peek 1 != 0)

/-- Reads an 8-bit number. -/
def u8 : Decoder Nat := bits 8

/-- Reads a 16-bit number. -/
def u16 : Decoder Nat := bits 16

/-- Reads a 24-bit number. -/
def u24 : Decoder Nat := bits 24

/-- Reads a 32-bit number. -/
def u32 : Decoder Nat := bits 32

/-- Reads a signed 8-bit number in two's complement. -/
def i8 : Decoder Int := return (Int.ofNat (← u8)).bmod 256

/-- Reads the fields that are packed into the next whole bytes, all or none. -/
def fields (widths : List Nat) (_ : PackedWidths widths := by decide) :
    Decoder (Fields widths) := do
  return ⟨← bits (totalWidth widths)⟩

/-- Fails unless a field holds the expected value. -/
def expectEq (fields : Fields widths) (i expected : Nat)
    (h : i < widths.length := by decide) : Decoder Unit :=
  if fields.get i h = expected then pure ()
  else fail (.unexpectedValue i expected (fields.get i h))

/-- Fails if a field holds the forbidden value. -/
def expectNe (fields : Fields widths) (i forbidden : Nat)
    (h : i < widths.length := by decide) : Decoder Unit :=
  if fields.get i h = forbidden then fail (.forbiddenValue i forbidden) else pure ()

/-- Reads `n` whole bytes from a byte boundary. -/
def bytes (n : Nat) : Decoder Bytes := do
  if (← get).aligned then consume (8 * n) (·.rest.take n) else fail .unalignedRead

/-- Moves on by `n` whole bytes and hands out a reader over just these. -/
def split (n : Nat) : Decoder BitReader := return .ofBytes (← bytes n)

/-- Moves on by `n` whole bytes and reads a value off just these. -/
def within (n : Nat) (inner : Decoder α) : Decoder α := do
  ofExcept (inner.decode (← bytes n))

/-- Reads a number of bytes in one byte, and then so many bytes. -/
def countedBytes : Decoder Bytes := do bytes (← u8)

/-- Moves on by `n` bits. -/
def skipBits (n : Nat) : Decoder Unit := consume n fun _ => ()

/-- Moves on to the next byte boundary. -/
def align : Decoder Unit := modify BitReader.align

/-- The bytes ahead, among them the one that has been read in part. -/
def rest : Decoder Bytes := return (← get).rest

/-- Reads a value if a flag announces one. -/
def ifFlag (flag : Bool) (decoder : Decoder α) : Decoder (Option α) :=
  if flag then some <$> decoder else pure none

/-- Reads an item again and again while more than `left` whole bytes are ahead. It also
stops behind an item that took no bit, so that it ends for every item. -/
def repeated (left : Nat) (item : Decoder α) : Decoder (List α) := fun r =>
  if left < r.remainingBytes then
    match item r with
    | .error e r' => .error e r'
    | .ok a r' =>
      if r'.available < r.available then
        match repeated left item r' with
        | .error e r'' => .error e r''
        | .ok as r'' => .ok (a :: as) r''
      else .ok [a] r'
  else .ok [] r
termination_by r => r.available

end Decoder

end TransportStream
