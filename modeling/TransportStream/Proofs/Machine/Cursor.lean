import TransportStream.Bits.Decoder
import TransportStream.Proofs.Machine.Checked

/-!
# Reading with a cursor

A cursor stands at a bit of a buffer. Reading moves it bit by bit. That there are enough bits is
asked once, in front of a read.
-/

namespace TransportStream.Machine

/-- A place in a buffer. -/
structure Cursor where
  /-- The buffer. -/
  data : Bytes
  /-- The place of the byte that holds the next bit. -/
  byteOffset : Nat := 0
  /-- How many bits of this byte have been read. -/
  bitOffset : Nat := 0
  /-- Whether a read has failed. It stays set. -/
  failed : Bool := false
  deriving DecidableEq, Repr

/-- A computation that moves a cursor and gives a value or reports an error. -/
abbrev Reader := ExceptT DecodeError (StateT Cursor Checked)

namespace Reader

variable {α : Type}

/-- What a computation leads to from a cursor on. -/
def runOn (reader : Reader α) (c : Cursor) : Checked (Except DecodeError α × Cursor) :=
  StateT.run (ExceptT.run reader) c

/-- Reports an error and marks the cursor as failed. -/
def fail (e : DecodeError) : Reader α := do
  modify fun c => { c with failed := true }
  throw e

/-- The number of bits ahead. -/
def availableBits : Reader Nat := do
  let c ← get
  let bytes ← sub c.data.length c.byteOffset
  let bits ← mul 64 bytes 8
  sub bits c.bitOffset

/-- The number of whole bytes ahead. -/
def remainingBytes : Reader Nat := return (← availableBits) / 8

/-- Fails unless so many bits are ahead. -/
def ensureBits (needed : Nat) : Reader Unit := do
  if (← get).failed then throw .readerFailed
  else
    let available ← availableBits
    if available < needed then fail (.endOfData needed available)

/-- The bit at the cursor. -/
def peekBit : Reader Nat := do
  let c ← get
  let byte ← index c.data c.byteOffset
  let place ← sub 7 c.bitOffset
  return (← shiftRight 8 byte.toNat place) &&& 1

/-- Moves on by one bit. -/
def stepBit : Reader Unit := do
  let c ← get
  let bitOffset ← add 8 c.bitOffset 1
  if bitOffset = 8 then
    let byteOffset ← add 64 c.byteOffset 1
    set { c with byteOffset, bitOffset := 0 }
  else set { c with bitOffset }

/-- Reads bit after bit and puts each below those before it. -/
def nextBits : Nat → Nat → Reader Nat
  | 0, value => return value
  | n + 1, value => do
    let bit ← peekBit
    let shifted ← shiftLeft 64 value 1
    stepBit
    nextBits n (shifted ||| bit)

/-- Reads a number of at most 64 bits. -/
def readBits (n : Nat) : Reader Nat := do
  if 64 < n then fail (.wideRead n)
  else
    ensureBits n
    nextBits n 0

/-- Reads an 8-bit number. -/
def readU8 : Reader Nat := do narrow 8 (← readBits 8)

/-- Reads a 16-bit number. -/
def readU16 : Reader Nat := do narrow 16 (← readBits 16)

/-- Reads a 24-bit number. -/
def readU24 : Reader Nat := do narrow 32 (← readBits 24)

/-- Reads a 32-bit number. -/
def readU32 : Reader Nat := do narrow 32 (← readBits 32)

/-- Reads fields one by one. -/
def readEach : List Nat → Reader (List Nat)
  | [] => return []
  | width :: widths => do
    let value ← readBits width
    let values ← readEach widths
    return value :: values

/-- Reads the fields that are packed into the next whole bytes, all or none. -/
def readFields (widths : List Nat) : Reader (List Nat) := do
  let total ← (widths.foldlM (add 32) 0 : Checked Nat)
  given (total % 8 = 0 ∧ total ≤ 64) .widths ()
  ensureBits total
  readEach widths

/-- The value of one field. -/
def field (values : List Nat) (i : Nat) : Reader Nat := index values i

/-- The value of one field, converted to some width. -/
def fieldAs (width : Nat) (values : List Nat) (i : Nat) : Reader Nat := do
  narrow width (← index values i)

/-- Whether a field holds anything but zero. -/
def flag (values : List Nat) (i : Nat) : Reader Bool := return (← index values i) != 0

/-- Fails unless a field holds the expected value. -/
def expectEq (values : List Nat) (i expected : Nat) : Reader Unit := do
  let actual ← index values i
  if actual ≠ expected then fail (.unexpectedValue i expected actual)

/-- Fails if a field holds the forbidden value. -/
def expectNe (values : List Nat) (i forbidden : Nat) : Reader Unit := do
  let actual ← index values i
  if actual = forbidden then fail (.forbiddenValue i forbidden)

/-- Takes the next `n` whole bytes. -/
def nextBytes (n : Nat) : Reader Bytes := do
  let c ← get
  let stop ← add 64 c.byteOffset n
  let bytes ← slice c.data c.byteOffset stop
  set { c with byteOffset := stop }
  return bytes

/-- Reads `n` whole bytes from a byte boundary. -/
def readBytes (n : Nat) : Reader Bytes := do
  if (← get).bitOffset ≠ 0 then fail .unalignedRead
  else
    let bits ← mul 64 n 8
    ensureBits bits
    nextBytes n

/-- The bytes ahead, among them the one that has been read in part. -/
def remainingData : Reader Bytes := do
  let c ← get
  slice c.data (min c.byteOffset c.data.length) c.data.length

/-- Reads a value off some bytes by themselves. -/
def inside (bytes : Bytes) (inner : Reader α) : Reader α := do
  let (result, _) ← inner.runOn { data := bytes }
  match result with
  | .ok a => return a
  | .error e => throw e

/-- Moves on by `n` whole bytes and reads a value off just these. -/
def within (n : Nat) (inner : Reader α) : Reader α := do inside (← readBytes n) inner

/-- Reads a value if a flag announces one. -/
def ifFlag (flag : Bool) (reader : Reader α) : Reader (Option α) :=
  if flag then some <$> reader else pure none

/-- Reads an item again and again while more than `left` whole bytes are ahead. It does not end if
so many rounds are not enough. -/
def whileLeftFor (left : Nat) (item : Reader α) : Nat → Reader (List α)
  | 0 => do unending
  | rounds + 1 => do
    if left < (← remainingBytes) then
      let a ← item
      let as ← whileLeftFor left item rounds
      return a :: as
    else return []

/-- Reads an item again and again while more than `left` whole bytes are ahead. A loop that goes on
for more rounds than the buffer has bits is one that does not end. -/
def whileLeft (left : Nat) (item : Reader α) : Reader (List α) := do
  whileLeftFor left item (8 * (← get).data.length + 1)

/-- The value that is read off a whole byte string. -/
def parse (reader : Reader α) (bytes : Bytes) : Checked (Except DecodeError α) :=
  Prod.fst <$> reader.runOn { data := bytes }

end Reader

end TransportStream.Machine
