import TransportStream.Bytes
import TransportStream.Error

/-!
# The bit reader

A reader stands between two bits of a byte string. It keeps the bytes from the one
that holds the next bit on, and how many bits of that byte are behind it. What a
reader means is the list `BitReader.bits` of the bits still ahead: moving on drops bits
off its front, and looking ahead gives the number that its first bits write.
-/

namespace TransportStream

/-- A position between two bits of a byte string. -/
structure BitReader where
  /-- The bytes from the one that holds the next bit on. -/
  rest : Bytes
  /-- How many bits of the first of these bytes have been read. -/
  used : Nat := 0
  /-- Whether a read has failed. It stays set. -/
  failed : Bool := false
  /-- A byte that has been read to its end is left behind. -/
  used_lt : used < 8 := by decide
  /-- No more bits have been read than there are. -/
  used_le : used ≤ 8 * rest.length := by exact Nat.zero_le _
  deriving DecidableEq, Repr

namespace BitReader

/-- A reader at the first bit of a byte string. -/
def ofBytes (bytes : Bytes) : BitReader := { rest := bytes }

/-- The bits ahead of the reader. -/
def bits (r : BitReader) : List Bool := r.rest.bits.drop r.used

/-- The number of bits ahead of the reader. -/
def available (r : BitReader) : Nat := 8 * r.rest.length - r.used

/-- The number of whole bytes that the bits ahead fill. -/
def remainingBytes (r : BitReader) : Nat := r.available / 8

/-- Whether the next bit is the first bit of a byte, or none is left. -/
def aligned (r : BitReader) : Bool := r.used == 0

/-- The number written by the next `n` bits: the bytes that they touch form a number,
from which the bits behind and those ahead are cut off. -/
def peek (r : BitReader) (n : Nat) : Nat :=
  let window := r.rest.take ((r.used + n + 7) / 8)
  (Bytes.toNat window >>> (8 * window.length - (r.used + n))) % (1 <<< n)

/-- The reader `n` bits further on. -/
def advance (r : BitReader) (n : Nat) (h : n ≤ r.available) : BitReader where
  rest := r.rest.drop ((r.used + n) / 8)
  used := (r.used + n) % 8
  failed := r.failed
  used_lt := Nat.mod_lt _ (by decide)
  used_le := by
    have := r.used_le
    simp only [available, List.length_drop] at *
    omega

/-- The reader at the next byte boundary. -/
def align (r : BitReader) : BitReader :=
  if r.aligned then r else { rest := r.rest.drop 1, failed := r.failed }

/-- The same position, with the failure noted. -/
def fail (r : BitReader) : BitReader := { r with failed := true }

end BitReader

end TransportStream
