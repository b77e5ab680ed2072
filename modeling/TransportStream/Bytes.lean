/-!
# Byte strings

A byte string is read in two ways: as one big-endian number, and as the list of its
bits with the most significant bit of each byte first.
-/

namespace TransportStream

/-- A string of bytes. -/
abbrev Bytes := List UInt8

/-- The number that a byte string writes in base 256, first byte first. -/
def Bytes.toNat (bytes : Bytes) : Nat := bytes.foldl (fun n byte => 256 * n + byte.toNat) 0

/-- The lowest bits of a number, most significant first. -/
def bitsOfNat (width n : Nat) : List Bool :=
  (List.range width).map fun i => n.testBit (width - 1 - i)

/-- The number that a list of bits writes in base two, first bit first. -/
def bitsToNat (bits : List Bool) : Nat := bits.foldl (fun n bit => 2 * n + bit.toNat) 0

/-- All bits of a byte string in reading order. -/
def Bytes.bits (bytes : Bytes) : List Bool := bytes.flatMap fun byte => bitsOfNat 8 byte.toNat

end TransportStream
