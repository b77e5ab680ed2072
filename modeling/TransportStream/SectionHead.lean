import TransportStream.Bits.Decoder

/-!
# Heads of table sections

The tables that describe a transport stream are sent in sections. A section tells its
length behind its first three bytes, says which table it belongs to and how current it
is, and ends with a checksum, which is kept and not verified.
-/

namespace TransportStream

/-- The number of bytes in the checksum of a section. -/
def checksumSize : Nat := 4

/-- What a section tells about itself. -/
structure SectionHead where
  /-- The kind of table. -/
  tableId : Nat
  /-- Whether the section has the general layout. -/
  generalLayout : Bool
  /-- What the table describes: a transport stream or a program. -/
  subject : Nat
  /-- The version of the table. -/
  version : Nat
  /-- Whether the table applies now, and not only later. -/
  current : Bool
  /-- The number of the section. -/
  number : Nat
  /-- The number of the last section of the table. -/
  lastNumber : Nat
  deriving DecidableEq, Repr

open Decoder

/-- Reads a PID behind three reserved bits. -/
def pidField : Decoder Nat := return (← fields [3, 13]).get 1

/-- Reads the part of a section's head that its length counts, behind the kind of table
and the layout. -/
def SectionHead.decoder (tableId : Nat) (generalLayout : Bool) : Decoder SectionHead := do
  let subject ← u16
  let state ← fields [2, 5, 1]
  let number ← u8
  let lastNumber ← u8
  return {
    tableId
    generalLayout
    subject
    version := state.get 1
    current := state.flag 2
    number
    lastNumber }

end TransportStream
