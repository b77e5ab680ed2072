import TransportStream.SectionHead

/-!
# The program association table

The table on PID 0 tells on which PID each program describes its streams. An entry for
program 0 names the PID of network information instead.
-/

namespace TransportStream

/-- The kind of table that a program association table is. -/
def associationTableId : Nat := 0

/-- An entry of the program association table. -/
structure AssociationEntry where
  /-- The number of the program, or zero for network information. -/
  program : Nat
  /-- The PID on which the program, or the network, is described. -/
  pid : Nat
  deriving DecidableEq, Repr

/-- A program association table. -/
structure ProgramAssociation where
  /-- What the section tells about itself. Its subject is the transport stream. -/
  head : SectionHead
  /-- The entries in the order of the section. -/
  entries : List AssociationEntry
  /-- The checksum as found. -/
  crc : Nat
  deriving DecidableEq, Repr

open Decoder

/-- Whether an entry names the PID of network information. -/
def AssociationEntry.isNetwork (entry : AssociationEntry) : Bool := entry.program == 0

/-- Reads an entry. -/
def AssociationEntry.decoder : Decoder AssociationEntry := do
  let program ← u16
  let pid ← pidField
  return ⟨program, pid⟩

namespace ProgramAssociation

/-- The PIDs on which programs describe their streams, in the order of the table. -/
def programPids (table : ProgramAssociation) : List Nat :=
  (table.entries.filter (!·.isNetwork)).map (·.pid)

/-- Reads a table from its first byte on, and exactly as many bytes as its length says. -/
def decoder : Decoder ProgramAssociation := do
  let tableId ← u8
  let f ← fields [1, 1, 2, 12]
  within (f.get 3) do
    let head ← SectionHead.decoder tableId (f.flag 0)
    let entries ← repeated checksumSize AssociationEntry.decoder
    let crc ← u32
    return { head, entries, crc }

/-- Decodes the table at the start of some bytes. -/
def decode (bytes : Bytes) : Except DecodeError ProgramAssociation := decoder.decode bytes

end ProgramAssociation

end TransportStream
