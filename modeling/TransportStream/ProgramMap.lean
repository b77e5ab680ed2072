import TransportStream.SectionHead
import TransportStream.StreamType

/-!
# Program map tables

A program map table lists the elementary streams of one program, each with its type, its
PID and descriptors.
-/

namespace TransportStream

/-- The kind of table that a program map table is. -/
def mapTableId : Nat := 2

/-- A descriptor of an elementary stream, uninterpreted. -/
structure Descriptor where
  /-- The kind of descriptor. -/
  tag : Nat
  /-- The bytes of the descriptor. -/
  data : Bytes
  deriving DecidableEq, Repr

/-- An elementary stream of a program. -/
structure ElementaryStream where
  /-- What kind of data the stream holds. -/
  type : StreamType
  /-- The PID of the stream. -/
  pid : Nat
  /-- The descriptors in the order of the section. -/
  descriptors : List Descriptor
  deriving DecidableEq, Repr

/-- A program map table. -/
structure ProgramMap where
  /-- What the section tells about itself. Its subject is the program. -/
  head : SectionHead
  /-- The PID that carries the clock of the program. -/
  pcrPid : Nat
  /-- The descriptors of the program, uninterpreted. -/
  programInfo : Bytes
  /-- The elementary streams in the order of the section. -/
  streams : List ElementaryStream
  /-- The checksum as found. -/
  crc : Nat
  deriving DecidableEq, Repr

open Decoder

/-- Reads a descriptor. -/
def Descriptor.decoder : Decoder Descriptor := do
  let tag ← u8
  let data ← countedBytes
  return ⟨tag, data⟩

/-- Reads a length of ten bits behind four reserved bits and two zeros. -/
def infoLength : Decoder Nat := do
  let f ← fields [4, 2, 10]
  expectEq f 1 0
  return f.get 2

/-- Reads an elementary stream. -/
def ElementaryStream.decoder : Decoder ElementaryStream := do
  let type ← u8
  let pid ← pidField
  let descriptors ← within (← infoLength) (repeated 0 Descriptor.decoder)
  return ⟨⟨type⟩, pid, descriptors⟩

namespace ProgramMap

/-- The first entry for an elementary stream. -/
def stream? (table : ProgramMap) (pid : Nat) : Option ElementaryStream :=
  table.streams.find? (·.pid == pid)

/-- Reads a table from its first byte on, and exactly as many bytes as its length says. -/
def decoder : Decoder ProgramMap := do
  let tableId ← u8
  let f ← fields [1, 1, 2, 2, 10]
  expectEq f 3 0
  within (f.get 4) do
    let head ← SectionHead.decoder tableId (f.flag 0)
    let pcrPid ← pidField
    let programInfo ← bytes (← infoLength)
    let streams ← repeated checksumSize ElementaryStream.decoder
    let crc ← u32
    return { head, pcrPid, programInfo, streams, crc }

/-- Decodes the table at the start of some bytes. -/
def decode (bytes : Bytes) : Except DecodeError ProgramMap := decoder.decode bytes

end ProgramMap

end TransportStream
