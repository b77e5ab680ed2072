import TransportStream.Bits.Timestamp
import TransportStream.StreamId

/-!
# PES units

A packetized elementary stream, a PES, consists of units. A unit begins with a start
code, the identifier of its stream and a length. Most streams put a header in front of
the payload. Its flags announce its parts, which follow in the order of their flags, and
whatever is left over is stuffing.
-/

namespace TransportStream

/-- How a stream is played other than forward at its own speed. -/
structure TrickMode where
  /-- The kind of playing. -/
  control : Nat
  /-- Five bits that depend on the kind. -/
  data : Nat
  deriving DecidableEq, Repr

/-- The optional header of a PES unit. -/
structure PesHeader where
  /-- How the payload is scrambled, zero if it is not. -/
  scrambling : Nat
  /-- Whether the unit takes precedence in its stream. -/
  priority : Bool
  /-- Whether the payload starts where a unit of its content starts. -/
  aligned : Bool
  /-- Whether the payload is under copyright. -/
  copyright : Bool
  /-- Whether the payload is no copy. -/
  uncopied : Bool
  /-- Whether the flag for an extension is set. Extensions are not decoded. -/
  extended : Bool
  /-- The number of bytes that the parts and the stuffing take. -/
  length : Nat
  /-- The time of presentation, if given. -/
  pts : Option Nat
  /-- The time of decoding, if given. -/
  dts : Option Nat
  /-- The clock reference of the stream, if given. -/
  escr : Option ClockReference
  /-- The rate of the stream, if given. -/
  rate : Option Nat
  /-- The trick mode, if given. -/
  trickMode : Option TrickMode
  /-- Information on copying, if given. -/
  copyInfo : Option Nat
  /-- The checksum of the unit before, if given. -/
  previousCrc : Option Nat
  deriving DecidableEq, Repr

/-- A PES unit. -/
structure PesUnit where
  /-- The stream of the unit. -/
  streamId : StreamId
  /-- The number of bytes behind the length, or zero if it is left open. -/
  length : Nat
  /-- The header, if the stream has one. -/
  header : Option PesHeader
  /-- The bytes behind the header. -/
  payload : Bytes
  deriving DecidableEq, Repr

open Decoder

/-- The two bits that announce the times of presentation and of decoding. -/
def PesHeader.timeFlags (header : PesHeader) : Nat :=
  2 * header.pts.isSome.toNat + header.dts.isSome.toNat

/-- Reads the rate of a stream. -/
def streamRate : Decoder Nat := return (← fields [1, 22, 1]).get 1

/-- Reads a trick mode. -/
def TrickMode.decoder : Decoder TrickMode := do
  let f ← fields [3, 5]
  return ⟨f.get 0, f.get 1⟩

/-- Reads information on copying. -/
def copyInfo : Decoder Nat := return (← fields [1, 7]).get 1

/-- Reads the parts of the header of a PES unit, behind the bytes that hold its marks, its
flags and its length. -/
def PesHeader.partsDecoder (marks : Fields [2, 2, 1, 1, 1, 1])
    (flags : Fields [2, 1, 1, 1, 1, 1, 1]) (length : Nat) : Decoder PesHeader := do
  let pts ← ifFlag (2 ≤ flags.get 0) (Prod.snd <$> nibbleAndTimestamp)
  let dts ← ifFlag (flags.get 0 == 3) (Prod.snd <$> nibbleAndTimestamp)
  let escr ← ifFlag (flags.flag 1) streamClock
  let rate ← ifFlag (flags.flag 2) streamRate
  let trickMode ← ifFlag (flags.flag 3) TrickMode.decoder
  let copyInfo ← ifFlag (flags.flag 4) TransportStream.copyInfo
  let previousCrc ← ifFlag (flags.flag 5) u16
  return {
    scrambling := marks.get 1
    priority := marks.flag 2
    aligned := marks.flag 3
    copyright := marks.flag 4
    uncopied := marks.flag 5
    extended := flags.flag 6
    length
    pts
    dts
    escr
    rate
    trickMode
    copyInfo
    previousCrc }

/-- Reads the optional header of a PES unit. -/
def PesHeader.decoder : Decoder PesHeader := do
  let marks ← fields [2, 2, 1, 1, 1, 1]
  expectEq marks 0 2
  let flags ← fields [2, 1, 1, 1, 1, 1, 1]
  expectNe flags 0 1
  let length ← u8
  within length (partsDecoder marks flags length)

namespace PesUnit

/-- The time of presentation, if the unit has a header that gives it. -/
def pts (unit : PesUnit) : Option Nat := unit.header.bind (·.pts)

/-- The time of decoding, if the unit has a header that gives it. -/
def dts (unit : PesUnit) : Option Nat := unit.header.bind (·.dts)

/-- Takes the bytes that a unit's length gives it, all that are left if it is open. Where
lengths are taken strictly, only video may leave them open. -/
def body (strictLength : Bool) (streamId : StreamId) (length : Nat) : Decoder Bytes := do
  if length = 0 then
    if strictLength && !streamId.isVideo then throw (.unboundedLength streamId.code)
    rest
  else bytes length

/-- Reads the optional header and the payload of a unit. -/
def contentDecoder (streamId : StreamId) : Decoder (Option PesHeader × Bytes) := do
  let header ← ifFlag streamId.hasOptionalHeader PesHeader.decoder
  return (header, ← rest)

/-- Reads a PES unit. -/
def decoder (strictLength : Bool) : Decoder PesUnit := do
  let startCode ← u24
  if startCode ≠ 1 then throw (.invalidStartCode startCode)
  let streamId : StreamId := ⟨← u8⟩
  let length ← u16
  let content ← body strictLength streamId length
  let (header, payload) ← ofExcept ((contentDecoder streamId).decode content)
  return { streamId, length, header, payload }

/-- Decodes a PES unit at the start of some bytes. -/
def decode (strictLength : Bool) (bytes : Bytes) : Except DecodeError PesUnit :=
  (decoder strictLength).decode bytes

end PesUnit

end TransportStream
