import TransportStream.Bits.Timestamp

/-!
# Adaptation fields

An adaptation field stands between the head of a packet and its payload. Its first byte
counts the bytes behind it. Eight flags announce its parts, which follow in the order of
their flags, and whatever is left over is stuffing.
-/

namespace TransportStream

/-- The legal time window of a stream. -/
structure TimeWindow where
  /-- Whether the offset is valid. -/
  valid : Bool
  /-- The offset of the window. -/
  offset : Nat
  deriving DecidableEq, Repr

/-- Where decoding goes on behind a seamless splice. -/
structure SeamlessSplice where
  /-- The type of the splice. -/
  spliceType : Nat
  /-- The decoding time of the next access unit. -/
  nextDecodingTime : Nat
  deriving DecidableEq, Repr

/-- The extension of an adaptation field. -/
structure AdaptationExtension where
  /-- The legal time window, if given. -/
  timeWindow : Option TimeWindow
  /-- The piecewise rate, if given. -/
  piecewiseRate : Option Nat
  /-- The seamless splice, if given. -/
  seamlessSplice : Option SeamlessSplice
  deriving DecidableEq, Repr

/-- An adaptation field. -/
structure AdaptationField where
  /-- The number of bytes behind the length byte. -/
  length : Nat
  /-- Whether the clock or the counter of the stream starts anew. -/
  discontinuity : Bool := false
  /-- Whether decoding can start here. -/
  randomAccess : Bool := false
  /-- Whether the payload takes precedence in its stream. -/
  priority : Bool := false
  /-- The program clock reference, if given. -/
  pcr : Option ClockReference := none
  /-- The program clock reference before multiplexing, if given. -/
  opcr : Option ClockReference := none
  /-- The number of packets up to a splice, if given. It is negative behind the splice. -/
  spliceCountdown : Option Int := none
  /-- Private data, if given. -/
  privateData : Option Bytes := none
  /-- The extension, if there is one. -/
  extension : Option AdaptationExtension := none
  deriving DecidableEq, Repr

open Decoder

/-- Reads a legal time window. -/
def TimeWindow.decoder : Decoder TimeWindow := do
  let f ← fields [1, 15]
  return ⟨f.flag 0, f.get 1⟩

/-- Reads a piecewise rate. -/
def piecewiseRateDecoder : Decoder Nat := do
  let f ← fields [2, 22]
  return f.get 1

/-- Reads a seamless splice. -/
def SeamlessSplice.decoder : Decoder SeamlessSplice := do
  let (spliceType, nextDecodingTime) ← nibbleAndTimestamp
  return ⟨spliceType, nextDecodingTime⟩

/-- Reads the extension of an adaptation field, from its length byte on. -/
def AdaptationExtension.decoder : Decoder AdaptationExtension := do
  within (← u8) do
    let flags ← fields [1, 1, 1, 5]
    let timeWindow ← ifFlag (flags.flag 0) TimeWindow.decoder
    let piecewiseRate ← ifFlag (flags.flag 1) piecewiseRateDecoder
    let seamlessSplice ← ifFlag (flags.flag 2) SeamlessSplice.decoder
    return { timeWindow, piecewiseRate, seamlessSplice }

namespace AdaptationField

/-- Reads the flags and the parts of an adaptation field that counts `length` bytes. -/
def partsDecoder (length : Nat) : Decoder AdaptationField := do
  let flags ← fields [1, 1, 1, 1, 1, 1, 1, 1]
  let pcr ← ifFlag (flags.flag 3) programClock
  let opcr ← ifFlag (flags.flag 4) programClock
  let spliceCountdown ← ifFlag (flags.flag 5) i8
  let privateData ← ifFlag (flags.flag 6) countedBytes
  let extension ← ifFlag (flags.flag 7) AdaptationExtension.decoder
  return {
    length
    discontinuity := flags.flag 0
    randomAccess := flags.flag 1
    priority := flags.flag 2
    pcr
    opcr
    spliceCountdown
    privateData
    extension }

/-- Reads an adaptation field, from its length byte on. One that counts no bytes has
neither flags nor parts. -/
def decoder : Decoder AdaptationField := do
  let length ← u8
  if length = 0 then return { length } else within length (partsDecoder length)

end AdaptationField

end TransportStream
