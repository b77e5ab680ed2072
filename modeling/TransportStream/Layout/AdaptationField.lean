import TransportStream.AdaptationField
import TransportStream.Layout.Clock

/-!
# The layout of adaptation fields

The parts of an adaptation field follow its flags, and stuffing fills it up to its length.
The extension has stuffing of its own, which no decoded value tells of.
-/

namespace TransportStream

open Layout

/-- The layout of a legal time window. -/
def TimeWindow.layout (window : TimeWindow) : Layout := [flag window.valid, .value 15 window.offset]

/-- The layout of a seamless splice. -/
def SeamlessSplice.layout (splice : SeamlessSplice) : Layout :=
  .value 4 splice.spliceType :: ofTimestamp splice.nextDecodingTime

/-- The flags and the parts of the extension of an adaptation field. -/
def AdaptationExtension.parts (e : AdaptationExtension) : Layout :=
  [flag e.timeWindow.isSome, flag e.piecewiseRate.isSome, flag e.seamlessSplice.isSome, .free 5] ++
    ofOption TimeWindow.layout e.timeWindow ++
    ofOption (fun rate => [.free 2, .value 22 rate]) e.piecewiseRate ++
    ofOption SeamlessSplice.layout e.seamlessSplice

/-- The layout of the extension of an adaptation field with some bytes of stuffing. -/
def AdaptationExtension.layout (stuffing : Nat) (e : AdaptationExtension) : Layout :=
  .value 8 (e.parts.size / 8 + stuffing) :: e.parts ++ [.free (8 * stuffing)]

namespace AdaptationField

/-- The flags and the parts of an adaptation field. -/
def parts (stuffing : Nat) (a : AdaptationField) : Layout :=
  [flag a.discontinuity, flag a.randomAccess, flag a.priority, flag a.pcr.isSome,
      flag a.opcr.isSome, flag a.spliceCountdown.isSome, flag a.privateData.isSome,
      flag a.extension.isSome] ++
    ofOption ofProgramClock a.pcr ++
    ofOption ofProgramClock a.opcr ++
    ofOption (fun countdown => [.value 8 (countdown % 256).toNat]) a.spliceCountdown ++
    ofOption (fun data => .value 8 data.length :: ofBytes data) a.privateData ++
    ofOption (AdaptationExtension.layout stuffing) a.extension

/-- The layout of an adaptation field whose extension has some bytes of stuffing. -/
def layout (stuffing : Nat) (a : AdaptationField) : Layout :=
  if a.length = 0 then [.value 8 0]
  else .value 8 a.length :: a.parts stuffing ++ [.free (8 * a.length - (a.parts stuffing).size)]

/-- Whether an adaptation field can be written: its numbers fit, the countdown is a
signed 8-bit number, and the length has room for all parts. -/
def Writable (stuffing : Nat) (a : AdaptationField) : Prop :=
  (a.layout stuffing).Fits ∧
    (∀ countdown ∈ a.spliceCountdown, -128 ≤ countdown ∧ countdown < 128) ∧
    if a.length = 0 then a = { length := 0 } else (a.parts stuffing).size ≤ 8 * a.length

end AdaptationField

end TransportStream
