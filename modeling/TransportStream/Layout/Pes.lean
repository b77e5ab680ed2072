import TransportStream.Layout.Clock
import TransportStream.Pes

/-!
# The layout of PES units
-/

namespace TransportStream

open Layout

/-- The parts of the header of a PES unit. -/
def PesHeader.parts (h : PesHeader) : Layout :=
  ofOption (fun t => .free 4 :: ofTimestamp t) h.pts ++
    ofOption (fun t => .free 4 :: ofTimestamp t) h.dts ++
    ofOption ofStreamClock h.escr ++
    ofOption (fun rate => [.free 1, .value 22 rate, .free 1]) h.rate ++
    ofOption (fun mode => [.value 3 mode.control, .value 5 mode.data]) h.trickMode ++
    ofOption (fun info => [.free 1, .value 7 info]) h.copyInfo ++
    ofOption (fun crc => [.value 16 crc]) h.previousCrc

/-- The layout of the header of a PES unit. -/
def PesHeader.layout (h : PesHeader) : Layout :=
  [.value 2 2, .value 2 h.scrambling, flag h.priority, flag h.aligned, flag h.copyright,
      flag h.uncopied] ++
    [.value 2 h.timeFlags, flag h.escr.isSome, flag h.rate.isSome, flag h.trickMode.isSome,
      flag h.copyInfo.isSome, flag h.previousCrc.isSome, flag h.extended] ++
    [.value 8 h.length] ++ h.parts ++ [.free (8 * h.length - h.parts.size)]

/-- Whether the header of a PES unit can be written: its numbers fit, there is a time of
decoding only beside one of presentation, and the length has room for all parts. -/
def PesHeader.Writable (h : PesHeader) : Prop :=
  h.layout.Fits ∧ (h.dts.isSome → h.pts.isSome) ∧ h.parts.size ≤ 8 * h.length

/-- What the length of a PES unit counts. -/
def PesUnit.content (u : PesUnit) : Layout :=
  ofOption PesHeader.layout u.header ++ ofBytes u.payload

/-- The layout of a PES unit. -/
def PesUnit.layout (u : PesUnit) : Layout :=
  [.value 24 1, .value 8 u.streamId.code, .value 16 u.length] ++ u.content

/-- Whether a PES unit can be written: its numbers fit, it has a header if its stream
demands one, and the length is either left open or that of the content. -/
def PesUnit.Writable (u : PesUnit) : Prop :=
  u.layout.Fits ∧ (∀ h ∈ u.header, h.Writable) ∧
    u.header.isSome = u.streamId.hasOptionalHeader ∧
    (u.length = 0 ∨ 8 * u.length = u.content.size)

end TransportStream
