/-!
# Stream identifiers

The stream identifier of a PES unit is a code of eight bits. It tells whether the unit
has an optional header and whether it holds video.
-/

namespace TransportStream

/-- What stream a PES unit belongs to. -/
structure StreamId where
  /-- The code in the PES unit. -/
  code : Nat
  deriving DecidableEq, Repr

namespace StreamId

/-- The program stream map. -/
def programStreamMap : StreamId := ⟨0xbc⟩

/-- A stream of padding. -/
def padding : StreamId := ⟨0xbe⟩

/-- The second private stream. -/
def privateStream2 : StreamId := ⟨0xbf⟩

/-- Entitlement control messages. -/
def ecm : StreamId := ⟨0xf0⟩

/-- Entitlement management messages. -/
def emm : StreamId := ⟨0xf1⟩

/-- Storage media commands. -/
def dsmcc : StreamId := ⟨0xf2⟩

/-- A stream of type E after ITU-T Rec. H.222.1. -/
def h2221TypeE : StreamId := ⟨0xf8⟩

/-- The program stream directory. -/
def programStreamDirectory : StreamId := ⟨0xff⟩

/-- The first video stream. -/
def firstVideo : StreamId := ⟨0xe0⟩

/-- The last video stream. -/
def lastVideo : StreamId := ⟨0xef⟩

/-- The streams whose PES units have no optional header. -/
def headerless : List StreamId :=
  [programStreamMap, padding, privateStream2, ecm, emm, programStreamDirectory, dsmcc, h2221TypeE]

/-- Whether the PES units of a stream have an optional header. -/
def hasOptionalHeader (id : StreamId) : Bool := id ∉ headerless

/-- Whether a stream is one of the video streams. -/
def isVideo (id : StreamId) : Bool := firstVideo.code ≤ id.code && id.code ≤ lastVideo.code

end StreamId

end TransportStream
