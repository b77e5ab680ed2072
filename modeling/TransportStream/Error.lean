import TransportStream.Text.Hex

/-!
# Causes of a failed decoding

Each constructor is one way in which bytes fail to be a bit field, a packet, a table
or a PES unit. The wording lives in `DecodeError.message` alone.
-/

namespace TransportStream

/-- Why bytes could not be decoded. -/
inductive DecodeError where
  /-- A read asked for more bits than were left. -/
  | endOfData (needed available : Nat)
  /-- A read on a reader that had failed before. -/
  | readerFailed
  /-- A bit field did not hold the value that its place requires. -/
  | unexpectedValue (index expected actual : Nat)
  /-- A bit field held the one value that its place forbids. -/
  | forbiddenValue (index value : Nat)
  /-- Bytes were asked for between two byte boundaries. -/
  | unalignedRead
  /-- More bits were asked for than a 64-bit number holds. -/
  | wideRead (bits : Nat)
  /-- A packet did not begin with the sync byte. -/
  | invalidSyncByte (byte : Nat)
  /-- The packet says of itself that it was damaged in transport. -/
  | transportError
  /-- A packet had another size than packets have. -/
  | invalidPacketSize (size : Nat)
  /-- A PES unit did not begin with its start code. -/
  | invalidStartCode (code : Nat)
  /-- A PES unit of a stream other than video left its length open. -/
  | unboundedLength (streamId : Nat)
  deriving DecidableEq, Repr

/-- The text that reports a failed decoding. -/
def DecodeError.message : DecodeError → String
  | .endOfData needed available =>
    s!"unexpected end of data: {needed} bits requested, {available} available"
  | .readerFailed => "bit reader already failed"
  | .unexpectedValue index expected actual =>
    s!"bit field {index} expected {hex 1 expected}, found {hex 1 actual}"
  | .forbiddenValue index value => s!"bit field {index} must not be {hex 1 value}"
  | .unalignedRead => "parser error: byte read at unaligned bit position"
  | .wideRead bits => s!"parser error: cannot read {bits} bits into a 64 bit value"
  | .invalidSyncByte byte => s!"invalid sync byte: {hex 2 byte}"
  | .transportError => "transport error indicator set"
  | .invalidPacketSize size => s!"invalid packet size: expected 188 bytes, got {size}"
  | .invalidStartCode code => s!"invalid data: invalid PES start code {hex 6 code}"
  | .unboundedLength streamId =>
    s!"invalid data: unbounded PES length for non-video stream id {hex 2 streamId}"

end TransportStream
