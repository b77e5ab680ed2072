import TransportStream.Demuxer
import TransportStream.Packetizer

/-!
# Receiving a stream

A receiver takes a stream in chunks that are cut anywhere. The packets that are found in
them are demultiplexed at once.
-/

namespace TransportStream

/-- A packetizer and the demultiplexer that reads its packets. -/
structure Receiver where
  /-- Finds the packets. -/
  packetizer : Packetizer := {}
  /-- Reads the packets. -/
  demuxer : Demuxer := {}

namespace Receiver

/-- What a packet brought. -/
inductive Event where
  /-- The packet could not be decoded. -/
  | failed (error : DecodeError)
  /-- The packet completed a unit. -/
  | unit (pid : Nat) (decoded : Except DecodeError PesUnit)
  /-- The packet was read, and completed no unit. -/
  | nothing

/-- What a chunk brought. -/
structure Reading where
  /-- The demultiplexer afterwards. -/
  demuxer : Demuxer
  /-- The events in the order of their packets. -/
  events : List Event := []
  /-- What there is to note. -/
  notices : List Notice := []

/-- The event of a packet. -/
def eventOf (reading : Demuxer.Reading) : Event :=
  match reading.result with
  | .error e => .failed e
  | .ok _ =>
    match reading.demuxer.pending with
    | some unit =>
      .unit unit.pid (PesUnit.decode reading.demuxer.config.strictLength unit.bytes)
    | none => .nothing

/-- Reads what a packetizer put out. -/
def readOutputs (d : Demuxer) : List Packetizer.Output → Reading
  | [] => { demuxer := d }
  | .notice notice :: outputs =>
    let later := readOutputs d outputs
    { later with notices := notice :: later.notices }
  | .packet bytes :: outputs =>
    let reading := d.read bytes
    let later := readOutputs reading.demuxer outputs
    { demuxer := later.demuxer
      events := eventOf reading :: later.events
      notices := reading.notices ++ later.notices }

/-- Reads the next chunk of the stream. -/
def read (r : Receiver) (chunk : Bytes) : Receiver × List Event × List Notice :=
  let (packetizer, outputs) := r.packetizer.read chunk
  let reading := readOutputs r.demuxer outputs
  ({ packetizer, demuxer := reading.demuxer }, reading.events, reading.notices)

end Receiver

end TransportStream
