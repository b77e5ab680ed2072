import TransportStream.Proofs.Demuxer.Run
import TransportStream.Receiver

/-!
# Reading chunk after chunk

A receiver hands the packets of its packetizer on to its demultiplexer and keeps nothing
back. What some chunks bring is therefore decided by what the packetizer puts out for
all of them.
-/

namespace TransportStream

/-- Reads chunk after chunk. -/
def Packetizer.readAll (p : Packetizer) : List Bytes → Packetizer × List Output
  | [] => (p, [])
  | chunk :: chunks =>
    let (next, outputs) := p.read chunk
    let (last, later) := next.readAll chunks
    (last, outputs ++ later)

namespace Receiver

/-- Reads chunk after chunk. -/
def readAll (r : Receiver) : List Bytes → Receiver × List Event × List Notice
  | [] => (r, [], [])
  | chunk :: chunks =>
    let (next, events, notices) := r.read chunk
    let (last, laterEvents, laterNotices) := next.readAll chunks
    (last, events ++ laterEvents, notices ++ laterNotices)

/-- What was put out first is read first. -/
theorem readOutputs_append (d : Demuxer) (first later : List Packetizer.Output) :
    readOutputs d (first ++ later) =
      { demuxer := (readOutputs (readOutputs d first).demuxer later).demuxer
        events := (readOutputs d first).events ++
          (readOutputs (readOutputs d first).demuxer later).events
        notices := (readOutputs d first).notices ++
          (readOutputs (readOutputs d first).demuxer later).notices } := by
  induction first generalizing d with
  | nil => rfl
  | cons output first ih =>
    cases output with
    | packet bytes => simp only [List.cons_append, readOutputs, ih, List.append_assoc]
    | notice notice => simp only [List.cons_append, readOutputs, ih]

/-- Packets without a notice between them are read one after the other. -/
theorem readOutputs_map_packet (d : Demuxer) (inputs : List Bytes) :
    (readOutputs d (inputs.map .packet)).demuxer = d.readAll inputs ∧
      (readOutputs d (inputs.map .packet)).events =
        (d.steps inputs).map fun s => eventOf (s.before.read s.bytes) := by
  induction inputs generalizing d with
  | nil => exact ⟨rfl, rfl⟩
  | cons bytes inputs ih =>
    obtain ⟨hdemuxer, hevents⟩ := ih (d.read bytes).demuxer
    simp only [List.map_cons, readOutputs, hdemuxer, hevents]
    exact ⟨rfl, rfl⟩

/-- Reading chunk after chunk is cutting all of them into packets, and then reading what
was put out. -/
theorem readAll_eq (r : Receiver) (chunks : List Bytes) :
    r.readAll chunks =
      ({ packetizer := (r.packetizer.readAll chunks).1
         demuxer := (readOutputs r.demuxer (r.packetizer.readAll chunks).2).demuxer },
        (readOutputs r.demuxer (r.packetizer.readAll chunks).2).events,
        (readOutputs r.demuxer (r.packetizer.readAll chunks).2).notices) := by
  induction chunks generalizing r with
  | nil => rfl
  | cons chunk chunks ih =>
    simp only [readAll, ih, Packetizer.readAll, read, readOutputs_append]

end Receiver

end TransportStream
