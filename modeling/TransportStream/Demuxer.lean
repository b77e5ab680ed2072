import TransportStream.Config
import TransportStream.Pes
import TransportStream.Reassembly
import TransportStream.Tables

/-!
# Demultiplexing

A demultiplexer takes a stream packet by packet. It learns from the tables which PIDs
carry elementary streams, and puts together the PES units of those. A unit that a packet
completes is pending until the next packet is read.
-/

namespace TransportStream

/-- A complete PES unit. -/
structure PendingUnit where
  /-- The PID that carried the unit. -/
  pid : Nat
  /-- The bytes of the unit. -/
  bytes : Bytes
  deriving DecidableEq, Repr

/-- What a demultiplexer knows of the stream so far. -/
structure Demuxer where
  /-- How the demultiplexer works. -/
  config : Config := {}
  /-- The tables of the stream. -/
  tables : Tables := {}
  /-- The open units by their PIDs. -/
  units : Std.ExtTreeMap Nat OpenUnit := ∅
  /-- The unit that the last packet completed. -/
  pending : Option PendingUnit := none
  /-- How many open units were dropped because packets were lost. -/
  lossCount : Nat := 0
  /-- How many open units were dropped because of their size. -/
  oversizeCount : Nat := 0

/-- What the pending unit was asked for while there was none. -/
inductive MissingUnit where
  /-- Its bytes. -/
  | bytes
  /-- Its PID. -/
  | pid
  deriving DecidableEq, Repr

/-- The text that reports a missing unit. -/
def MissingUnit.message : MissingUnit → String
  | bytes => "pes_data called without a pending PES unit"
  | pid => "pes_pid called without a pending PES unit"

namespace Demuxer

/-- What reading a packet leads to. -/
structure Reading where
  /-- The demultiplexer afterwards. -/
  demuxer : Demuxer
  /-- Whether the packet could be decoded. -/
  result : Except DecodeError Unit := .ok ()
  /-- What there is to note. -/
  notices : List Notice := []

/-- Takes over what a payload did to the units of its PID. -/
def withReassembly (d : Demuxer) (pid : Nat) (r : Reassembly) : Demuxer :=
  { d with
    units := match r.openUnit with
      | some unit => d.units.insert pid unit
      | none => d.units.erase pid
    pending := r.completed.map (⟨pid, ·⟩)
    lossCount := d.lossCount + if r.dropped = some .packetsLost then 1 else 0
    oversizeCount := d.oversizeCount + if r.dropped = some .tooLarge then 1 else 0 }

/-- Reads a payload, for the units of its PID if that carries an elementary stream, and
for the tables otherwise. -/
def readPayload (d : Demuxer) (packet : Packet) (payload : Bytes) : Reading :=
  if d.tables.hasStream packet.pid then
    let r := Reassembly.ofPayload d.config.maxUnitSize packet.pid packet.unitStart packet.counter
      payload d.units[packet.pid]?
    { demuxer := d.withReassembly packet.pid r, notices := r.notices }
  else
    let update := d.tables.read packet.pid packet.unitStart payload
    { demuxer := { d with tables := update.tables }, result := update.result,
      notices := update.notices }

/-- Reads the next packet. The pending unit is gone whatever the packet is. -/
def read (d : Demuxer) (bytes : Bytes) : Reading :=
  let d := { d with pending := none }
  match Packet.decode bytes with
  | .error e => { demuxer := d, result := .error e }
  | .ok packet =>
    match packet.payload with
    | none => { demuxer := d }
    | some payload => d.readPayload packet payload

/-- Hands out the pending unit, which is not pending any more. -/
def take (d : Demuxer) : Option PendingUnit × Demuxer := (d.pending, { d with pending := none })

/-- The bytes of the pending unit. -/
def pendingBytes (d : Demuxer) : Except MissingUnit Bytes :=
  match d.pending with
  | some unit => .ok unit.bytes
  | none => .error .bytes

/-- The PID of the pending unit. -/
def pendingPid (d : Demuxer) : Except MissingUnit Nat :=
  match d.pending with
  | some unit => .ok unit.pid
  | none => .error .pid

/-- Decodes the pending unit, if there is one. -/
def decodePending (d : Demuxer) : Option (Except DecodeError PesUnit) :=
  d.pending.map fun unit => PesUnit.decode d.config.strictLength unit.bytes

/-- Forgets all tables and units. The counts of dropped units stay. -/
def reset (d : Demuxer) : Demuxer := { d with tables := {}, units := ∅, pending := none }

end Demuxer

end TransportStream
