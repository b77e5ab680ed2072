import TransportStream.Demuxer
import TransportStream.Proofs.Layout.Packet
import TransportStream.Proofs.Layout.Tables
import TransportStream.Proofs.Reassembly.Cutting

/-!
# What a multiplexer sends

A multiplex begins with the program association table. It goes on with program map tables
and with the pieces of PES units, in any order, except that a stream has no packet before a
map table has listed it. In between there may be packets that say nothing.
-/

namespace TransportStream

/-- A packet with the bytes that are sent for it. -/
structure WrittenPacket where
  /-- The packet. -/
  packet : Packet
  /-- How many bytes of stuffing the extension of its adaptation field has. -/
  stuffing : Nat
  /-- The bytes of the packet. -/
  bytes : Bytes
  /-- The parts of the packet have values that it has room for. -/
  writable : packet.Writable stuffing
  /-- The bytes are the packet written out, with any values in the bits that mean nothing. -/
  writes : (packet.layout stuffing).Writes bytes

/-- The tables of a multiplex. -/
structure Programs where
  /-- The program association table. -/
  association : ProgramAssociation
  /-- The program map table on each PID, if there is one. -/
  maps : Nat → Option ProgramMap

namespace Programs

/-- The PIDs that are announced for program map tables. -/
def mapPids (programs : Programs) : List Nat := programs.association.programPids

/-- The PIDs of the elementary streams that the program map tables list. -/
def streamPids (programs : Programs) : List Nat :=
  programs.mapPids.flatMap fun pid => (programs.maps pid).elim [] fun table =>
    table.streams.map (·.pid)

/-- A packet with the map table of its PID. -/
structure Maps (programs : Programs) (packet : Packet) (table : ProgramMap) : Prop where
  /-- The association table announces a program on the PID. -/
  announced : packet.pid ∈ programs.mapPids
  /-- The program has the map table. -/
  map_eq : programs.maps packet.pid = some table
  /-- A section starts in the packet. -/
  starts : packet.unitStart = true
  /-- The payload points to where the map table is written out. -/
  points : ∃ payload, packet.payload = some payload ∧ Section.PointedAt payload table.layout

/-- What packet may be sent behind some others. -/
inductive MaySend (programs : Programs) (before : List WrittenPacket) (packet : Packet) : Prop
  /-- The program association table, which must come first. -/
  | association (payload : Bytes) (hpid : packet.pid = associationPid)
      (hstart : packet.unitStart = true) (hpayload : packet.payload = some payload)
      (hpoints : Section.PointedAt payload programs.association.layout)
  /-- A program map table. -/
  | map (hbefore : before ≠ []) (table : ProgramMap) (hmaps : programs.Maps packet table)
  /-- A piece of an elementary stream that a map table has listed. -/
  | piece (other : WrittenPacket) (hother : other ∈ before) (table : ProgramMap)
      (hmaps : programs.Maps other.packet table)
      (hlisted : packet.pid ∈ table.streams.map (·.pid))
  /-- A packet without a payload on any PID. -/
  | noPayload (hbefore : before ≠ []) (hpayload : packet.payload = none)
  /-- A packet on the PID of a table in which no section starts. -/
  | noSection (hbefore : before ≠ [])
      (hpid : packet.pid = associationPid ∨ packet.pid ∈ programs.mapPids)
      (hstart : packet.unitStart = false)
  /-- A packet on a PID that no table names. -/
  | foreign (hbefore : before ≠ []) (hassociation : packet.pid ≠ associationPid)
      (hmap : packet.pid ∉ programs.mapPids) (hstream : packet.pid ∉ programs.streamPids)

end Programs

/-- The tables of a multiplex and the units of its elementary streams. -/
structure Multiplex extends Programs where
  /-- The units of each elementary stream, each cut into pieces. -/
  units : Nat → List (List Bytes)
  /-- The number of the first packet of each elementary stream. -/
  firstCounter : Nat → Nat
  /-- The association table is marked as one. -/
  association_id : association.head.tableId = associationTableId
  /-- The association table has values that it has room for. -/
  association_fits : association.layout.Fits
  /-- The map tables are marked as such. -/
  map_id : ∀ pid table, maps pid = some table → table.head.tableId = mapTableId
  /-- The map tables have values that they have room for. -/
  map_fits : ∀ pid table, maps pid = some table → table.layout.Fits
  /-- No program is announced on the PID of the association table, of null packets or of an
  elementary stream. -/
  mapPids_separate : ∀ pid ∈ toPrograms.mapPids,
    pid ≠ associationPid ∧ pid ≠ nullPid ∧ pid ∉ toPrograms.streamPids
  /-- No elementary stream is listed on the PID of the association table or of null packets. -/
  streamPids_separate : ∀ pid ∈ toPrograms.streamPids, pid ≠ associationPid ∧ pid ≠ nullPid
  /-- Each unit has a piece. -/
  pieces_ne_nil : ∀ pid, ∀ pieces ∈ units pid, pieces ≠ []

namespace Multiplex

/-- The bytes of the units of an elementary stream. -/
def unitBytes (m : Multiplex) (pid : Nat) : List Bytes := (m.units pid).map List.flatten

/-- The fragments on a PID in some packets. -/
def fragmentsIn (pid : Nat) (packets : List WrittenPacket) : List Fragment :=
  (packets.filterMap (·.packet.fragment?)).filter (·.pid == pid)

/-- Packets are those of a multiplex: each may be sent where it stands, and those of each
elementary stream have the pieces of its units, with counters that rise by one modulo 16. -/
structure Sends (m : Multiplex) (packets : List WrittenPacket) : Prop where
  /-- Each packet may be sent behind those in front of it. -/
  allowed : ∀ before sent after, packets = before ++ sent :: after →
    m.MaySend before sent.packet
  /-- The fragments on an elementary stream are the pieces of its units, in turn. -/
  pieces : ∀ pid ∈ m.streamPids,
    fragmentsIn pid packets = cut pid (m.firstCounter pid) (m.units pid)

/-- What holds wherever a list is split holds at its head and wherever its tail is split. -/
theorem forall_split_cons_iff {α : Type} {P : List α → α → Prop} {a : α} {l : List α} :
    (∀ before x after, a :: l = before ++ x :: after → P before x) ↔
      P [] a ∧ ∀ before x after, l = before ++ x :: after → P (a :: before) x := by
  constructor
  · intro h
    exact ⟨h [] a l rfl, fun before x after hl => h (a :: before) x after (by simp [hl])⟩
  · rintro ⟨hhead, htail⟩ before x after hl
    cases before with
    | nil =>
      cases hl
      exact hhead
    | cons b before =>
      cases hl
      exact htail before x after rfl

/-- The unit that a packet should make pending: where a unit begins on an elementary stream,
it is the one before, if that is small enough. -/
def due (m : Multiplex) (bound : Nat) (before : List WrittenPacket) (packet : Packet) :
    Option PendingUnit :=
  if packet.pid ∈ m.streamPids ∧ packet.payload.isSome ∧ packet.unitStart then
    ((unitsOf (fragmentsIn packet.pid before)).getLast?.filter (·.length ≤ bound)).map
      (⟨packet.pid, ·⟩)
  else none

/-- Packets on the null PID may be sent anywhere but at first. -/
theorem maySend_null (m : Multiplex) {before : List WrittenPacket} (hbefore : before ≠ [])
    {packet : Packet} (hpid : packet.pid = nullPid) : m.MaySend before packet := by
  refine .foreign hbefore ?_ ?_ ?_
  · rw [hpid]
    decide
  · intro hmem
    exact (m.mapPids_separate _ hmem).2.1 hpid
  · intro hmem
    exact (m.streamPids_separate _ hmem).2 hpid

end Multiplex

end TransportStream
