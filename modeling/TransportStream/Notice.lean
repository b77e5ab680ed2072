import TransportStream.StreamType
import TransportStream.Text.Hex

/-!
# Notices

Demultiplexing goes on through most irregularities, and gives notice of them instead of
stopping. Some notices tell of the regular course of things. The wording lives in
`Notice.message` alone.
-/

namespace TransportStream

/-- How much a notice matters. -/
inductive Level where
  /-- Content was lost. -/
  | warn
  /-- Something irregular, or a change of the tables. -/
  | debug
  /-- The regular course of things. -/
  | trace
  deriving DecidableEq, Repr

/-- What is worth noting while a stream is demultiplexed. -/
inductive Notice where
  /-- Packets begin this far into the bytes. -/
  | resynchronized (offset : Nat)
  /-- No packet begins in the bytes, which are dropped. -/
  | noSyncPoint (dropped : Nat)
  /-- The bytes behind the last packet begin no packet, and are dropped. -/
  | strayTail (dropped : Nat)
  /-- The held start of a packet is not followed by another packet, and is dropped. -/
  | brokenPacket (dropped : Nat)
  /-- A continuity counter jumped, and the open unit of the PID is dropped. -/
  | packetsLost (pid counter expected lost dropped : Nat)
  /-- A unit is complete. -/
  | unitComplete (pid size : Nat)
  /-- A payload belongs to no unit and is skipped. -/
  | payloadSkipped (pid : Nat)
  /-- A unit would exceed the bound on its size, and is dropped. -/
  | unitTooLarge (pid bound : Nat)
  /-- No section of a table starts in a packet. -/
  | noSectionStart (pid : Nat)
  /-- A section belongs to another kind of table and is skipped. -/
  | otherTable (pid found expected : Nat)
  /-- A program association table was read. -/
  | associationRead (transportStream version entries : Nat)
  /-- A program association table names a new PID of a program. -/
  | programAnnounced (pid : Nat)
  /-- A program map table was read. -/
  | programMapRead (program pcrPid streams : Nat)
  /-- A program map table lists an elementary stream. -/
  | streamListed (mapPid pid : Nat) (type : StreamType)
  deriving DecidableEq, Repr

namespace Notice

/-- How much a notice matters. -/
def level : Notice → Level
  | packetsLost .. | unitTooLarge .. => .warn
  | noSyncPoint .. | strayTail .. | brokenPacket .. | otherTable .. | programAnnounced ..
  | streamListed .. => .debug
  | resynchronized .. | unitComplete .. | payloadSkipped .. | noSectionStart ..
  | associationRead .. | programMapRead .. => .trace

/-- The text of a notice. -/
def message : Notice → String
  | resynchronized offset => s!"resynchronized at offset {offset}"
  | noSyncPoint dropped => s!"no sync point found, dropping {dropped} bytes"
  | strayTail dropped => s!"dropping {dropped} byte partial packet without sync byte"
  | brokenPacket dropped =>
    s!"lost sync completing a partial packet, dropping {dropped} buffered bytes"
  | packetsLost pid counter expected lost dropped =>
    s!"PID {hex 1 pid}: continuity counter {counter} where {expected} was expected, " ++
      s!"{lost} packets lost, dropping {dropped} buffered bytes"
  | unitComplete pid size => s!"PID {hex 1 pid}: PES unit of {size} bytes complete"
  | payloadSkipped pid => s!"PID {hex 1 pid}: no PES unit started, skipping payload"
  | unitTooLarge pid bound => s!"PID {hex 1 pid}: PES unit exceeds {bound} bytes, dropping it"
  | noSectionStart pid => s!"PID {hex 1 pid}: ignoring packet without a section start"
  | otherTable pid found expected =>
    s!"PID {hex 1 pid}: skipping section with table_id {hex 2 found}, expected {hex 2 expected}"
  | associationRead transportStream version entries =>
    s!"PAT ts_id={transportStream} version={version} with {entries} entries"
  | programAnnounced pid => s!"PAT announces program on PID {hex 1 pid}"
  | programMapRead program pcrPid streams =>
    s!"PMT program={program} pcr_pid={pcrPid} with {streams} streams"
  | streamListed mapPid pid type =>
    s!"PMT on PID {hex 1 mapPid}: stream on PID {hex 1 pid} is {type.description}"

end Notice

end TransportStream
