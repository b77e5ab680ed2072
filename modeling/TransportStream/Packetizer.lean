import TransportStream.Notice
import TransportStream.Packet

/-!
# From chunks of bytes to packets

A stream arrives in chunks that are cut anywhere. A packetizer cuts them into packets,
and holds the start of a packet until the rest of it arrives. Bytes are in sync if the
sync byte stands wherever a packet would begin in them. Where they are not, the
packetizer looks for the first place from which on they are.
-/

namespace TransportStream

/-- The start of a packet that waits for its other bytes. -/
structure Packetizer where
  /-- The bytes held. -/
  held : Bytes := []
  /-- Bytes are missing, or they would have been handed out as a packet. -/
  held_lt : held.length < packetSize := by decide
  /-- What is held starts as a packet does. -/
  held_sync : held = [] ∨ held.head? = some syncByte := by exact .inl rfl
  deriving DecidableEq, Repr

/-- Whether the sync byte stands at an offset. -/
def syncAt (bytes : Bytes) (offset : Nat) : Bool := bytes[offset]? == some syncByte

/-- Whether the sync byte begins the bytes and every further packet that fits into them. -/
def inSync (bytes : Bytes) : Bool :=
  syncAt bytes 0 &&
    (List.range (bytes.length / packetSize)).all fun i => syncAt bytes (i * packetSize)

/-- The least offset from which on bytes are in sync. Any but the first must leave room
for a whole packet. -/
def syncOffset? (bytes : Bytes) : Option Nat :=
  if inSync bytes then some 0
  else (List.range' 1 (bytes.length - packetSize)).find? fun offset => inSync (bytes.drop offset)

/-- The first `n` packets of some bytes. -/
def leadingPackets : Nat → Bytes → List Bytes
  | 0, _ => []
  | n + 1, bytes => bytes.take packetSize :: leadingPackets n (bytes.drop packetSize)

namespace Packetizer

/-- What a packetizer puts out. -/
inductive Output where
  /-- A packet. -/
  | packet (bytes : Bytes)
  /-- A notice. -/
  | notice (notice : Notice)
  deriving DecidableEq, Repr

/-- The packet that is put out, if it is one. -/
def Output.packet? : Output → Option Bytes
  | packet bytes => some bytes
  | notice _ => none

/-- The notice that is put out, if it is one. -/
def Output.notice? : Output → Option Notice
  | packet _ => none
  | notice n => some n

/-- Holds the bytes behind the last packet if they begin with the sync byte. -/
def holdTail (tail : Bytes) (h : tail.length < packetSize) : Packetizer × List Output :=
  if hsync : tail = [] ∨ tail.head? = some syncByte then
    ({ held := tail, held_lt := h, held_sync := hsync }, [])
  else ({}, [.notice (.strayTail tail.length)])

/-- Cuts bytes that are in sync into packets, while nothing is held. -/
def readAligned (bytes : Bytes) : Packetizer × List Output :=
  let count := bytes.length / packetSize
  let (next, outputs) := holdTail (bytes.drop (count * packetSize)) <| by
    rw [List.length_drop, Nat.mul_comm, ← Nat.mod_eq_sub_mul_div]
    exact Nat.mod_lt _ (by decide)
  (next, (leadingPackets count bytes).map .packet ++ outputs)

/-- Cuts bytes into packets from the first place from which on they are in sync, while
nothing is held. -/
def readWindow (bytes : Bytes) : Packetizer × List Output :=
  match syncOffset? bytes with
  | none => ({}, [.notice (.noSyncPoint bytes.length)])
  | some 0 => readAligned bytes
  | some offset =>
    let (next, outputs) := readAligned (bytes.drop offset)
    (next, .notice (.resynchronized offset) :: outputs)

/-- The number of bytes that the held start of a packet lacks. -/
def missing (p : Packetizer) : Nat := packetSize - p.held.length

/-- Reads a chunk while the start of a packet is held. The chunk completes the packet if
it ends right behind it, or is in sync from there on. If it is not, the held bytes are
dropped and the chunk is read by itself. -/
def complete (p : Packetizer) (hheld : p.held.head? = some syncByte) (chunk : Bytes) :
    Packetizer × List Output :=
  let rest := chunk.drop p.missing
  if h : chunk.length < p.missing then
    ({ held := p.held ++ chunk
       held_lt := by simp only [List.length_append, missing] at *; omega
       held_sync := by simp [hheld] }, [])
  else if rest = [] then ({}, [.packet (p.held ++ chunk)])
  else if inSync rest then
    let (next, outputs) := readAligned rest
    (next, .packet (p.held ++ chunk.take p.missing) :: outputs)
  else
    let (next, outputs) := readWindow chunk
    (next, .notice (.brokenPacket p.held.length) :: outputs)

/-- Reads the next chunk of the stream. -/
def read (p : Packetizer) (chunk : Bytes) : Packetizer × List Output :=
  if chunk = [] then (p, [])
  else if hheld : p.held.head? = some syncByte then p.complete hheld chunk
  else readWindow chunk

/-- Drops the held bytes. -/
def reset (_ : Packetizer) : Packetizer := {}

end Packetizer

end TransportStream
