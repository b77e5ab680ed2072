import TransportStream.AdaptationField

/-!
# Packets

A transport stream is a sequence of packets of one size. Each begins with the sync byte
and belongs to the stream that its packet identifier, its PID, names. Behind its head of
four bytes there may be an adaptation field, and behind that a payload up to the end.
-/

namespace TransportStream

/-- The number of bytes in a packet. -/
def packetSize : Nat := 188

/-- The first byte of every packet. -/
def syncByte : UInt8 := 0x47

/-- The PID of the program association table. -/
def associationPid : Nat := 0

/-- The PID of packets that only fill the stream. -/
def nullPid : Nat := 0x1fff

/-- A packet. -/
structure Packet where
  /-- Whether a table or a PES unit starts in the payload. -/
  unitStart : Bool
  /-- Whether the packet takes precedence among those of its PID. -/
  priority : Bool
  /-- The PID. -/
  pid : Nat
  /-- How the payload is scrambled, zero if it is not. -/
  scrambling : Nat
  /-- The counter of the packets with this PID, modulo 16. -/
  counter : Nat
  /-- The adaptation field, if there is one. -/
  adaptation : Option AdaptationField
  /-- The payload, if there is one. It may have no bytes. -/
  payload : Option Bytes
  deriving DecidableEq, Repr

namespace Packet

/-- Whether a packet only fills the stream. -/
def isNull (packet : Packet) : Bool := packet.pid == nullPid

/-- The two bits that announce an adaptation field and a payload. -/
def control (packet : Packet) : Nat :=
  2 * packet.adaptation.isSome.toNat + packet.payload.isSome.toNat

/-- Reads a packet, of which the payload reaches to the end of the bytes. -/
def decoder : Decoder Packet := do
  let sync ← Decoder.u8
  if sync ≠ syncByte.toNat then throw (.invalidSyncByte sync)
  let head ← Decoder.fields [1, 1, 1, 13, 2, 2, 4]
  if head.flag 0 then throw .transportError
  let adaptation ← Decoder.ifFlag ((head.get 5).testBit 1) AdaptationField.decoder
  let payload ← Decoder.ifFlag ((head.get 5).testBit 0) Decoder.rest
  return {
    unitStart := head.flag 1
    priority := head.flag 2
    pid := head.get 3
    scrambling := head.get 4
    counter := head.get 6
    adaptation
    payload }

/-- Decodes a packet, which must have the size of one. -/
def decode (bytes : Bytes) : Except DecodeError Packet :=
  if bytes.length = packetSize then decoder.decode bytes
  else .error (.invalidPacketSize bytes.length)

end Packet

end TransportStream
