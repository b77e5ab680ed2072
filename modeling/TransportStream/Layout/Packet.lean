import TransportStream.Layout.AdaptationField
import TransportStream.Packet

/-!
# The layout of packets
-/

namespace TransportStream.Packet

open Layout

/-- The first four bytes of a packet. -/
def headLayout (p : Packet) : Layout :=
  [.value 8 syncByte.toNat, flag false, flag p.unitStart, flag p.priority, .value 13 p.pid,
    .value 2 p.scrambling, .value 2 p.control, .value 4 p.counter]

/-- The layout of a packet up to its payload. -/
def upToPayload (stuffing : Nat) (p : Packet) : Layout :=
  p.headLayout ++ ofOption (AdaptationField.layout stuffing) p.adaptation

/-- The layout of the payload. Without one, the bytes up to the end of a packet may be
anything. -/
def fromPayload (stuffing : Nat) (p : Packet) : Layout :=
  match p.payload with
  | some payload => ofBytes payload
  | none => [.free (8 * packetSize - (p.upToPayload stuffing).size)]

/-- The layout of a packet. -/
def layout (stuffing : Nat) (p : Packet) : Layout :=
  p.upToPayload stuffing ++ p.fromPayload stuffing

/-- Whether a packet can be written: its numbers fit, and it has the size of a packet. -/
def Writable (stuffing : Nat) (p : Packet) : Prop :=
  p.headLayout.Fits ∧ (∀ a ∈ p.adaptation, a.Writable stuffing) ∧
    (p.layout stuffing).size = 8 * packetSize

end TransportStream.Packet
