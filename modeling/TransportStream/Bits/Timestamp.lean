import TransportStream.Bits.Decoder
import TransportStream.Clock

/-!
# Time stamps between marker bits

Time stamps are written in three parts with a marker bit behind each. The marker bits
are not checked.
-/

namespace TransportStream.Decoder

/-- Reads four bits and the time stamp behind them. -/
def nibbleAndTimestamp : Decoder (Nat × Nat) := do
  let f ← fields [4, 3, 1, 15, 1, 15, 1]
  return (f.get 0, timestamp (f.get 1) (f.get 3) (f.get 5))

/-- Reads a program clock reference, written in 33 and 9 bits with six reserved bits between
them. -/
def programClock : Decoder ClockReference := do
  let f ← fields [33, 6, 9]
  return ⟨f.get 0, f.get 2⟩

/-- Reads the clock reference of an elementary stream, written as a time stamp and 9 bits. -/
def streamClock : Decoder ClockReference := do
  let f ← fields [2, 3, 1, 15, 1, 15, 1, 9, 1]
  return ⟨timestamp (f.get 1) (f.get 3) (f.get 5), f.get 7⟩

end TransportStream.Decoder
