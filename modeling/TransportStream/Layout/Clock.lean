import TransportStream.Clock
import TransportStream.Layout.Basic

/-!
# Layouts of time stamps and clock references
-/

namespace TransportStream.Layout

/-- A time stamp in three parts with a marker bit behind each. -/
def ofTimestamp (t : Nat) : Layout :=
  [.value 3 (t / 2 ^ 30), .free 1, .value 15 (t / 2 ^ 15 % 2 ^ 15), .free 1,
    .value 15 (t % 2 ^ 15), .free 1]

/-- A program clock reference. -/
def ofProgramClock (clock : ClockReference) : Layout :=
  [.value 33 clock.base, .free 6, .value 9 clock.extension]

/-- The clock reference of an elementary stream. -/
def ofStreamClock (clock : ClockReference) : Layout :=
  .free 2 :: ofTimestamp clock.base ++ [.value 9 clock.extension, .free 1]

end TransportStream.Layout
