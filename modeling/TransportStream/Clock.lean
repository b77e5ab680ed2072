/-!
# Clocks and counters

Time stamps count ticks of 90 kHz, clock references ticks of 27 MHz, of which 300 make
one tick of the former. Continuity counters count packets modulo 16.
-/

namespace TransportStream

/-- Ticks per second of a time stamp. -/
def timestampRate : Nat := 90000

/-- Ticks per second of a clock reference. -/
def clockRate : Nat := 27000000

/-- Ticks of a clock reference in one tick of a time stamp. -/
def clockTicksPerTimestampTick : Nat := clockRate / timestampRate

/-- Joins the three parts in which a 33-bit time stamp is written. Of each part only the
lowest 3, 15 and 15 bits count. -/
def timestamp (high middle low : Nat) : Nat :=
  (high % 8) <<< 30 + (middle % 32768) <<< 15 + low % 32768

/-- A clock reference as it is written: a time stamp and further ticks of 27 MHz. -/
structure ClockReference where
  /-- Ticks of 90 kHz. -/
  base : Nat
  /-- Further ticks of 27 MHz. There may be more of them than one tick of 90 kHz has. -/
  extension : Nat
  deriving DecidableEq, Repr

/-- All ticks of 27 MHz of a clock reference. -/
def ClockReference.ticks (clock : ClockReference) : Nat :=
  clock.base * clockTicksPerTimestampTick + clock.extension

/-- The continuity counter after a given one. -/
def nextCounter (counter : Nat) : Nat := (counter + 1) % 16

/-- How many packets, modulo 16, are missing where one continuity counter was expected
and another one found. -/
def continuityLoss (expected actual : Nat) : Nat := (actual + 16 - expected) % 16

/-- A span of time in whole seconds and the nanoseconds behind them. -/
structure Duration where
  /-- Whole seconds. -/
  seconds : Nat
  /-- Nanoseconds behind the whole seconds. -/
  nanoseconds : Nat
  deriving DecidableEq, Repr

/-- Nanoseconds in a second. -/
def nanosecondsPerSecond : Nat := 1000000000

/-- A number of nanoseconds as a span of time. -/
def Duration.ofNanoseconds (n : Nat) : Duration :=
  ⟨n / nanosecondsPerSecond, n % nanosecondsPerSecond⟩

/-- The span of a number of ticks at a given rate, rounded down to nanoseconds. The
nanoseconds are kept in 64 bits. -/
def Duration.ofTicks (rate ticks : Nat) : Duration :=
  .ofNanoseconds (ticks * nanosecondsPerSecond / rate % UInt64.size)

/-- The span of a time stamp. -/
def timestampDuration (ticks : Nat) : Duration := .ofTicks timestampRate ticks

/-- The span of a clock reference. -/
def clockDuration (ticks : Nat) : Duration := .ofTicks clockRate ticks

end TransportStream
