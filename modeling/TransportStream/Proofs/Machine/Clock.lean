import TransportStream.Proofs.Clock.Times
import TransportStream.Proofs.Machine.Checked

/-!
# Clocks in a machine

Time stamps and the ticks of clock references are joined in 64 bits. Ticks are converted to a span
of time by a product of 128 bits, of whose quotient the lowest 64 bits are kept. No number of 64
bits makes that product too wide.
-/

namespace TransportStream.Machine

/-- Joins the three parts of a time stamp. -/
def joinTimestamp (high middle low : Nat) : Checked Nat := do
  let top ← shiftLeft 64 (high &&& 7) 30
  let between ← shiftLeft 64 (middle &&& 32767) 15
  return top ||| between ||| low &&& 32767

/-- Three parts of 3, 15 and 15 bits take 33 bits. -/
theorem joinTimestamp_eq (high middle low : Nat) :
    joinTimestamp high middle low = pure (timestamp high middle low) := by
  have hhigh : high &&& 7 = high % 8 := Nat.and_two_pow_sub_one_eq_mod high 3
  have hmiddle : middle &&& 32767 = middle % 32768 := Nat.and_two_pow_sub_one_eq_mod middle 15
  have hlow : low &&& 32767 = low % 32768 := Nat.and_two_pow_sub_one_eq_mod low 15
  have hhigh_lt := Nat.mod_lt high (by decide : 8 > 0)
  have hmiddle_lt := Nat.mod_lt middle (by decide : 32768 > 0)
  have hlow_lt := Nat.mod_lt low (by decide : 32768 > 0)
  have htop : (high % 8) <<< 30 = high % 8 * 2 ^ 30 := Nat.shiftLeft_eq _ _
  have hbetween : (middle % 32768) <<< 15 = middle % 32768 * 2 ^ 15 := Nat.shiftLeft_eq _ _
  have hrest : (middle % 32768) <<< 15 ||| low % 32768 =
      (middle % 32768) <<< 15 + low % 32768 :=
    (Nat.shiftLeft_add_eq_or_of_lt (b := low % 32768) (i := 15) (by omega) _).symm
  have hjoined : (high % 8) <<< 30 ||| ((middle % 32768) <<< 15 + low % 32768) =
      (high % 8) <<< 30 + ((middle % 32768) <<< 15 + low % 32768) :=
    (Nat.shiftLeft_add_eq_or_of_lt (i := 30) (by omega) _).symm
  rw [joinTimestamp, hhigh, hmiddle, hlow, shiftLeft_eq (by decide) (by omega), pure_bind,
    shiftLeft_eq (by decide) (by omega), pure_bind, Nat.or_assoc, hrest, hjoined, timestamp,
    Nat.add_assoc]

/-- Counts the ticks of a clock reference. -/
def clockTicks (clock : ClockReference) : Checked Nat := do
  let ticks ← mul 64 clock.base clockTicksPerTimestampTick
  add 64 ticks clock.extension

/-- The ticks are counted if all of them together have 64 bits. -/
theorem clockTicks_eq {clock : ClockReference} (h : clock.ticks < 2 ^ 64) :
    clockTicks clock = pure clock.ticks := by
  have hbase : clock.base * clockTicksPerTimestampTick < 2 ^ 64 :=
    Nat.lt_of_le_of_lt (Nat.le_add_right _ clock.extension) h
  rw [clockTicks, mul_eq hbase, pure_bind]
  exact add_eq h

/-- The fields of a clock reference leave room for its ticks. -/
theorem clockTicks_of_fields {clock : ClockReference} (hbase : clock.base < 2 ^ 33)
    (hextension : clock.extension < 2 ^ 9) : clockTicks clock = pure clock.ticks :=
  clockTicks_eq (Nat.lt_of_le_of_lt (ClockReference.ticks_le hbase hextension) (by decide))

/-- Converts ticks of some rate to a span of time. The conversion to 64 bits is not checked: it cuts
off the bits above. -/
def spanOfTicks (rate ticks : Nat) : Checked Duration := do
  let product ← mul 128 ticks nanosecondsPerSecond
  return .ofNanoseconds (product / rate % 2 ^ 64)

/-- As many ticks as fit 64 bits are converted without a fault, as their product has room in 128
bits. -/
theorem spanOfTicks_eq (rate : Nat) {ticks : Nat} (h : ticks < 2 ^ 64) :
    spanOfTicks rate ticks = pure (.ofTicks rate ticks) := by
  have hproduct : ticks * nanosecondsPerSecond < 2 ^ 128 := by
    unfold nanosecondsPerSecond
    omega
  rw [spanOfTicks, mul_eq hproduct, pure_bind]
  rfl

end TransportStream.Machine
