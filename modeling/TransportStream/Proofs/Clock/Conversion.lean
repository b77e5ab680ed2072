import TransportStream.Proofs.Machine.Clock

/-!
# From ticks to time

Ticks are converted to the whole nanoseconds that they take, as long as these have 64 bits. All
times that are decoded are far below that bound. One tick of a time stamp is a whole number of ticks
of a clock reference. So a clock reference without an extension takes exactly as long as the time
stamp that is its base, although both of them are rounded.
-/

namespace TransportStream.Duration

variable {d e : Duration} {rate ticks earlier later : Nat}

/-- The nanoseconds of a span, with those in its seconds. -/
def toNanoseconds (d : Duration) : Nat := d.seconds * 10 ^ 9 + d.nanoseconds

/-- Spans are compared by their seconds, and by their nanoseconds where these agree. -/
instance : LE Duration where
  le d e := d.seconds < e.seconds ∨ d.seconds = e.seconds ∧ d.nanoseconds ≤ e.nanoseconds

/-- How a conversion of ticks at some rate has to behave. -/
structure ConvertsExactly (rate : Nat) (duration : Nat → Duration) : Prop where
  /-- Ticks of 64 bits are converted without any result that is too wide on the way. -/
  computes : ∀ ticks < 2 ^ 64, Machine.spanOfTicks rate ticks = pure (duration ticks)
  /-- The nanoseconds behind the seconds make up less than one second. -/
  nanoseconds_lt : ∀ ticks, (duration ticks).nanoseconds < 10 ^ 9
  /-- The span has all whole nanoseconds that the ticks take, exactly if these have 64 bits. -/
  toNanoseconds_eq_iff : ∀ ticks, (duration ticks).toNanoseconds = ticks * 10 ^ 9 / rate ↔
    ticks * 10 ^ 9 / rate < 2 ^ 64
  /-- More ticks never take less time there. -/
  mono : ∀ earlier later, earlier ≤ later → later * 10 ^ 9 / rate < 2 ^ 64 →
    duration earlier ≤ duration later

/-- The nanoseconds behind the seconds never decide against the seconds. -/
theorem le_iff (hd : d.nanoseconds < 10 ^ 9) (he : e.nanoseconds < 10 ^ 9) :
    d ≤ e ↔ d.toNanoseconds ≤ e.toNanoseconds := by
  have hle : d ≤ e ↔
      d.seconds < e.seconds ∨ d.seconds = e.seconds ∧ d.nanoseconds ≤ e.nanoseconds := .rfl
  rw [hle, toNanoseconds, toNanoseconds]
  omega

/-- The nanoseconds beside whole seconds make up no second. -/
theorem nanoseconds_ofNanoseconds_lt (n : Nat) : (ofNanoseconds n).nanoseconds < 10 ^ 9 :=
  Nat.mod_lt n (by decide)

/-- A span of so many nanoseconds has so many. -/
theorem toNanoseconds_ofNanoseconds (n : Nat) : (ofNanoseconds n).toNanoseconds = n :=
  Nat.div_add_mod' n (10 ^ 9)

/-- The nanoseconds beside whole seconds make up no second, at any rate. -/
theorem nanoseconds_ofTicks_lt (rate ticks : Nat) : (ofTicks rate ticks).nanoseconds < 10 ^ 9 :=
  nanoseconds_ofNanoseconds_lt _

/-- Of the nanoseconds that ticks take, a span keeps the lowest 64 bits. -/
theorem toNanoseconds_ofTicks (rate ticks : Nat) :
    (ofTicks rate ticks).toNanoseconds = ticks * 10 ^ 9 / rate % 2 ^ 64 :=
  toNanoseconds_ofNanoseconds _

/-- Nothing is cut off the earlier ticks if nothing is cut off the later ones. -/
theorem ofTicks_le_ofTicks (hle : earlier ≤ later) (hlater : later * 10 ^ 9 / rate < 2 ^ 64) :
    ofTicks rate earlier ≤ ofTicks rate later := by
  have hnanoseconds : earlier * 10 ^ 9 / rate ≤ later * 10 ^ 9 / rate :=
    Nat.div_le_div_right (Nat.mul_le_mul_right _ hle)
  rwa [le_iff (nanoseconds_ofTicks_lt _ _) (nanoseconds_ofTicks_lt _ _), toNanoseconds_ofTicks,
    toNanoseconds_ofTicks, Nat.mod_eq_of_lt (Nat.lt_of_le_of_lt hnanoseconds hlater),
    Nat.mod_eq_of_lt hlater]

/-- Whatever the rate is, ticks are converted exactly. -/
theorem convertsExactly_ofTicks (rate : Nat) : ConvertsExactly rate (ofTicks rate) := by
  constructor
  · intro ticks hticks
    exact Machine.spanOfTicks_eq rate hticks
  · exact nanoseconds_ofTicks_lt rate
  · intro ticks
    rw [toNanoseconds_ofTicks]
    exact Nat.mod_eq_iff_lt (by decide)
  · intro earlier later hle hlater
    exact ofTicks_le_ofTicks hle hlater

/-- Where each tick is divided into some finer ones, these take the same time together. Nothing gets
lost, as the rounding comes after the division by the rate. -/
theorem ofTicks_mul {factor : Nat} (hfactor : 0 < factor) (rate ticks : Nat) :
    ofTicks (factor * rate) (factor * ticks) = ofTicks rate ticks := by
  rw [ofTicks, ofTicks, Nat.mul_assoc, Nat.mul_div_mul_left _ _ hfactor]

/-- A clock reference without an extension takes as long as its base. -/
theorem clockDuration_of_base (base : Nat) :
    clockDuration (ClockReference.ticks ⟨base, 0⟩) = timestampDuration base := by
  have hrate : clockRate = 300 * timestampRate := by rfl
  rw [ClockReference.ticks_eq, Nat.add_zero, clockDuration, timestampDuration, hrate]
  exact ofTicks_mul (by decide) timestampRate base

/-- Ticks of 90 kHz and of 27 MHz are converted to spans of time exactly and in their order, as long
as the nanoseconds have 64 bits. The times of all units and adaptation fields that can be decoded
are within that range. Both conversions agree where a clock reference is a time stamp. -/
theorem ticks_are_converted_exactly :
    ConvertsExactly 90000 timestampDuration ∧ ConvertsExactly 27000000 clockDuration ∧
      (∀ ticks < 2 ^ 33, ticks * 10 ^ 9 / 90000 < 2 ^ 64) ∧
      (∀ ticks ≤ 300 * (2 ^ 33 - 1) + 511, ticks * 10 ^ 9 / 27000000 < 2 ^ 64) ∧
      (∀ strictLength bytes unit, PesUnit.decode strictLength bytes = .ok unit →
        ∀ header ∈ unit.header, header.TimesInRange) ∧
      (∀ r field r', AdaptationField.decoder r = .ok field r' → field.TimesInRange) ∧
      ∀ base, 300 * base < 2 ^ 64 →
        Machine.clockTicks ⟨base, 0⟩ = pure (300 * base) ∧
          ClockReference.ticks ⟨base, 0⟩ = 300 * base ∧
          clockDuration (ClockReference.ticks ⟨base, 0⟩) = timestampDuration base := by
  refine ⟨convertsExactly_ofTicks 90000, convertsExactly_ofTicks 27000000, ?_, ?_, ?_, ?_, ?_⟩
  · intro ticks hticks
    omega
  · intro ticks hticks
    omega
  · intro strictLength bytes unit hdecode
    exact (PesUnit.gives_decoder strictLength).of_decode hdecode
  · exact AdaptationField.gives_decoder
  · intro base hbase
    have hticks : ClockReference.ticks ⟨base, 0⟩ = 300 * base := ClockReference.ticks_eq _
    have hcounted : Machine.clockTicks ⟨base, 0⟩ = pure (300 * base) := by
      rw [Machine.clockTicks_eq (by rwa [hticks]), hticks]
    exact ⟨hcounted, hticks, clockDuration_of_base base⟩

/-- All bits are set in the time of presentation, in both clock references and in the time behind
the splice. -/
theorem ticks_are_converted_exactly_latest_times :
    let header : PesHeader :=
      { scrambling := 0, priority := false, aligned := false, copyright := false,
        uncopied := false, extended := false, length := 16, pts := some 8589934591,
        dts := some 4294967296, escr := some ⟨8589934591, 511⟩, rate := none, trickMode := none,
        copyInfo := none, previousCrc := none }
    let field : AdaptationField :=
      { length := 14, pcr := some ⟨8589934591, 511⟩,
        extension := some ⟨none, none, some ⟨15, 8589934591⟩⟩ }
    PesUnit.decode false [0, 0, 1, 0xe0, 0, 0, 0x80, 0xe0, 16, 0x3f, 0xff, 0xff, 0xff, 0xff, 0x19, 0,
        1, 0, 1, 0xff, 0xff, 0xff, 0xff, 0xff, 0xff] = .ok ⟨⟨0xe0⟩, 0, some header, []⟩ ∧
      AdaptationField.decoder (.ofBytes [14, 0x11, 0xff, 0xff, 0xff, 0xff, 0xff, 0xff, 6, 0x20, 0xff,
        0xff, 0xff, 0xff, 0xff]) = .ok field (.ofBytes []) ∧
      Machine.spanOfTicks 90000 8589934591 = pure (timestampDuration 8589934591) ∧
      (timestampDuration 8589934591).toNanoseconds = 95443717677777 ∧
      (clockDuration 2576980377811).toNanoseconds = 95443717696703 ∧
      timestampDuration 4294967296 ≤ timestampDuration 8589934591 ∧
      clockDuration 2576980377300 = timestampDuration 8589934591 := by
  intro header field
  have hunit : PesUnit.decode false [0, 0, 1, 0xe0, 0, 0, 0x80, 0xe0, 16, 0x3f, 0xff, 0xff, 0xff,
      0xff, 0x19, 0, 1, 0, 1, 0xff, 0xff, 0xff, 0xff, 0xff, 0xff] =
        .ok ⟨⟨0xe0⟩, 0, some header, []⟩ := by
    decide +kernel
  have hfield : AdaptationField.decoder (.ofBytes [14, 0x11, 0xff, 0xff, 0xff, 0xff, 0xff, 0xff, 6,
      0x20, 0xff, 0xff, 0xff, 0xff, 0xff]) = .ok field (.ofBytes []) := by
    rfl
  obtain ⟨hstamp, hclock, hstampRange, hclockRange, hheaders, hfields, hagree⟩ :=
    ticks_are_converted_exactly
  have hpts := (hheaders _ _ _ hunit header rfl).pts 8589934591 rfl
  have hpcr := (hfields _ _ _ hfield).pcr ⟨8589934591, 511⟩ rfl
  have hspliced := (hfields _ _ _ hfield).nextDecodingTime _ rfl _ rfl
  refine ⟨hunit, hfield, ?_, ?_, ?_, ?_, ?_⟩
  · exact hstamp.computes _ (by decide)
  · exact (hstamp.toNanoseconds_eq_iff _).mpr (hstampRange _ hpts)
  · exact (hclock.toNanoseconds_eq_iff _).mpr (hclockRange _ hpcr)
  · exact hstamp.mono _ _ (by decide) (hstampRange _ hspliced)
  · exact (hagree 8589934591 (by decide)).2.2

end TransportStream.Duration
