import TransportStream.Proofs.Reassembly.Units

/-!
# The size of a unit

A fragment opens a unit, or continues the open one, or does neither. If it does either, then the
bytes of the unit so far and its own decide alone whether the unit is kept.
-/

namespace TransportStream

/-- A fragment opens or continues a unit, which has some bytes before it. -/
inductive Fragment.Joins (f : Fragment) : Option OpenUnit → Bytes → Prop
  /-- No unit is open, and the fragment begins one. -/
  | start (hstart : f.unitStart = true) : Joins f none []
  /-- The fragment follows the open unit, and begins another one. -/
  | next (unit : OpenUnit) (hcounter : f.counter = nextCounter unit.counter)
      (hstart : f.unitStart = true) : Joins f (some unit) []
  /-- The fragment follows the open unit, and belongs to it. -/
  | extend (unit : OpenUnit) (hcounter : f.counter = nextCounter unit.counter)
      (hstart : f.unitStart = false) : Joins f (some unit) unit.bytes

namespace Reassembly

variable {bound counter : Nat} {f : Fragment} {before : Option OpenUnit} {unit : OpenUnit}
  {bytes soFar : Bytes}

/-- What is opened within a bound is not larger. -/
theorem length_le_of_openUpTo (h : openUpTo bound bytes counter = some unit) :
    unit.bytes.length ≤ bound := by
  unfold openUpTo at h
  split at h
  case isTrue hfits =>
    cases h
    exact hfits
  case isFalse => cases h

/-- A unit that a fragment opens or continues is dropped exactly if it gets too large. -/
theorem ofFragment_of_joins (bound : Nat) (h : f.Joins before soFar) :
    (ofFragment bound f before).openUnit = openUpTo bound (soFar ++ f.payload) f.counter ∧
      (ofFragment bound f before).dropped =
        if (soFar ++ f.payload).length ≤ bound then none else some .tooLarge := by
  cases h with
  | start hstart =>
    obtain ⟨hopen, _, hdropped⟩ := ofFragment_none_of_start bound hstart
    exact ⟨hopen, hdropped⟩
  | next unit hcounter hstart =>
    obtain ⟨hopen, _, hdropped⟩ := ofFragment_of_start bound hcounter hstart
    exact ⟨hopen, hdropped⟩
  | extend unit hcounter hstart =>
    rw [ofFragment_of_continue bound hcounter hstart]
    exact ⟨openUnit_extend, dropped_extend⟩

/-- Any other fragment leaves no unit open, and drops none because of its size. -/
theorem ofFragment_of_not_joins (bound : Nat) (h : ∀ soFar, ¬ f.Joins before soFar) :
    (ofFragment bound f before).openUnit = none ∧
      (ofFragment bound f before).dropped ≠ some .tooLarge := by
  cases before with
  | none =>
    cases hstart : f.unitStart with
    | true => exact absurd (.start hstart) (h [])
    | false => simp [ofFragment_none_of_not_start bound hstart]
  | some unit =>
    by_cases hcounter : f.counter = nextCounter unit.counter
    · cases hstart : f.unitStart with
      | true => exact absurd (.next unit hcounter hstart) (h [])
      | false => exact absurd (.extend unit hcounter hstart) (h unit.bytes)
    · obtain ⟨hopen, _, hdropped⟩ := ofFragment_of_jump bound hcounter
      exact ⟨hopen, by simp [hdropped]⟩

/-- No unit is open that is too large. -/
theorem length_le_of_openUnit (h : (ofFragment bound f before).openUnit = some unit) :
    unit.bytes.length ≤ bound := by
  by_cases hjoins : ∃ soFar, f.Joins before soFar
  · obtain ⟨soFar, hjoins⟩ := hjoins
    rw [(ofFragment_of_joins bound hjoins).1] at h
    exact length_le_of_openUpTo h
  · rw [(ofFragment_of_not_joins bound (not_exists.mp hjoins)).1] at h
    cases h

end Reassembly

end TransportStream
