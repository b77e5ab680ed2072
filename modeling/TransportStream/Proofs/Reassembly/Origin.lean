import TransportStream.Proofs.Reassembly.Units

/-!
# Where the bytes of a unit come from

Whatever fragments arrive, an open unit consists of one that began it and of those that went
on with it, without a gap. A unit is completed only by the fragment right behind them.
-/

namespace TransportStream

/-- An open unit consists of some fragments. -/
structure OpenUnit.ConsistsOf (unit : OpenUnit) (own : List Fragment) : Prop where
  /-- The first fragment began the unit, and no other begins one. -/
  isUnit : IsUnit own
  /-- The continuity counters rise by one. -/
  consecutive : Consecutive own
  /-- The counter of the unit is that of the last fragment. -/
  counter : ∀ last ∈ own.getLast?, last.counter = unit.counter
  /-- The bytes of the unit are the payloads. -/
  bytes_eq : unit.bytes = own.flatMap (·.payload)

namespace Reassembly

/-- What a fragment can make of the unit that is open on its PID, and which unit it completes. -/
inductive Change (bound : Nat) (f : Fragment) :
    Option OpenUnit → Option OpenUnit → Option Bytes → Prop
  /-- Without an open unit, the fragment begins none. -/
  | skip (hstart : f.unitStart = false) : Change bound f none none none
  /-- Without an open unit, the fragment begins one. -/
  | start (hstart : f.unitStart = true) :
      Change bound f none (openUpTo bound f.payload f.counter) none
  /-- The fragment does not continue the open unit. -/
  | lose (unit : OpenUnit) (hcounter : f.counter ≠ nextCounter unit.counter) :
      Change bound f (some unit) none none
  /-- The fragment completes the open unit and begins the next one. -/
  | complete (unit : OpenUnit) (hcounter : f.counter = nextCounter unit.counter)
      (hstart : f.unitStart = true) :
      Change bound f (some unit) (openUpTo bound f.payload f.counter) (some unit.bytes)
  /-- The fragment extends the open unit. -/
  | extend (unit : OpenUnit) (hcounter : f.counter = nextCounter unit.counter)
      (hstart : f.unitStart = false) :
      Change bound f (some unit) (openUpTo bound (unit.bytes ++ f.payload) f.counter) none

variable {bound : Nat} {f : Fragment} {own : List Fragment} {before : Option OpenUnit}
  {previous unit : OpenUnit} {bytes : Bytes}

/-- A fragment with the next counter goes on behind the fragments of a unit. -/
theorem consecutive_of_next (h : previous.ConsistsOf own)
    (hcounter : f.counter = nextCounter previous.counter) : Consecutive (own ++ [f]) := by
  refine List.isChain_append.mpr ⟨h.consecutive, List.isChain_singleton _, ?_⟩
  intro last hlast next hnext
  obtain rfl : f = next := by simpa using hnext
  rw [hcounter, h.counter last hlast]

/-- A fragment that opens a unit is all of it so far. -/
theorem consistsOf_start (hstart : f.unitStart = true)
    (hopen : openUpTo bound f.payload f.counter = some unit) : unit.ConsistsOf [f] := by
  obtain rfl := eq_of_openUpTo hopen
  refine ⟨⟨f, [], rfl, hstart, by simp⟩, List.isChain_singleton _, ?_, by simp⟩
  intro last hlast
  obtain rfl : f = last := by simpa using hlast
  rfl

/-- A fragment that extends a unit comes behind its other fragments. -/
theorem consistsOf_extend (h : previous.ConsistsOf own)
    (hcounter : f.counter = nextCounter previous.counter) (hstart : f.unitStart = false)
    (hopen : openUpTo bound (previous.bytes ++ f.payload) f.counter = some unit) :
    unit.ConsistsOf (own ++ [f]) := by
  have hconsecutive := consecutive_of_next h hcounter
  obtain rfl := eq_of_openUpTo hopen
  obtain ⟨first, others, rfl, hfirst, hothers⟩ := h.isUnit
  refine ⟨⟨first, others ++ [f], rfl, hfirst, ?_⟩, hconsecutive, ?_, ?_⟩
  · intro g hg
    rcases List.mem_append.mp hg with hg | hg
    · exact hothers g hg
    · obtain rfl : g = f := by simpa using hg
      exact hstart
  · intro last hlast
    rw [List.getLast?_concat, Option.mem_some_iff] at hlast
    rw [← hlast]
  · rw [h.bytes_eq, List.flatMap_append]
    simp

/-- Every fragment changes the open unit of its PID in one of these ways. -/
theorem change_ofFragment (bound : Nat) (f : Fragment) (before : Option OpenUnit) :
    Change bound f before (ofFragment bound f before).openUnit
      (ofFragment bound f before).completed := by
  cases before with
  | none =>
    cases hstart : f.unitStart with
    | true =>
      obtain ⟨hopen, hcompleted, _⟩ := ofFragment_none_of_start bound hstart
      rw [hopen, hcompleted]
      exact .start hstart
    | false =>
      rw [ofFragment_none_of_not_start bound hstart]
      exact .skip hstart
  | some previous =>
    by_cases hcounter : f.counter = nextCounter previous.counter
    · cases hstart : f.unitStart with
      | true =>
        obtain ⟨hopen, hcompleted, _⟩ := ofFragment_of_start bound hcounter hstart
        rw [hopen, hcompleted]
        exact .complete previous hcounter hstart
      | false =>
        rw [ofFragment_of_continue bound hcounter hstart, openUnit_extend, completed_extend]
        exact .extend previous hcounter hstart
    · obtain ⟨hopen, hcompleted, _⟩ := ofFragment_of_jump bound hcounter
      rw [hopen, hcompleted]
      exact .lose previous hcounter

/-- The unit that is open behind a fragment begins with it, or was open before and goes on
with it. -/
theorem Change.consistsOf {after : Option OpenUnit} {completed : Option Bytes}
    (h : Change bound f before after completed) (hopen : after = some unit) :
    unit.ConsistsOf [f] ∨
      ∃ previous, before = some previous ∧
        ∀ own, previous.ConsistsOf own → unit.ConsistsOf (own ++ [f]) := by
  cases h with
  | skip | lose => cases hopen
  | start hstart | complete _ _ hstart => exact .inl (consistsOf_start hstart hopen)
  | extend previous hcounter hstart =>
    refine .inr ⟨previous, rfl, ?_⟩
    intro own hown
    exact consistsOf_extend hown hcounter hstart hopen

/-- A unit is completed by a fragment that has its next counter and begins another unit. -/
theorem Change.completed_eq {after : Option OpenUnit} {completed : Option Bytes}
    (h : Change bound f before after completed) (hcompleted : completed = some bytes) :
    ∃ previous, before = some previous ∧ previous.bytes = bytes ∧ f.unitStart = true ∧
      f.counter = nextCounter previous.counter := by
  cases h with
  | skip | start | lose | extend => cases hcompleted
  | complete previous hcounter hstart =>
    exact ⟨previous, rfl, Option.some.inj hcompleted, hstart, hcounter⟩

end Reassembly

end TransportStream
