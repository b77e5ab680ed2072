import TransportStream.Proofs.Reassembly.Units

/-!
# Reassembly when all fragments arrive

A clean sequence of fragments is put together to the units that it was cut from. Each unit
is completed by the first fragment of the next one, so that the last unit stays open, and
the units that are too large are dropped and counted.
-/

namespace TransportStream

/-- The beginning of a clean sequence is clean. -/
theorem Clean.of_append {first later : List Fragment} (h : Clean (first ++ later)) :
    Clean first where
  starts := fun f hf => h.starts f (List.mem_head?_append_of_mem_head? hf)
  consecutive := (List.isChain_append.mp h.consecutive).1

namespace Reassembly

/-- The counter of the last fragment, or of the one before them if there is none. -/
def lastCounter (before : Nat) (fragments : List Fragment) : Nat :=
  (fragments.getLast?.map (·.counter)).getD before

variable {bound last : Nat} {current : Bytes} {f : Fragment} {fragments : List Fragment}

/-- The last counter is that of the last fragment, if there is one. -/
theorem lastCounter_cons (before : Nat) (f : Fragment) (fragments : List Fragment) :
    lastCounter before (f :: fragments) = lastCounter f.counter fragments := by
  rw [lastCounter, lastCounter, List.getLast?_cons]
  cases fragments.getLast? <;> rfl

/-- Where counters rise by one, each fragment continues the last one before it. -/
theorem counter_eq_of_consecutive {next : Fragment}
    (hfirst : ∀ f ∈ (fragments ++ [next]).head?, f.counter = nextCounter last)
    (h : Consecutive (fragments ++ [next])) :
    next.counter = nextCounter (lastCounter last fragments) := by
  induction fragments generalizing last with
  | nil => exact hfirst next rfl
  | cons f fragments ih =>
    rw [lastCounter_cons]
    obtain ⟨hnext, hlater⟩ := List.isChain_cons.mp h
    exact ih hnext hlater

/-- The fragment that begins the next unit completes the one before, unless this was too
large, and opens its own. -/
theorem ofFragment_of_next_start (bound : Nat) (current : Bytes)
    (hcounter : f.counter = nextCounter last) (hstart : f.unitStart = true) :
    (ofFragment bound f (openUpTo bound current last)).openUnit =
        openUpTo bound f.payload f.counter ∧
      (ofFragment bound f (openUpTo bound current last)).completed =
        (if current.length ≤ bound then some current else none) ∧
      (ofFragment bound f (openUpTo bound current last)).dropped =
        if f.payload.length ≤ bound then none else some .tooLarge := by
  by_cases hsmall : current.length ≤ bound
  · have hnext : f.counter = nextCounter (OpenUnit.mk current last).counter := hcounter
    rw [openUpTo, if_pos hsmall, if_pos hsmall]
    exact ofFragment_of_start bound hnext hstart
  · rw [openUpTo, if_neg hsmall, if_neg hsmall]
    exact ofFragment_none_of_start bound hstart

/-- A fragment that begins no unit extends the one before. If that was too large already,
nothing happens, and if it becomes too large now, it is dropped. -/
theorem ofFragment_of_next_continue (bound : Nat) (current : Bytes)
    (hcounter : f.counter = nextCounter last) (hstart : f.unitStart = false) :
    (ofFragment bound f (openUpTo bound current last)).openUnit =
        openUpTo bound (current ++ f.payload) f.counter ∧
      (ofFragment bound f (openUpTo bound current last)).completed = none ∧
      (ofFragment bound f (openUpTo bound current last)).dropped =
        if current.length ≤ bound ∧ bound < (current ++ f.payload).length then some .tooLarge
        else none := by
  by_cases hsmall : current.length ≤ bound
  · have hnext : f.counter = nextCounter (OpenUnit.mk current last).counter := hcounter
    rw [openUpTo, if_pos hsmall, ofFragment_of_continue bound hnext hstart, openUnit_extend,
      completed_extend, dropped_extend]
    refine ⟨rfl, rfl, ?_⟩
    by_cases hroom : (current ++ f.payload).length ≤ bound
    · rw [if_pos hroom, if_neg fun h => Nat.not_lt.mpr hroom h.2]
    · rw [if_neg hroom, if_pos ⟨hsmall, Nat.not_le.mp hroom⟩]
  · have hlarge : ¬ (current ++ f.payload).length ≤ bound := by
      rw [List.length_append]
      omega
    rw [openUpTo, if_neg hsmall, ofFragment_none_of_not_start bound hstart, openUpTo,
      if_neg hlarge, if_neg fun h => hsmall h.1]
    exact ⟨rfl, rfl, rfl⟩

/-- What consecutive fragments do behind the start of a unit. -/
theorem trace_of_consecutive (bound : Nat) (current : Bytes)
    (hfirst : ∀ f ∈ fragments.head?, f.counter = nextCounter last) (h : Consecutive fragments) :
    completions (trace bound fragments (openUpTo bound current last)) =
        (unitsFrom current fragments).dropLast.filter (·.length ≤ bound) ∧
      losses (trace bound fragments (openUpTo bound current last)) = 0 ∧
      oversizes (trace bound fragments (openUpTo bound current last)) +
          (if current.length ≤ bound then 0 else 1) =
        (unitsFrom current fragments).countP (bound < ·.length) := by
  induction fragments generalizing current last with
  | nil =>
    refine ⟨rfl, rfl, ?_⟩
    by_cases hsmall : current.length ≤ bound
    · simp [trace, oversizes, unitsFrom, hsmall]
    · simp [trace, oversizes, unitsFrom, hsmall]
  | cons f fragments ih =>
    have hcounter := hfirst f rfl
    obtain ⟨hnext, hlater⟩ := List.isChain_cons.mp h
    rw [trace, completions_cons, losses_cons, oversizes_cons]
    cases hstart : f.unitStart with
    | true =>
      obtain ⟨hopen, hcompleted, hdropped⟩ := ofFragment_of_next_start bound current hcounter hstart
      obtain ⟨hcompletions, hlosses, hoversizes⟩ := ih f.payload hnext hlater
      have hunits :
          unitsFrom current (f :: fragments) = current :: unitsFrom f.payload fragments := by
        rw [unitsFrom, if_pos hstart]
      rw [hopen, hcompleted, hdropped, hcompletions, hlosses, hunits,
        List.dropLast_cons_of_ne_nil (unitsFrom_ne_nil _ _), List.countP_cons, ← hoversizes]
      refine ⟨?_, ?_, ?_⟩
      · by_cases hsmall : current.length ≤ bound <;> simp [hsmall]
      · split <;> simp
      · by_cases hsmall : current.length ≤ bound <;> by_cases hnew : f.payload.length ≤ bound <;>
          simp [hsmall, hnew]
    | false =>
      obtain ⟨hopen, hcompleted, hdropped⟩ :=
        ofFragment_of_next_continue bound current hcounter hstart
      obtain ⟨hcompletions, hlosses, hoversizes⟩ := ih (current ++ f.payload) hnext hlater
      have hunits :
          unitsFrom current (f :: fragments) = unitsFrom (current ++ f.payload) fragments := by
        rw [unitsFrom, if_neg (by simp [hstart])]
      rw [hopen, hcompleted, hdropped, hcompletions, hlosses, hunits, ← hoversizes]
      refine ⟨rfl, ?_, ?_⟩
      · split <;> simp
      · rw [List.length_append]
        by_cases hroom : current.length + f.payload.length ≤ bound
        · have hsmall : current.length ≤ bound := by omega
          simp [hroom, hsmall]
        · have hlarge : bound < current.length + f.payload.length := by omega
          by_cases hsmall : current.length ≤ bound <;> simp [hroom, hlarge, hsmall]

/-- Behind consecutive fragments, what is left of their last unit is open. -/
theorem openAfter_of_consecutive (bound : Nat) (current : Bytes)
    (hfirst : ∀ f ∈ fragments.head?, f.counter = nextCounter last) (h : Consecutive fragments) :
    openAfter bound fragments (openUpTo bound current last) =
      openUpTo bound ((unitsFrom current fragments).getLast (unitsFrom_ne_nil current fragments))
        (lastCounter last fragments) := by
  induction fragments generalizing current last with
  | nil => rfl
  | cons f fragments ih =>
    have hcounter := hfirst f rfl
    obtain ⟨hnext, hlater⟩ := List.isChain_cons.mp h
    rw [lastCounter_cons]
    cases hstart : f.unitStart with
    | true =>
      have hopen := (ofFragment_of_next_start bound current hcounter hstart).1
      rw [openAfter, hopen, ih f.payload hnext hlater]
      simp only [unitsFrom, hstart, if_true, List.getLast_cons (unitsFrom_ne_nil _ _)]
    | false =>
      have hopen := (ofFragment_of_next_continue bound current hcounter hstart).1
      rw [openAfter, hopen, ih (current ++ f.payload) hnext hlater]
      simp only [unitsFrom, hstart, Bool.false_eq_true, if_false]

/-- A clean sequence completes all its units that are small enough, apart from the last one,
loses none, and drops the ones that are too large. -/
theorem trace_of_clean (bound : Nat) (h : Clean fragments) :
    completions (trace bound fragments none) =
        (unitsOf fragments).dropLast.filter (·.length ≤ bound) ∧
      losses (trace bound fragments none) = 0 ∧
      oversizes (trace bound fragments none) = (unitsOf fragments).countP (bound < ·.length) := by
  cases fragments with
  | nil => exact ⟨rfl, rfl, rfl⟩
  | cons f fragments =>
    obtain ⟨hfirst, hlater⟩ := List.isChain_cons.mp h.consecutive
    obtain ⟨hopen, hcompleted, hdropped⟩ := ofFragment_none_of_start bound (h.starts f rfl)
    obtain ⟨hcompletions, hlosses, hoversizes⟩ :=
      trace_of_consecutive bound f.payload hfirst hlater
    rw [trace, completions_cons, losses_cons, oversizes_cons, hopen, hcompleted, hdropped,
      hcompletions, hlosses, unitsOf, ← hoversizes]
    refine ⟨rfl, ?_, ?_⟩ <;> split <;> simp

/-- Behind a clean sequence, what is left of its last unit is open. -/
theorem openAfter_of_clean (bound : Nat) (h : Clean fragments) :
    openAfter bound fragments none =
      (unitsOf fragments).getLast?.bind fun unit =>
        openUpTo bound unit (lastCounter 0 fragments) := by
  cases fragments with
  | nil => rfl
  | cons f fragments =>
    obtain ⟨hfirst, hlater⟩ := List.isChain_cons.mp h.consecutive
    have hopen := (ofFragment_none_of_start bound (h.starts f rfl)).1
    rw [openAfter, hopen, openAfter_of_consecutive bound f.payload hfirst hlater, unitsOf,
      List.getLast?_eq_some_getLast (unitsFrom_ne_nil _ _), lastCounter_cons]
    rfl

/-- The unit that is open behind a clean sequence is its last one, unless it is too large. -/
theorem bytes_openAfter_of_clean (bound : Nat) (h : Clean fragments) :
    (openAfter bound fragments none).map (·.bytes) =
      (unitsOf fragments).getLast?.filter (·.length ≤ bound) := by
  rw [openAfter_of_clean bound h]
  cases (unitsOf fragments).getLast? with
  | none => rfl
  | some unit =>
    rw [Option.bind_some, openUpTo, Option.filter_some]
    by_cases hsmall : unit.length ≤ bound <;> simp [hsmall]

/-- In a clean sequence a unit is completed by the fragment that begins the next one, unless
it is too large, and no other fragment completes a unit. -/
theorem completed_of_clean (bound : Nat) {next : Fragment} (h : Clean (fragments ++ [next])) :
    (ofFragment bound next (openAfter bound fragments none)).completed =
      if next.unitStart then (unitsOf fragments).getLast?.filter (·.length ≤ bound) else none := by
  rw [openAfter_of_clean bound h.of_append]
  cases fragments with
  | nil =>
    have hstart := h.starts next rfl
    rw [if_pos hstart]
    exact (ofFragment_none_of_start bound hstart).2.1
  | cons f fragments =>
    obtain ⟨hfirst, hlater⟩ := List.isChain_cons.mp h.consecutive
    have hcounter := counter_eq_of_consecutive hfirst hlater
    rw [unitsOf, List.getLast?_eq_some_getLast (unitsFrom_ne_nil _ _), Option.bind_some,
      lastCounter_cons]
    cases hstart : next.unitStart with
    | true =>
      rw [(ofFragment_of_next_start bound _ hcounter hstart).2.1, if_pos rfl, Option.filter_some]
      simp
    | false =>
      rw [(ofFragment_of_next_continue bound _ hcounter hstart).2.1, if_neg (by simp)]

end Reassembly

end TransportStream
