import Mathlib.Data.List.Basic
import TransportStream.Proofs.Reassembly.Intact

/-!
# Reassembly when fragments get lost

Fragments are sent in a clean sequence, and some of them do not arrive. As long as no
whole turn of the continuity counter is lost between two that arrive, the counter tells
of every loss, so that no unit is put together from pieces that do not belong together.
-/

namespace TransportStream

/-- What arrives of a sequence in which each member says whether it does. -/
def arrived {α : Type} (sent : List (α × Bool)) : List α := (sent.filter (·.2)).map (·.1)

/-- What arrives first comes first. -/
theorem arrived_cons_true {α : Type} (a : α) (sent : List (α × Bool)) :
    arrived ((a, true) :: sent) = a :: arrived sent := rfl

/-- What does not arrive is left out. -/
theorem arrived_cons_false {α : Type} (a : α) (sent : List (α × Bool)) :
    arrived ((a, false) :: sent) = arrived sent := rfl

/-- Between two that arrive and follow each other, the number of those that do not is no
positive multiple of 16. -/
def NoFullTurn (arrivals : List Bool) : Prop :=
  ∀ before gap after, arrivals = before ++ true :: gap ++ true :: after →
    (∀ arrives ∈ gap, arrives = false) → 16 ∣ gap.length → gap = []

/-- How many gaps begin behind something that did or did not arrive: so many times something
does not arrive although the one before it did. -/
def gapsBehind (arrived : Bool) (arrivals : List Bool) : Nat :=
  ((arrived :: arrivals).zip arrivals).countP fun (before, now) => before && !now

/-- The number of gaps, which are the maximal runs of what does not arrive. -/
def gapCount (arrivals : List Bool) : Nat := gapsBehind true arrivals

/-- A gap begins where something arrived and the next thing does not. -/
theorem gapsBehind_cons (before now : Bool) (arrivals : List Bool) :
    gapsBehind before (now :: arrivals) =
      gapsBehind now arrivals + if before && !now then 1 else 0 := by
  simp only [gapsBehind, List.zip_cons_cons, List.countP_cons]

/-- If no whole turn is lost, none is lost behind the first one. -/
theorem NoFullTurn.tail {arrives : Bool} {arrivals : List Bool}
    (h : NoFullTurn (arrives :: arrivals)) : NoFullTurn arrivals := by
  intro before gap after hsplit
  exact h (arrives :: before) gap after (by simp [hsplit])

namespace Reassembly

/-- After the last fragment that arrived, `gap` ones were sent of which the last has the
counter `last`, so that the counter of the open unit lags behind by so much. -/
def Lags (last gap : Nat) (unit : Option OpenUnit) : Prop :=
  ∀ u ∈ unit, nextCounter last = (u.counter + 1 + gap) % 16

/-- If nothing was lost since the last fragment that arrived, the open unit consists of the
bytes that were sent of it. -/
def Holds (current : Bytes) (gap : Nat) (unit : Option OpenUnit) : Prop :=
  ∀ u ∈ unit, gap = 0 → u.bytes = current

variable {bound last gap : Nat} {current : Bytes} {unit : Option OpenUnit} {f : Fragment}

/-- Without an open unit no counter lags behind. -/
theorem lags_none (last gap : Nat) : Lags last gap none := by
  intro u hu
  cases hu

/-- Without an open unit nothing has to be in it. -/
theorem holds_none (current : Bytes) (gap : Nat) : Holds current gap none := by
  intro u hu
  cases hu

/-- A fragment that does not arrive makes the counter lag behind by one more. -/
theorem Lags.lose (h : Lags last gap unit) (hf : f.counter = nextCounter last) :
    Lags f.counter (gap + 1) unit := by
  intro u hu
  have hlag := h u hu
  unfold nextCounter at *
  omega

/-- Behind a fragment that arrives, the counter does not lag. -/
theorem lags_ofFragment (bound : Nat) (f : Fragment) (unit : Option OpenUnit) :
    Lags f.counter 0 (ofFragment bound f unit).openUnit := by
  intro u hu
  rw [counter_ofFragment hu, nextCounter, Nat.add_zero]

/-- The counter does not jump where nothing was lost. -/
theorem Lags.counter_eq (h : Lags last 0 unit) (hf : f.counter = nextCounter last) {u : OpenUnit}
    (hu : u ∈ unit) : f.counter = nextCounter u.counter := by
  rw [hf, h u hu, Nat.add_zero, nextCounter]

/-- The counter jumps where something was lost, unless that was whole turns of it. -/
theorem Lags.counter_ne (h : Lags last gap unit) (hf : f.counter = nextCounter last)
    (hturn : ¬ 16 ∣ gap) {u : OpenUnit} (hu : u ∈ unit) : f.counter ≠ nextCounter u.counter := by
  have hlag := h u hu
  unfold nextCounter at *
  omega

/-- A fragment drops the open unit only where something was lost. -/
theorem gap_pos_of_dropped (h : Lags last gap unit) (hf : f.counter = nextCounter last)
    (hdropped : (ofFragment bound f unit).dropped = some .packetsLost) : 0 < gap := by
  rcases Nat.eq_zero_or_pos gap with rfl | hpos
  · exfalso
    cases unit with
    | none =>
      cases hstart : f.unitStart with
      | true =>
        rw [(ofFragment_none_of_start bound hstart).2.2] at hdropped
        split at hdropped <;> simp at hdropped
      | false => simp [ofFragment_none_of_not_start bound hstart] at hdropped
    | some u =>
      have hcounter := h.counter_eq hf rfl
      cases hstart : f.unitStart with
      | true =>
        rw [(ofFragment_of_start bound hcounter hstart).2.2] at hdropped
        split at hdropped <;> simp at hdropped
      | false =>
        rw [ofFragment_of_continue bound hcounter hstart, dropped_extend] at hdropped
        split at hdropped <;> simp at hdropped
  · exact hpos

/-- A unit that is opened or extended within the bound has all that was sent of it. -/
theorem holds_openUpTo (bound : Nat) (current : Bytes) (counter : Nat) :
    Holds current 0 (openUpTo bound current counter) := by
  intro u hu _
  rw [eq_of_openUpTo hu]

/-- A fragment that arrives, where no whole turn of the counter was lost before it, leaves a
unit of what was sent, and completes at most the unit that was sent before it. -/
theorem Holds.receive (bound : Nat) (hholds : Holds current gap unit) (hlags : Lags last gap unit)
    (hf : f.counter = nextCounter last) (hturn : unit ≠ none → 16 ∣ gap → gap = 0) :
    Holds (if f.unitStart then f.payload else current ++ f.payload) 0
        (ofFragment bound f unit).openUnit ∧
      ((ofFragment bound f unit).completed = none ∨
        f.unitStart = true ∧ (ofFragment bound f unit).completed = some current) := by
  cases unit with
  | none =>
    cases hstart : f.unitStart with
    | true =>
      obtain ⟨hopen, hcompleted, _⟩ := ofFragment_none_of_start bound hstart
      rw [hopen, hcompleted]
      exact ⟨holds_openUpTo _ _ _, .inl rfl⟩
    | false =>
      rw [ofFragment_none_of_not_start bound hstart]
      exact ⟨holds_none _ _, .inl rfl⟩
  | some u =>
    by_cases hgap : 16 ∣ gap
    · obtain rfl : gap = 0 := hturn (by simp) hgap
      have hcounter := hlags.counter_eq hf rfl
      have hbytes : u.bytes = current := hholds u rfl rfl
      cases hstart : f.unitStart with
      | true =>
        obtain ⟨hopen, hcompleted, _⟩ := ofFragment_of_start bound hcounter hstart
        rw [hopen, hcompleted, hbytes]
        exact ⟨holds_openUpTo _ _ _, .inr ⟨rfl, rfl⟩⟩
      | false =>
        rw [ofFragment_of_continue bound hcounter hstart, ← hbytes, openUnit_extend]
        exact ⟨holds_openUpTo _ _ _, .inl completed_extend⟩
    · obtain ⟨hopen, hcompleted, _⟩ :=
        ofFragment_of_jump bound (hlags.counter_ne hf hgap rfl)
      rw [hopen, hcompleted]
      exact ⟨holds_none _ _, .inl rfl⟩

/-- Of what was sent, only whole units are completed, in their order and each once. -/
theorem completions_sublist (bound : Nat) (sent : List (Fragment × Bool))
    (hlags : Lags last gap unit) (hholds : Holds current gap unit)
    (hnext : ∀ f ∈ (sent.map (·.1)).head?, f.counter = nextCounter last)
    (hconsecutive : Consecutive (sent.map (·.1))) (hturn : NoFullTurn (sent.map (·.2)))
    (hgap : unit ≠ none → ∀ lost after, sent.map (·.2) = lost ++ true :: after →
      (∀ arrives ∈ lost, arrives = false) → 16 ∣ gap + lost.length → gap + lost.length = 0) :
    (completions (trace bound (arrived sent) unit)).Sublist
      (unitsFrom current (sent.map (·.1))) := by
  induction sent generalizing last gap current unit with
  | nil => exact List.nil_sublist _
  | cons x sent ih =>
    obtain ⟨f, arrives⟩ := x
    have hf : f.counter = nextCounter last := hnext f rfl
    obtain ⟨hnext', hconsecutive'⟩ := List.isChain_cons.mp hconsecutive
    -- What was sent of the unit in which the fragment is.
    let current' := if f.unitStart then f.payload else current ++ f.payload
    have hunits : (unitsFrom current' (sent.map (·.1))).Sublist
        (unitsFrom current (((f, arrives) :: sent).map (·.1))) := by
      rw [List.map_cons, unitsFrom]
      cases hstart : f.unitStart with
      | true => simp [current', hstart]
      | false => simp [current', hstart]
    cases arrives with
    | false =>
      have hholds' : Holds current' (gap + 1) unit := by
        intro u _ hzero
        omega
      rw [arrived_cons_false]
      refine (ih (hlags.lose hf) hholds' hnext' hconsecutive' hturn.tail ?_).trans hunits
      intro hopen lost after hsplit hlost hdvd
      have h := hgap hopen (false :: lost) after (by simp [hsplit]) (by simpa using hlost)
        (by rw [List.length_cons]; omega)
      rw [List.length_cons] at h
      omega
    | true =>
      have hnoTurn : unit ≠ none → 16 ∣ gap → gap = 0 := by
        intro hopen hdvd
        exact hgap hopen [] (sent.map (·.2)) rfl (by simp) hdvd
      obtain ⟨hholds', hcompleted⟩ := hholds.receive bound hlags hf hnoTurn
      have hlater := ih (lags_ofFragment bound f unit) hholds' hnext' hconsecutive' hturn.tail
        (by
          intro _ lost after hsplit hlost hdvd
          have h := hturn [] lost after (by simp [hsplit]) hlost (by omega)
          simp [h])
      rw [arrived_cons_true, trace, completions_cons]
      rcases hcompleted with hnone | ⟨hstart, hsome⟩
      · rw [hnone]
        exact hlater.trans hunits
      · rw [hsome, List.map_cons, unitsFrom, if_pos hstart]
        rw [if_pos hstart] at hlater
        exact hlater.cons_cons _

/-- Each gap makes at most one fragment drop the open unit. -/
theorem losses_le (bound : Nat) (sent : List (Fragment × Bool)) (hlags : Lags last gap unit)
    (hnext : ∀ f ∈ (sent.map (·.1)).head?, f.counter = nextCounter last)
    (hconsecutive : Consecutive (sent.map (·.1))) :
    losses (trace bound (arrived sent) unit) ≤
      gapsBehind (gap == 0) (sent.map (·.2)) + if gap = 0 then 0 else 1 := by
  induction sent generalizing last gap unit with
  | nil => exact Nat.zero_le _
  | cons x sent ih =>
    obtain ⟨f, arrives⟩ := x
    have hf : f.counter = nextCounter last := hnext f rfl
    obtain ⟨hnext', hconsecutive'⟩ := List.isChain_cons.mp hconsecutive
    rw [List.map_cons, gapsBehind_cons]
    cases arrives with
    | false =>
      have hlater := ih (hlags.lose hf) hnext' hconsecutive'
      have hlost : (gap + 1 == 0) = false := by simp
      rw [hlost, if_neg (Nat.succ_ne_zero gap)] at hlater
      rw [arrived_cons_false]
      by_cases hgap : gap = 0 <;> simp [hgap] <;> omega
    | true =>
      have hlater := ih (lags_ofFragment bound f unit) hnext' hconsecutive'
      have hdrop : (if (ofFragment bound f unit).dropped = some .packetsLost then 1 else 0) ≤
          if gap = 0 then 0 else 1 := by
        by_cases hdropped : (ofFragment bound f unit).dropped = some .packetsLost
        · have hpos := gap_pos_of_dropped hlags hf hdropped
          rw [if_pos hdropped, if_neg (by omega)]
        · rw [if_neg hdropped]
          exact Nat.zero_le _
      simp only [beq_self_eq_true, if_true, Nat.add_zero] at hlater
      rw [arrived_cons_true, trace, losses_cons, Bool.not_true, Bool.and_false]
      simp only [Bool.false_eq_true, if_false, Nat.add_zero]
      omega

/-- Of a clean sequence, only whole units are completed, in their order and each once. -/
theorem completions_sublist_unitsOf (bound : Nat) (sent : List (Fragment × Bool))
    (hclean : Clean (sent.map (·.1))) (hturn : NoFullTurn (sent.map (·.2))) :
    (completions (trace bound (arrived sent) none)).Sublist (unitsOf (sent.map (·.1))) := by
  cases sent with
  | nil => exact List.nil_sublist _
  | cons x sent =>
    obtain ⟨f, arrives⟩ := x
    have hstart : f.unitStart = true := hclean.starts f rfl
    obtain ⟨hnext, hconsecutive⟩ := List.isChain_cons.mp hclean.consecutive
    cases arrives with
    | false =>
      exact completions_sublist bound sent (lags_none _ 1) (holds_none _ 1) hnext hconsecutive
        hturn.tail (fun hopen => absurd rfl hopen)
    | true =>
      obtain ⟨hopen, hnone, _⟩ := ofFragment_none_of_start bound hstart
      have hholds : Holds f.payload 0 (ofFragment bound f none).openUnit := by
        rw [hopen]
        exact holds_openUpTo _ _ _
      have hlater := completions_sublist bound sent (lags_ofFragment bound f none) hholds hnext
        hconsecutive hturn.tail (by
          intro _ lost after hsplit hlost hdvd
          have h := hturn [] lost after (by simp [hsplit]) hlost (by omega)
          simp [h])
      rw [arrived_cons_true, trace, completions_cons, hnone]
      exact hlater

/-- In a clean sequence, units are dropped at most as often as there are gaps. -/
theorem losses_le_gapCount (bound : Nat) (sent : List (Fragment × Bool))
    (hclean : Clean (sent.map (·.1))) :
    losses (trace bound (arrived sent) none) ≤ gapCount (sent.map (·.2)) := by
  cases sent with
  | nil => exact Nat.zero_le _
  | cons x sent =>
    obtain ⟨f, arrives⟩ := x
    have hstart : f.unitStart = true := hclean.starts f rfl
    obtain ⟨hnext, hconsecutive⟩ := List.isChain_cons.mp hclean.consecutive
    rw [gapCount, List.map_cons, gapsBehind_cons]
    cases arrives with
    | false => exact losses_le bound sent (lags_none _ 1) hnext hconsecutive
    | true =>
      have hlater := losses_le bound sent (lags_ofFragment bound f none) hnext hconsecutive
      have hkept : (ofFragment bound f none).dropped ≠ some .packetsLost := by
        rw [(ofFragment_none_of_start bound hstart).2.2]
        split <;> simp
      rw [arrived_cons_true, trace, losses_cons, if_neg hkept]
      exact hlater

/-- A unit of which all fragments arrive, and whose first one continues the open unit if
there is one, is completed by the fragment behind it if that begins the next unit. -/
theorem completed_of_isUnit {own : List Fragment} {next : Fragment} (hunit : IsUnit own)
    (hnext : next.unitStart = true) (hconsecutive : Consecutive (own ++ [next]))
    (hsize : (own.flatMap (·.payload)).length ≤ bound)
    (hbefore : ∀ u ∈ unit, ∀ f ∈ own.head?, f.counter = nextCounter u.counter) :
    (ofFragment bound next (openAfter bound own unit)).completed =
      some (own.flatMap (·.payload)) := by
  obtain ⟨first, others, rfl, hstart, hothers⟩ := hunit
  rw [List.cons_append] at hconsecutive
  obtain ⟨hfirst, hlater⟩ := List.isChain_cons.mp hconsecutive
  have hopen : (ofFragment bound first unit).openUnit =
      openUpTo bound first.payload first.counter := by
    cases unit with
    | none => exact (ofFragment_none_of_start bound hstart).1
    | some u => exact (ofFragment_of_start bound (hbefore u rfl first rfl) hstart).1
  have hothers' : ∀ f ∈ others.head?, f.counter = nextCounter first.counter := fun f hf =>
    hfirst f (List.mem_head?_append_of_mem_head? hf)
  have hcounter := counter_eq_of_consecutive hfirst hlater
  rw [openAfter, hopen,
    openAfter_of_consecutive bound first.payload hothers' (List.isChain_append.mp hlater).1,
    (ofFragment_of_next_start bound _ hcounter hnext).2.1]
  simp only [unitsFrom_of_not_start hothers, List.getLast_singleton]
  rw [← List.flatMap_cons, if_pos hsize]

end Reassembly

end TransportStream
