import Mathlib.Algebra.BigOperators.Group.Finset.Piecewise
import Mathlib.Algebra.GroupWithZero.Nat
import TransportStream.Proofs.Demuxer.Isolation

/-!
# Counts of dropped units

The two counts of a demultiplexer cover all PIDs. They go up by what each packet does on
its own PID, so that along a run they go up by what all PIDs contribute.
-/

namespace TransportStream.Demuxer

variable {d : Demuxer} {pid : Nat} {bytes : Bytes} {inputs : List Bytes} {f : Fragment} {s : Step}

/-- A packet never lowers a count. -/
theorem counts_le_read (d : Demuxer) (bytes : Bytes) :
    d.lossCount ≤ (d.read bytes).demuxer.lossCount ∧
      d.oversizeCount ≤ (d.read bytes).demuxer.oversizeCount := by
  obtain ⟨_, hread⟩ | ⟨f, _, _, hread⟩ | ⟨f, _, _, hread⟩ := read_cases d bytes
  · simp [hread]
  · rw [hread, withReassembly]
    exact ⟨Nat.le_add_right _ _, Nat.le_add_right _ _⟩
  · simp [hread]

/-- A packet raises a count only by its payload on an elementary stream. -/
theorem hasStream_of_counts (h : s.losses ≠ 0 ∨ s.oversizes ≠ 0) :
    ∃ f, fragment? s.bytes = some f ∧ s.before.tables.hasStream f.pid = true := by
  have hsame : (s.before.read s.bytes).demuxer.lossCount ≠ s.before.lossCount ∨
      (s.before.read s.bytes).demuxer.oversizeCount ≠ s.before.oversizeCount := by
    simp only [Step.losses, Step.oversizes, Step.after] at h
    omega
  obtain ⟨_, hread⟩ | ⟨f, hfragment, hstream, _⟩ | ⟨f, _, _, hread⟩ := read_cases s.before s.bytes
  · simp [hread] at hsame
  · exact ⟨f, hfragment, hstream⟩
  · simp [hread] at hsame

/-- Along a run the counts go up by what the steps raise them. -/
theorem counts_readAll (d : Demuxer) (inputs : List Bytes) :
    (d.readAll inputs).lossCount = d.lossCount + ((d.steps inputs).map (·.losses)).sum ∧
      (d.readAll inputs).oversizeCount =
        d.oversizeCount + ((d.steps inputs).map (·.oversizes)).sum := by
  induction inputs generalizing d with
  | nil => exact ⟨rfl, rfl⟩
  | cons bytes inputs ih =>
    obtain ⟨hloss, hoversize⟩ := counts_le_read d bytes
    obtain ⟨hlosses, hoversizes⟩ := ih (d.read bytes).demuxer
    simp only [readAll, steps, List.map_cons, List.sum_cons, hlosses, hoversizes, Step.losses,
      Step.oversizes, Step.after]
    omega

/-- What the steps of a run count is what they count on each of the PIDs that occur. -/
theorem sum_eq_sum_carries (pids : Finset Nat) (count : Step → Nat) (steps : List Step)
    (h : ∀ s ∈ steps, count s ≠ 0 → ∃ f, fragment? s.bytes = some f ∧ f.pid ∈ pids) :
    (steps.map count).sum = ∑ pid ∈ pids, ((steps.filter (·.carries pid)).map count).sum := by
  induction steps with
  | nil => simp
  | cons s steps ih =>
    have hlater := ih fun s hs => h s (List.mem_cons_of_mem _ hs)
    have hone : count s = ∑ pid ∈ pids, if s.carries pid then count s else 0 := by
      by_cases hzero : count s = 0
      · simp [hzero]
      · obtain ⟨f, hfragment, hmem⟩ := h s List.mem_cons_self hzero
        have hcarries : ∀ pid, s.carries pid = (f.pid == pid) := carries_of_fragment hfragment
        simp [hcarries, hmem]
    have hsplit : ∀ pid, (((s :: steps).filter (·.carries pid)).map count).sum =
        (if s.carries pid then count s else 0) +
          ((steps.filter (·.carries pid)).map count).sum := by
      intro pid
      cases hcarries : s.carries pid <;> simp [hcarries]
    rw [List.map_cons, List.sum_cons, hlater, Finset.sum_congr rfl fun pid _ => hsplit pid,
      Finset.sum_add_distrib, ← hone]

/-- The drops for one reason add up to the number of fragments that drop for it. -/
theorem sum_drops (drop : Drop) (trace : List Reassembly) :
    (trace.map fun r => if r.dropped = some drop then 1 else 0).sum =
      trace.countP (·.dropped = some drop) := by
  induction trace with
  | nil => rfl
  | cons r trace ih =>
    rw [List.map_cons, List.sum_cons, ih, List.countP_cons, Nat.add_comm]
    simp

/-- What the packets of a PID count is what its fragments count by themselves. -/
theorem counts_eq_trace (h : d.Routed pid inputs) :
    let trace := Reassembly.trace d.config.maxUnitSize (fragmentsOn pid inputs) d.units[pid]?
    (((d.steps inputs).filter (·.carries pid)).map (·.losses)).sum = Reassembly.losses trace ∧
      (((d.steps inputs).filter (·.carries pid)).map (·.oversizes)).sum =
        Reassembly.oversizes trace := by
  intro trace
  have heffects : ((d.steps inputs).filter (·.carries pid)).map (Step.effectOn pid) =
      trace.map (Effect.ofReassembly pid) := (effectsOn_eq_trace h).1
  -- Whatever a step counts on its own PID is part of its effect there.
  have hcount : ∀ (count : Step → Nat) (part : Effect → Nat),
      (∀ s, s.carries pid = true → count s = part (s.effectOn pid)) →
      ((d.steps inputs).filter (·.carries pid)).map count =
        trace.map fun r => part (.ofReassembly pid r) := by
    intro count part hcount
    have hsteps : ((d.steps inputs).filter (·.carries pid)).map count =
        (((d.steps inputs).filter (·.carries pid)).map (Step.effectOn pid)).map part := by
      rw [List.map_map]
      exact List.map_congr_left fun s hs => hcount s (List.mem_filter.mp hs).2
    rw [hsteps, heffects, List.map_map]
    rfl
  constructor
  · rw [hcount (·.losses) (·.losses) fun s hs => by simp only [Step.effectOn, hs, if_true]]
    exact sum_drops .packetsLost trace
  · rw [hcount (·.oversizes) (·.oversizes) fun s hs => by simp only [Step.effectOn, hs, if_true]]
    exact sum_drops .tooLarge trace

end TransportStream.Demuxer
