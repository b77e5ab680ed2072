import TransportStream.Proofs.Demuxer.Run

/-!
# Elementary streams do not touch each other

What becomes of the units of an elementary stream is decided by the fragments on its PID.
Reading the packets of all PIDs has on this one the effect of reassembling its fragments
by themselves, so that other PIDs, tables and damaged packets have no influence on it.
-/

namespace TransportStream.Demuxer

/-- What a packet does on its PID, apart from the unit that it leaves open. -/
structure Effect where
  /-- The unit that is pending behind the packet, if one of the PID is. -/
  unit : Option PendingUnit
  /-- How many units were dropped because packets were lost. -/
  losses : Nat
  /-- How many units were dropped because of their size. -/
  oversizes : Nat
  deriving DecidableEq, Repr

/-- What a step does on a PID. The counts of the step count for the PID of its packet. -/
def Step.effectOn (pid : Nat) (s : Step) : Effect where
  unit := s.after.pending.filter (·.pid == pid)
  losses := if s.carries pid then s.losses else 0
  oversizes := if s.carries pid then s.oversizes else 0

/-- The effect of a packet that does nothing on a PID. -/
def Effect.none : Effect := ⟨.none, 0, 0⟩

/-- The effect of a fragment, after what it does to the units of its PID. -/
def Effect.ofReassembly (pid : Nat) (r : Reassembly) : Effect where
  unit := r.completed.map (⟨pid, ·⟩)
  losses := if r.dropped = some .packetsLost then 1 else 0
  oversizes := if r.dropped = some .tooLarge then 1 else 0

/-- The units of a PID that reading packet after packet makes pending, in order. -/
def unitsOn (d : Demuxer) (pid : Nat) (inputs : List Bytes) : List PendingUnit :=
  (d.steps inputs).filterMap fun s => s.after.pending.filter (·.pid == pid)

/-- Whenever a packet has a payload on a PID, this is known as an elementary stream. -/
def Routed (d : Demuxer) (pid : Nat) (inputs : List Bytes) : Prop :=
  ∀ s ∈ d.steps inputs, s.carries pid = true → s.before.tables.hasStream pid = true

variable {d : Demuxer} {pid : Nat} {bytes : Bytes} {inputs : List Bytes} {f : Fragment}

/-- Only the unit of the PID is replaced. -/
theorem units_withReassembly (d : Demuxer) (pid : Nat) (r : Reassembly) (other : Nat) :
    (d.withReassembly pid r).units[other]? =
      if pid = other then r.openUnit else d.units[other]? := by
  unfold withReassembly
  cases r.openUnit with
  | none =>
    by_cases hpid : pid = other <;> simp [hpid, Std.ExtTreeMap.getElem?_erase]
  | some unit =>
    by_cases hpid : pid = other <;> simp [hpid, Std.ExtTreeMap.getElem?_insert]

/-- The unit of a PID stays as it is, or the packet has a fragment on this PID, and the PID carries
an elementary stream. -/
theorem units_read (d : Demuxer) (bytes : Bytes) (pid : Nat) :
    (d.read bytes).demuxer.units[pid]? = d.units[pid]? ∨
      ∃ f, fragment? bytes = some f ∧ f.pid = pid ∧ d.tables.hasStream pid = true ∧
        (d.read bytes).demuxer.units[pid]? =
          (Reassembly.ofFragment d.config.maxUnitSize f d.units[pid]?).openUnit := by
  obtain ⟨_, hread⟩ | ⟨f, hfragment, hstream, hread⟩ | ⟨f, _, _, hread⟩ := read_cases d bytes
  · exact .inl (by rw [hread])
  · rw [hread, units_withReassembly]
    by_cases hpid : f.pid = pid
    · subst hpid
      exact .inr ⟨f, hfragment, rfl, hstream, if_pos rfl⟩
    · exact .inl (if_neg hpid)
  · exact .inl (by rw [hread])

/-- A packet with a fragment carries the PID of the fragment and no other. -/
theorem carries_of_fragment (h : fragment? bytes = some f) (pid : Nat) :
    carries pid bytes = (f.pid == pid) := by
  simp [carries, h]

/-- A packet without a payload on a PID does nothing there. -/
theorem read_of_not_carries (h : carries pid bytes = false) :
    Step.effectOn pid ⟨d, bytes⟩ = .none ∧ (d.read bytes).demuxer.units[pid]? = d.units[pid]? := by
  have hcounts : Step.carries pid ⟨d, bytes⟩ = false := h
  simp only [Step.effectOn, hcounts, Effect.none, Effect.mk.injEq, Step.after]
  cases hfragment : fragment? bytes with
  | none => simp [read_of_no_fragment hfragment]
  | some f =>
    have hpid : f.pid ≠ pid := by
      rw [carries_of_fragment hfragment] at h
      simpa using h
    cases hstream : d.tables.hasStream f.pid with
    | true =>
      rw [read_of_hasStream hfragment hstream, units_withReassembly, if_neg hpid]
      simp [withReassembly, hpid]
    | false => simp [read_of_not_hasStream hfragment hstream]

/-- A packet with a payload on an elementary stream has the effect of its fragment. -/
theorem read_of_carries (h : fragment? bytes = some f) (hpid : f.pid = pid)
    (hstream : d.tables.hasStream pid = true) :
    Step.effectOn pid ⟨d, bytes⟩ = .ofReassembly pid
        (Reassembly.ofFragment d.config.maxUnitSize f d.units[pid]?) ∧
      (d.read bytes).demuxer.units[pid]? =
        (Reassembly.ofFragment d.config.maxUnitSize f d.units[pid]?).openUnit := by
  subst hpid
  have hcounts : Step.carries f.pid ⟨d, bytes⟩ = true := by
    simp [Step.carries, carries_of_fragment h]
  have hread := read_of_hasStream h hstream
  constructor
  · simp only [Step.effectOn, hcounts, if_true, Step.losses, Step.oversizes, Step.after, hread]
    cases hcompleted : (Reassembly.ofFragment d.config.maxUnitSize f d.units[f.pid]?).completed <;>
      simp [withReassembly, Effect.ofReassembly, hcompleted]
  · rw [hread, units_withReassembly, if_pos rfl]

/-- Reading packet after packet has on a PID the effects of its fragments, provided that
it is known as an elementary stream whenever one of them arrives. -/
theorem effectsOn_eq_trace (h : d.Routed pid inputs) :
    ((d.steps inputs).filter (·.carries pid)).map (Step.effectOn pid) =
        (Reassembly.trace d.config.maxUnitSize (fragmentsOn pid inputs) d.units[pid]?).map
          (Effect.ofReassembly pid) ∧
      (d.readAll inputs).units[pid]? =
        Reassembly.openAfter d.config.maxUnitSize (fragmentsOn pid inputs) d.units[pid]? := by
  induction inputs generalizing d with
  | nil => exact ⟨rfl, rfl⟩
  | cons bytes inputs ih =>
    have hlater : (d.read bytes).demuxer.Routed pid inputs := by
      intro s hs
      exact h s (List.mem_cons_of_mem _ hs)
    obtain ⟨heffects, hunits⟩ := ih hlater
    rw [config_read] at heffects hunits
    cases hcarries : carries pid bytes with
    | false =>
      obtain ⟨_, hsame⟩ := read_of_not_carries (d := d) hcarries
      have hskip : fragmentsOn pid (bytes :: inputs) = fragmentsOn pid inputs := by
        rw [← fragmentsOn_filter_carries, List.filter_cons_of_neg (by simp [hcarries]),
          fragmentsOn_filter_carries]
      have hstep : ¬ Step.carries pid ⟨d, bytes⟩ = true := by simp [Step.carries, hcarries]
      rw [hskip, steps, List.filter_cons_of_neg hstep, readAll, heffects, hunits, hsame]
      exact ⟨rfl, rfl⟩
    | true =>
      have hstream := h ⟨d, bytes⟩ List.mem_cons_self hcarries
      obtain ⟨f, hfragment, hpid⟩ : ∃ f, fragment? bytes = some f ∧ f.pid = pid := by
        simpa [carries, Option.any_eq_true] using hcarries
      obtain ⟨heffect, hunit⟩ := read_of_carries hfragment hpid hstream
      have hfirst : fragmentsOn pid (bytes :: inputs) = f :: fragmentsOn pid inputs := by
        simp [fragmentsOn, hfragment, hpid]
      have hstep : Step.carries pid ⟨d, bytes⟩ = true := hcarries
      rw [hfirst, steps, List.filter_cons_of_pos hstep, List.map_cons, readAll, heffects, hunits,
        hunit, heffect]
      exact ⟨rfl, rfl⟩

/-- The pending units of a PID are those that its own packets make pending. -/
theorem unitsOn_eq (d : Demuxer) (pid : Nat) (inputs : List Bytes) : d.unitsOn pid inputs =
    (((d.steps inputs).filter (·.carries pid)).map (Step.effectOn pid)).filterMap (·.unit) := by
  induction inputs generalizing d with
  | nil => rfl
  | cons bytes inputs ih =>
    have ih := ih (d.read bytes).demuxer
    unfold unitsOn at ih ⊢
    rw [steps, List.filterMap_cons]
    cases hcarries : Step.carries pid ⟨d, bytes⟩ with
    | false =>
      have hnone := congrArg Effect.unit (read_of_not_carries (d := d) hcarries).1
      simp only [Step.effectOn, Effect.none] at hnone
      rw [List.filter_cons_of_neg (by simp [hcarries]), hnone, ih]
    | true =>
      rw [List.filter_cons_of_pos hcarries, List.map_cons, List.filterMap_cons, ih]
      rfl

/-- The units of a PID are those that its fragments complete by themselves. -/
theorem unitsOn_eq_trace (h : d.Routed pid inputs) : (d.unitsOn pid inputs).map (·.bytes) =
    Reassembly.completions
      (Reassembly.trace d.config.maxUnitSize (fragmentsOn pid inputs) d.units[pid]?) := by
  rw [unitsOn_eq, (effectsOn_eq_trace h).1, List.filterMap_map, List.map_filterMap,
    Reassembly.completions]
  congr 1
  funext r
  simp only [Function.comp_apply, Effect.ofReassembly]
  cases r.completed <;> rfl

/-- An elementary stream that is known is known whenever one of its packets arrives. -/
theorem routed_of_hasStream (h : d.tables.hasStream pid = true) (inputs : List Bytes) :
    d.Routed pid inputs := by
  induction inputs generalizing d with
  | nil =>
    intro s hs
    cases hs
  | cons bytes inputs ih =>
    intro s hs hcarries
    rcases List.mem_cons.mp hs with rfl | hs
    · exact h
    · exact ih (hasStream_read h bytes) s hs hcarries

/-- Let a PID be known as an elementary stream, and let two runs of packets agree on those
with a payload on this PID. Then the packets with a payload on it have the same effects in
turn, other packets have none, the same units of the PID become pending, and the same unit
with the same counter is open on it afterwards. -/
theorem isolated (d : Demuxer) (pid : Nat) (hstream : d.tables.hasStream pid = true)
    (inputs inputs' : List Bytes)
    (hsame : inputs.filter (carries pid) = inputs'.filter (carries pid)) :
    ((d.steps inputs).filter (·.carries pid)).map (Step.effectOn pid) =
        ((d.steps inputs').filter (·.carries pid)).map (Step.effectOn pid) ∧
      (∀ s ∈ d.steps inputs ++ d.steps inputs', s.carries pid = false →
        s.effectOn pid = .none ∧ s.after.units[pid]? = s.before.units[pid]?) ∧
      d.unitsOn pid inputs = d.unitsOn pid inputs' ∧
      (d.readAll inputs).units[pid]? = (d.readAll inputs').units[pid]? := by
  have hfragments : fragmentsOn pid inputs = fragmentsOn pid inputs' := by
    rw [← fragmentsOn_filter_carries, hsame, fragmentsOn_filter_carries]
  obtain ⟨heffects, hunits⟩ := effectsOn_eq_trace (routed_of_hasStream hstream inputs)
  obtain ⟨heffects', hunits'⟩ := effectsOn_eq_trace (routed_of_hasStream hstream inputs')
  have heq : ((d.steps inputs).filter (·.carries pid)).map (Step.effectOn pid) =
      ((d.steps inputs').filter (·.carries pid)).map (Step.effectOn pid) := by
    rw [heffects, heffects', hfragments]
  refine ⟨heq, fun s _ h => read_of_not_carries h, ?_, ?_⟩
  · rw [unitsOn_eq, unitsOn_eq, heq]
  · rw [hunits, hunits', hfragments]

/-- A unit on PID 0x41 is completed in the same way whether a packet of another stream or
bytes that are no packet come in between. -/
theorem isolated_between_two_starts :
    let stream : ElementaryStream := ⟨.avcVideo, 0x41, []⟩
    let table : ProgramMap := ⟨⟨mapTableId, true, 1, 0, true, 0, 0⟩, 0x41, [], [stream], 0⟩
    let programs : Std.ExtTreeMap Nat Program :=
      (∅ : Std.ExtTreeMap Nat Program).insert 0x20 (.mapped table)
    let d : Demuxer := { tables := { programs } }
    let start : Bytes := [0x47, 0x40, 0x41, 0x1f] ++ List.replicate 184 0x01
    let next : Bytes := [0x47, 0x40, 0x41, 0x10] ++ List.replicate 184 0x02
    let other : Bytes := [0x47, 0x40, 0x42, 0x1f] ++ List.replicate 184 0x03
    d.tables.hasStream 0x41 = true ∧
      [start, other, next].filter (carries 0x41) = [start, [0x00], next].filter (carries 0x41) ∧
      d.unitsOn 0x41 [start, other, next] = d.unitsOn 0x41 [start, [0x00], next] := by
  intro stream table programs d start next other
  have hstream : d.tables.hasStream 0x41 = true :=
    Tables.hasStream_iff.mpr ⟨0x20, table, by simp [d, programs], by decide⟩
  have hsame : [start, other, next].filter (carries 0x41) =
      [start, [0x00], next].filter (carries 0x41) := by decide +kernel
  exact ⟨hstream, hsame, (isolated d 0x41 hstream _ _ hsame).2.2.1⟩

end TransportStream.Demuxer
