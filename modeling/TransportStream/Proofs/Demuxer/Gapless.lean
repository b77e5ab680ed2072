import TransportStream.Proofs.Demuxer.Actions
import TransportStream.Proofs.Demuxer.Isolation
import TransportStream.Proofs.Reassembly.Origin

/-!
# Units have no gaps

At any time each open unit consists of the payloads that arrived last on its PID, from one that
begins a unit on. Whatever was lost, dropped and forgotten before, a unit that becomes pending
is therefore put together from packets that follow each other without a gap, and no packet is
part of two units.
-/

namespace TransportStream.Demuxer

/-- The last of what arrived on a PID is what an open unit consists of. -/
def EndsIn (unit : OpenUnit) (history : List Arrival) : Prop :=
  ∃ own, own <:+ history ∧ unit.ConsistsOf (own.map (·.fragment))

/-- A demultiplexer behind some actions knows the PID of each open unit, and the unit is what
arrived there last. -/
structure Follows (d : Demuxer) (actions : List Action) : Prop where
  /-- Units are open only on elementary streams. -/
  known : ∀ pid unit, d.units[pid]? = some unit → d.tables.hasStream pid = true
  /-- They consist of what arrived last. -/
  endsIn : ∀ pid unit, d.units[pid]? = some unit → EndsIn unit (arrivalsOn pid actions)

variable {d : Demuxer} {actions : List Action} {pid : Nat} {bytes : Bytes} {f : Fragment}

/-- A new demultiplexer has no open units, as nothing has arrived. -/
theorem follows_nil (config : Config) : Follows { config } [] where
  known := by simp
  endsIn := by simp

/-- What arrives with a packet arrives on the PID of its fragment. -/
theorem arrivalsOn_read (h : fragment? bytes = some f) (pid : Nat) (actions : List Action) :
    arrivalsOn pid (actions ++ [.read bytes]) =
      if f.pid = pid then arrivalsOn pid actions ++ [⟨actions.length, f⟩]
      else arrivalsOn pid actions := by
  have hone : Action.fragment? (.read bytes) = some f := h
  rw [arrivalsOn, arrivals_concat rfl, hone, List.filter_append, arrivalsOn]
  by_cases hpid : f.pid = pid <;> simp [hpid]

/-- An action that reads no fragment and forgets nothing lets nothing arrive. -/
theorem arrivalsOn_of_no_fragment {action : Action} (hreset : action.isReset = false)
    (h : action.fragment? = none) (pid : Nat) (actions : List Action) :
    arrivalsOn pid (actions ++ [action]) = arrivalsOn pid actions := by
  rw [arrivalsOn, arrivals_concat hreset, h, arrivalsOn]
  simp

/-- A fragment that extends a unit, or begins another one, is the last of its fragments. -/
theorem EndsIn.append {unit : OpenUnit} {history : List Arrival} {bound place : Nat}
    {before : Option OpenUnit} (hbefore : ∀ previous, before = some previous →
      EndsIn previous history)
    (hopen : (Reassembly.ofFragment bound f before).openUnit = some unit) :
    EndsIn unit (history ++ [⟨place, f⟩]) := by
  rcases (Reassembly.change_ofFragment bound f before).consistsOf hopen with
    hown | ⟨previous, hprevious, hown⟩
  · exact ⟨[⟨place, f⟩], List.suffix_append _ _, hown⟩
  · obtain ⟨own, ⟨earlier, rfl⟩, hconsists⟩ := hbefore previous hprevious
    refine ⟨own ++ [⟨place, f⟩], ⟨earlier, (List.append_assoc _ _ _).symm⟩, ?_⟩
    rw [List.map_append]
    exact hown _ hconsists

/-- If units are open only on elementary streams, so they are behind a packet. -/
theorem known_read (h : ∀ pid unit, d.units[pid]? = some unit → d.tables.hasStream pid = true)
    {unit : OpenUnit} (hunit : (d.read bytes).demuxer.units[pid]? = some unit) :
    (d.read bytes).demuxer.tables.hasStream pid = true := by
  rcases units_read d bytes pid with hsame | ⟨_, _, _, hstream, _⟩
  · rw [hsame] at hunit
    exact hasStream_read (h pid unit hunit) bytes
  · exact hasStream_read hstream bytes

/-- Reading a packet keeps the open units what arrived last. -/
theorem Follows.read (h : d.Follows actions) (bytes : Bytes) :
    (d.read bytes).demuxer.Follows (actions ++ [.read bytes]) := by
  refine ⟨fun pid unit => known_read h.known, ?_⟩
  intro pid unit hunit
  cases hfragment : fragment? bytes with
  | none =>
    have hnone : Action.fragment? (.read bytes) = none := hfragment
    rw [read_of_no_fragment hfragment] at hunit
    rw [arrivalsOn_of_no_fragment rfl hnone]
    exact h.endsIn pid unit hunit
  | some f =>
    rw [arrivalsOn_read hfragment]
    cases hstream : d.tables.hasStream f.pid with
    | true =>
      rw [read_of_hasStream hfragment hstream, units_withReassembly] at hunit
      by_cases hpid : f.pid = pid
      · rw [if_pos hpid] at hunit ⊢
        exact EndsIn.append (fun previous hprevious => h.endsIn pid previous (hpid ▸ hprevious))
          hunit
      · rw [if_neg hpid] at hunit ⊢
        exact h.endsIn pid unit hunit
    | false =>
      rw [read_of_not_hasStream hfragment hstream] at hunit
      -- What is read for the tables is on no PID with an open unit.
      have hpid : f.pid ≠ pid := by
        rintro rfl
        rw [h.known f.pid unit hunit] at hstream
        cases hstream
      rw [if_neg hpid]
      exact h.endsIn pid unit hunit

/-- So does every action. -/
theorem Follows.act (h : d.Follows actions) (action : Action) :
    (d.act action).Follows (actions ++ [action]) := by
  cases action with
  | read bytes => exact h.read bytes
  | take =>
    refine ⟨h.known, fun pid unit hunit => ?_⟩
    rw [arrivalsOn_of_no_fragment rfl rfl]
    exact h.endsIn pid unit hunit
  | reset => exact ⟨by simp [Demuxer.act, reset], by simp [Demuxer.act, reset]⟩

/-- Behind any actions the open units are what arrived last. -/
theorem follows_run (config : Config) (actions : List Action) :
    (({ config } : Demuxer).run actions).Follows actions := by
  induction actions using List.reverseRecOn with
  | nil => exact follows_nil config
  | append_singleton actions action ih =>
    rw [run_concat]
    exact ih.act action

/-- A unit becomes pending if the next packet of its PID begins another one. -/
theorem exists_of_pending {unit : PendingUnit}
    (h : (d.read bytes).demuxer.pending = some unit) :
    ∃ f previous, fragment? bytes = some f ∧ f.pid = unit.pid ∧ f.unitStart = true ∧
      d.units[unit.pid]? = some previous ∧ previous.bytes = unit.bytes ∧
      f.counter = nextCounter previous.counter := by
  obtain ⟨_, hread⟩ | ⟨f, hfragment, _, hread⟩ | ⟨f, _, _, hread⟩ := read_cases d bytes
  · rw [hread] at h
    cases h
  · rw [hread] at h
    obtain ⟨completed, hcompleted, rfl⟩ := Option.map_eq_some_iff.mp h
    obtain ⟨previous, hopen, hbytes, hstart, hcounter⟩ :=
      (Reassembly.change_ofFragment _ f _).completed_eq hcompleted
    exact ⟨f, previous, hfragment, rfl, hstart, hopen, hbytes, hcounter⟩
  · rw [hread] at h
    cases h

/-- The unit that is pending behind the packet at a place among some actions. -/
def pendingAt (d : Demuxer) (actions : List Action) (place : Nat) : Option PendingUnit :=
  match actions[place]? with
  | some (.read bytes) => ((d.run (actions.take place)).read bytes).demuxer.pending
  | _ => none

/-- A unit is put together from packets that arrived on its PID right before the packet at a
place, which completes it. -/
structure PutTogether (actions : List Action) (place : Nat) (unit : PendingUnit)
    (own : List Arrival) : Prop where
  /-- The packet at the place has a payload on the PID, begins a unit, and has the counter behind
  that of the last packet before it. -/
  next : ∃ f, actions[place]?.bind Action.fragment? = some f ∧ f.pid = unit.pid ∧
    f.unitStart = true ∧ Consecutive (own.map (·.fragment) ++ [f])
  /-- The packets are the last ones that arrived on the PID. -/
  suffix : own <:+ arrivalsOn unit.pid (actions.take place)
  /-- The first of them begins a unit, and no other does. -/
  isUnit : IsUnit (own.map (·.fragment))
  /-- The unit is their payloads. -/
  bytes_eq : unit.bytes = (own.map (·.fragment)).flatMap (·.payload)

variable {own own' : List Arrival} {place place' : Nat} {unit unit' : PendingUnit}

/-- The fragments of a unit have arrived before the packet that completes it. -/
theorem PutTogether.mem_arrivals (h : PutTogether actions place unit own) {a : Arrival}
    (ha : a ∈ own) : a ∈ arrivals (actions.take place) :=
  List.mem_of_mem_filter (h.suffix.subset ha)

/-- The packets of a unit come before the packet that completes it. -/
theorem PutTogether.place_lt (h : PutTogether actions place unit own) {a : Arrival}
    (ha : a ∈ own) : a.place < place := by
  have hlt := place_lt_of_mem_arrivals (h.mem_arrivals ha)
  rw [List.length_take] at hlt
  omega

/-- Of the packets of a unit, the one that begins it is the first. -/
theorem place_le_of_unitStart (hunit : IsUnit (own.map (·.fragment)))
    (hordered : own.Pairwise fun a b => a.place < b.place) {first : Arrival} (hfirst : first ∈ own)
    (hstart : first.fragment.unitStart = true) {a : Arrival} (ha : a ∈ own) :
    first.place ≤ a.place := by
  obtain ⟨_, others, hown, _, hothers⟩ := hunit
  obtain ⟨b, rest, rfl, rfl, rfl⟩ := List.map_eq_cons_iff.mp hown
  rcases List.mem_cons.mp hfirst with rfl | hrest
  · rcases List.mem_cons.mp ha with rfl | ha
    · exact Nat.le_refl _
    · exact Nat.le_of_lt (List.rel_of_pairwise_cons hordered ha)
  · rw [hothers _ (List.mem_map_of_mem hrest)] at hstart
    cases hstart

/-- The packets of a unit do not come before a packet of their PID that completed another one. -/
theorem PutTogether.le_place (h : PutTogether actions place unit own)
    (h' : PutTogether actions place' unit' own') (hpid : unit.pid = unit'.pid)
    (hlt : place < place') {a : Arrival} (ha : a ∈ own') : place ≤ a.place := by
  obtain ⟨f, hf, hfpid, hfstart, -⟩ := h.next
  obtain ⟨action, haction, hfragment⟩ := Option.bind_eq_some_iff.mp hf
  obtain ⟨hplace, hget⟩ := List.getElem?_eq_some_iff.mp haction
  have hlength : (actions.take place).length = place := List.length_take_of_le (by omega)
  obtain ⟨later, hsplit⟩ :
      ∃ later, actions.take place' = actions.take place ++ action :: later := by
    obtain ⟨n, rfl⟩ := Nat.exists_eq_add_of_lt hlt
    refine ⟨(actions.drop (place + 1)).take n, ?_⟩
    rw [Nat.add_assoc, List.take_add, ← List.getElem_cons_drop hplace, hget, List.take_succ_cons]
  have hmem := mem_arrivals_or_lt (actions.take place) later hfragment
  rw [← hsplit, hlength] at hmem
  rcases hmem with hmem | hbehind
  · -- The packet arrived on the PID of the later unit, so that it is before its packets or the
    -- first of them.
    obtain ⟨earlier, hown⟩ := h'.suffix
    have hordered := (pairwise_arrivals (actions.take place')).filter
      (·.fragment.pid == unit'.pid)
    have hon : ⟨place, f⟩ ∈ arrivalsOn unit'.pid (actions.take place') :=
      List.mem_filter.mpr ⟨hmem, by simp [hfpid, hpid]⟩
    rw [arrivalsOn] at hown hon
    rw [← hown] at hon hordered
    obtain ⟨_, hordered', hbefore⟩ := List.pairwise_append.mp hordered
    rcases List.mem_append.mp hon with hon | hon
    · exact Nat.le_of_lt (hbefore _ hon a ha)
    · exact place_le_of_unitStart h'.isUnit hordered' hon hfstart ha
  · exact Nat.le_of_lt (hbehind a (h'.mem_arrivals ha))

/-- The packets of a unit stand at their places, and have their payloads on its PID. -/
theorem PutTogether.fragment_at (h : PutTogether actions place unit own) {a : Arrival}
    (ha : a ∈ own) :
    actions[a.place]?.bind Action.fragment? = some a.fragment ∧ a.fragment.pid = unit.pid := by
  constructor
  · have hfound := fragment?_of_mem_arrivals (h.mem_arrivals ha)
    rwa [List.getElem?_take_of_lt (h.place_lt ha)] at hfound
  · have hmem := h.suffix.subset ha
    rw [arrivalsOn, List.mem_filter] at hmem
    simpa using hmem.2

/-- Two units that were completed one after the other have no packet in common. -/
theorem PutTogether.disjoint (h : PutTogether actions place unit own)
    (h' : PutTogether actions place' unit' own') (hlt : place < place') :
    (own.map (·.place)).Disjoint (own'.map (·.place)) := by
  intro p hp hp'
  obtain ⟨a, ha, rfl⟩ := List.mem_map.mp hp
  obtain ⟨b, hb, hsame⟩ := List.mem_map.mp hp'
  obtain ⟨hfound, hon⟩ := h.fragment_at ha
  obtain ⟨hfound', hon'⟩ := h'.fragment_at hb
  have hfragment : a.fragment = b.fragment := by
    rw [hsame, hfound] at hfound'
    exact Option.some.inj hfound'
  have hpid : unit.pid = unit'.pid := by rw [← hon, ← hon', hfragment]
  have hle := h.le_place h' hpid hlt hb
  have hplace := h.place_lt ha
  omega

/-- A unit that becomes pending in a run is put together from what arrived last. -/
theorem exists_putTogether (config : Config)
    (h : pendingAt { config } actions place = some unit) :
    ∃ own, PutTogether actions place unit own := by
  unfold pendingAt at h
  split at h
  case h_2 => cases h
  case h_1 bytes haction =>
    obtain ⟨f, previous, hfragment, hpid, hstart, hopen, hbytes, hcounter⟩ := exists_of_pending h
    obtain ⟨own, hsuffix, hown⟩ :=
      (follows_run config (actions.take place)).endsIn unit.pid previous hopen
    refine ⟨own, ⟨f, ?_, hpid, hstart, ?_⟩, hsuffix, hown.isUnit, ?_⟩
    · rw [haction]
      exact hfragment
    · exact Reassembly.consecutive_of_next hown hcounter
    · rw [← hbytes, hown.bytes_eq]

/-- Whatever is read and however often everything is forgotten, a unit that becomes pending is
put together from the packets that arrived on its PID right before the one that completes it:
they follow each other without a gap, and so does that one. No packet is part of two units. -/
theorem pending_is_gapless (config : Config) (actions : List Action) :
    (∀ place unit, pendingAt { config } actions place = some unit →
      ∃ own, PutTogether actions place unit own) ∧
      ∀ place place' unit unit' own own', place ≠ place' → PutTogether actions place unit own →
        PutTogether actions place' unit' own' →
        (own.map (·.place)).Disjoint (own'.map (·.place)) := by
  constructor
  · intro place unit h
    exact exists_putTogether config h
  · intro place place' unit unit' own own' hne h h'
    rcases Nat.lt_or_gt_of_ne hne with hlt | hgt
    · exact h.disjoint h' hlt
    · intro p hown hown'
      exact h'.disjoint h hgt hown' hown

/-- A unit of two packets is completed. The next one loses a packet, and the one behind it is
complete again. -/
theorem pending_is_gapless_around_loss :
    let association : Bytes :=
      [0x00, 0xb0, 0x0d, 0x00, 0x01, 0xc1, 0x00, 0x00, 0x00, 0x01, 0xe0, 0x20, 0, 0, 0, 0]
    let listing : Bytes :=
      [0x02, 0xb0, 0x12, 0x00, 0x01, 0xc1, 0x00, 0x00, 0xe0, 0x41, 0xf0, 0x00, 0x1b, 0xe0, 0x41,
        0xf0, 0x00, 0, 0, 0, 0]
    let body (byte : UInt8) : Bytes := List.replicate 184 byte
    let actions : List Action :=
      [.read ([0x47, 0x40, 0x00, 0x10, 0x00] ++ association ++ List.replicate 167 0xff),
        .read ([0x47, 0x40, 0x20, 0x10, 0x00] ++ listing ++ List.replicate 162 0xff),
        .read ([0x47, 0x40, 0x41, 0x1f] ++ body 1), .read ([0x47, 0x00, 0x41, 0x10] ++ body 2),
        .read ([0x47, 0x40, 0x41, 0x11] ++ body 3), .read ([0x47, 0x00, 0x41, 0x13] ++ body 3),
        .read ([0x47, 0x40, 0x41, 0x14] ++ body 4), .read ([0x47, 0x40, 0x41, 0x15] ++ body 5)]
    pendingAt {} actions 4 = some ⟨0x41, body 1 ++ body 2⟩ ∧
      pendingAt {} actions 7 = some ⟨0x41, body 4⟩ ∧
      ∃ own own', PutTogether actions 4 ⟨0x41, body 1 ++ body 2⟩ own ∧
        PutTogether actions 7 ⟨0x41, body 4⟩ own' ∧
        (own.map (·.place)).Disjoint (own'.map (·.place)) := by
  intro association listing body actions
  have hfirst : pendingAt {} actions 4 = some ⟨0x41, body 1 ++ body 2⟩ := by decide +kernel
  have hsecond : pendingAt {} actions 7 = some ⟨0x41, body 4⟩ := by decide +kernel
  obtain ⟨hexists, hdisjoint⟩ := pending_is_gapless {} actions
  obtain ⟨own, hown⟩ := hexists 4 _ hfirst
  obtain ⟨own', hown'⟩ := hexists 7 _ hsecond
  exact ⟨hfirst, hsecond, own, own', hown, hown', hdisjoint 4 7 _ _ own own' (by decide) hown hown'⟩

end TransportStream.Demuxer
