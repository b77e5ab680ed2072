import Mathlib.Algebra.Order.BigOperators.Group.Finset
import TransportStream.Proofs.Demuxer.Counts
import TransportStream.Proofs.Reassembly.Loss

/-!
# Demultiplexing when packets get lost

Packets of several elementary streams are sent, interleaved in any way, and some do not
arrive. The main statement says what a loss can do to the units of a stream: it never
makes a wrong unit, it costs only the units around it, and it is counted at most once.
-/

namespace TransportStream.Demuxer

/-- A packet with a payload. -/
structure SentPacket where
  /-- The bytes of the packet. -/
  bytes : Bytes
  /-- The fragment in it. -/
  fragment : Fragment
  /-- The bytes carry the fragment. -/
  fragment_eq : fragment? bytes = some fragment

/-- The fragments on a PID that are sent, each with whether it arrives. -/
def sentOn (pid : Nat) (sent : List (SentPacket × Bool)) : List (Fragment × Bool) :=
  (sent.filter (·.1.fragment.pid == pid)).map fun x => (x.1.fragment, x.2)

/-- The bytes of the packets that arrive. -/
def received (sent : List (SentPacket × Bool)) : List Bytes := (arrived sent).map (·.bytes)

variable {d : Demuxer} {pid : Nat} {inputs : List Bytes}

/-- What is received of packets after others comes after what is received of those. -/
theorem received_append (first later : List (SentPacket × Bool)) :
    received (first ++ later) = received first ++ received later := by
  simp [received, arrived]

/-- On a PID, packets after others are sent after those. -/
theorem sentOn_append (pid : Nat) (first later : List (SentPacket × Bool)) :
    sentOn pid (first ++ later) = sentOn pid first ++ sentOn pid later := by
  simp [sentOn]

/-- The fragments on a PID that are received are those sent on it that arrive. -/
theorem fragmentsOn_received (pid : Nat) (sent : List (SentPacket × Bool)) :
    fragmentsOn pid (received sent) = arrived (sentOn pid sent) := by
  induction sent with
  | nil => rfl
  | cons x sent ih =>
    obtain ⟨packet, arrives⟩ := x
    have hfirst : received ((packet, arrives) :: sent) =
        received [(packet, arrives)] ++ received sent := received_append [_] sent
    have hsent : sentOn pid ((packet, arrives) :: sent) =
        sentOn pid [(packet, arrives)] ++ sentOn pid sent := sentOn_append pid [_] sent
    rw [hfirst, hsent, fragmentsOn_append, ih]
    by_cases hpid : packet.fragment.pid = pid <;> cases arrives <;>
      simp [received, arrived, sentOn, fragmentsOn, packet.fragment_eq, hpid]

/-- If all PIDs of some packets are known as elementary streams, each of their packets finds
its PID known. -/
theorem routed_of_forall (h : ∀ bytes ∈ inputs, carries pid bytes = true →
    d.tables.hasStream pid = true) : d.Routed pid inputs := by
  intro s hs hcarries
  obtain ⟨before, after, hinputs, _⟩ := exists_of_mem_steps hs
  have hstream := h s.bytes (by simp [hinputs]) hcarries
  exact routed_of_hasStream hstream inputs s hs hcarries

/-- Packets of elementary streams that are known and have no open unit. -/
def Fresh (d : Demuxer) (sent : List (SentPacket × Bool)) : Prop :=
  ∀ x ∈ sent, d.tables.hasStream x.1.fragment.pid = true ∧ d.units[x.1.fragment.pid]? = none

/-- A packet that is sent carries the PID of its fragment. -/
theorem carries_bytes (pid : Nat) (packet : SentPacket) :
    carries pid packet.bytes = (packet.fragment.pid == pid) :=
  carries_of_fragment packet.fragment_eq pid

/-- What is received are the packets that arrive. -/
theorem mem_received {sent : List (SentPacket × Bool)} {bytes : Bytes} :
    bytes ∈ received sent ↔ ∃ packet, (packet, true) ∈ sent ∧ packet.bytes = bytes := by
  simp [received, arrived]

variable {sent : List (SentPacket × Bool)}

/-- Where all streams are known beforehand, every packet that arrives goes to its unit. -/
theorem Fresh.routed (h : d.Fresh sent) (pid : Nat) : d.Routed pid (received sent) := by
  refine routed_of_forall fun bytes hbytes hcarries => ?_
  obtain ⟨packet, hmem, rfl⟩ := mem_received.mp hbytes
  rw [carries_bytes, beq_iff_eq] at hcarries
  exact hcarries ▸ (h _ hmem).1

/-- On a PID with a packet no unit is open at first, and on others none is needed. -/
theorem Fresh.trace_eq (h : d.Fresh sent) (pid bound : Nat) :
    Reassembly.trace bound (fragmentsOn pid (received sent)) d.units[pid]? =
      Reassembly.trace bound (arrived (sentOn pid sent)) none := by
  rw [fragmentsOn_received]
  by_cases hpid : ∃ x ∈ sent, x.1.fragment.pid = pid
  · obtain ⟨x, hmem, rfl⟩ := hpid
    rw [(h x hmem).2]
  · have hnone : sentOn pid sent = [] := by
      rw [sentOn, List.map_eq_nil_iff, List.filter_eq_nil_iff]
      intro x hmem hx
      exact hpid ⟨x, hmem, by simpa using hx⟩
    rw [hnone]
    rfl

/-- The units that become pending on a PID are units that were sent on it. -/
theorem Fresh.unitsOn_sublist (h : d.Fresh sent) (hclean : Clean ((sentOn pid sent).map (·.1)))
    (hturn : NoFullTurn ((sentOn pid sent).map (·.2))) :
    ((d.unitsOn pid (received sent)).map (·.bytes)).Sublist
      (unitsOf ((sentOn pid sent).map (·.1))) := by
  rw [unitsOn_eq_trace (h.routed pid), h.trace_eq]
  exact Reassembly.completions_sublist_unitsOf _ _ hclean hturn

/-- The count of losses grows by at most one for each gap in the packets of a PID. -/
theorem Fresh.lossCount_le (h : d.Fresh sent)
    (hclean : ∀ pid, Clean ((sentOn pid sent).map (·.1))) :
    (d.readAll (received sent)).lossCount ≤ d.lossCount +
      ∑ pid ∈ (sent.map (·.1.fragment.pid)).toFinset, gapCount ((sentOn pid sent).map (·.2)) := by
  have hpids : ∀ s ∈ d.steps (received sent), s.losses ≠ 0 →
      ∃ f, fragment? s.bytes = some f ∧ f.pid ∈ (sent.map (·.1.fragment.pid)).toFinset := by
    intro s hs _
    obtain ⟨before, after, hinputs, _⟩ := exists_of_mem_steps hs
    obtain ⟨packet, hmem, hbytes⟩ := mem_received.mp (hinputs ▸ List.mem_append_cons_self)
    refine ⟨packet.fragment, hbytes ▸ packet.fragment_eq, ?_⟩
    rw [List.mem_toFinset]
    exact List.mem_map.mpr ⟨(packet, true), hmem, rfl⟩
  rw [(counts_readAll d _).1, sum_eq_sum_carries _ _ _ hpids]
  refine Nat.add_le_add_left (Finset.sum_le_sum fun pid _ => ?_) _
  rw [(counts_eq_trace (h.routed pid)).1, h.trace_eq]
  exact Reassembly.losses_le_gapCount _ _ (hclean pid)

/-- A unit that is open behind what arrived of some fragments has the counter of the last
one of them, if this arrived. -/
theorem counter_openAfter {bound : Nat} {earlier : List (Fragment × Bool)}
    (hlast : ∀ x ∈ earlier.getLast?, x.2 = true) {u : OpenUnit}
    (hu : u ∈ Reassembly.openAfter bound (arrived earlier) none) :
    ∃ x ∈ earlier.getLast?, u.counter = x.1.counter := by
  rcases List.eq_nil_or_concat earlier with rfl | ⟨first, x, rfl⟩
  · cases hu
  · rw [List.concat_eq_append] at hlast hu ⊢
    obtain ⟨f, arrives⟩ := x
    obtain rfl : arrives = true := hlast (f, arrives) (by simp)
    refine ⟨(f, true), by simp, ?_⟩
    have hsplit : arrived (first ++ [(f, true)]) = arrived first ++ [f] := by simp [arrived]
    rw [hsplit, Reassembly.openAfter_append] at hu
    exact Reassembly.counter_ofFragment hu

/-- A unit whose fragments all arrive, together with the fragment before it and the one
that begins the next unit, becomes pending when the latter is read. -/
theorem Fresh.pending_of_arrived (h : d.Fresh sent) {before after : List (SentPacket × Bool)}
    {next : SentPacket} (hsent : sent = before ++ (next, true) :: after)
    (hclean : Clean ((sentOn next.fragment.pid sent).map (·.1)))
    (hsize : ∀ unit ∈ unitsOf ((sentOn next.fragment.pid sent).map (·.1)),
      unit.length ≤ d.config.maxUnitSize)
    {earlier own : List (Fragment × Bool)}
    (hsplit : sentOn next.fragment.pid before = earlier ++ own)
    (hunit : IsUnit (own.map (·.1))) (hnext : next.fragment.unitStart = true)
    (hown : ∀ x ∈ own, x.2 = true) (hlast : ∀ x ∈ earlier.getLast?, x.2 = true) :
    ((d.readAll (received before)).read next.bytes).demuxer.pending =
      some ⟨next.fragment.pid, (own.map (·.1)).flatMap (·.payload)⟩ := by
  have hmem : (next, true) ∈ sent := by simp [hsent]
  obtain ⟨hstream, hnone⟩ := h _ hmem
  have hbefore : d.Fresh before := by
    intro x hx
    exact h x (by simp [hsent, hx])
  -- All fragments on the PID, and those that are open when the next unit begins.
  have hall : (sentOn next.fragment.pid sent).map (·.1) = earlier.map (·.1) ++
      (own.map (·.1) ++ next.fragment :: (sentOn next.fragment.pid after).map (·.1)) := by
    have hhere : sentOn next.fragment.pid ((next, true) :: after) =
        (next.fragment, true) :: sentOn next.fragment.pid after := by simp [sentOn]
    rw [hsent, sentOn_append, hhere, hsplit]
    simp
  have harrived : arrived own = own.map (·.1) := by
    rw [arrived, List.filter_eq_self.mpr hown]
  have hopen := (effectsOn_eq_trace (hbefore.routed next.fragment.pid)).2
  have hparts : fragmentsOn next.fragment.pid (received before) =
      arrived earlier ++ own.map (·.1) := by
    rw [fragmentsOn_received, hsplit, ← harrived]
    simp [arrived]
  rw [hnone, hparts, Reassembly.openAfter_append] at hopen
  have hconsecutive := hclean.consecutive
  rw [hall] at hconsecutive hsize
  obtain ⟨_, hlater, hjoint⟩ := List.isChain_append.mp hconsecutive
  rw [List.append_cons] at hlater
  -- The unit that is open before the first fragment of this one is continued by it.
  have hcontinues : ∀ u ∈ Reassembly.openAfter d.config.maxUnitSize (arrived earlier) none,
      ∀ f ∈ (own.map (·.1)).head?, f.counter = nextCounter u.counter := by
    intro u hu f hf
    obtain ⟨x, hx, hcounter⟩ := counter_openAfter hlast hu
    rw [hcounter]
    refine hjoint x.1 ?_ f ?_
    · rw [List.getLast?_map]
      exact Option.mem_map_of_mem _ hx
    · exact List.mem_head?_append_of_mem_head? hf
  have hcompleted := Reassembly.completed_of_isUnit hunit hnext (List.isChain_append.mp hlater).1
    (hsize _ (mem_unitsOf hunit hnext _ _)) hcontinues
  rw [read_of_hasStream next.fragment_eq (hasStream_readAll hstream _), config_readAll, hopen]
  simp only [withReassembly, hcompleted, Option.map_some]

/-- Let clean sequences of packets be sent, interleaved, on elementary streams that are known
and have no open unit, let their units be small enough, and let some packets get lost.

Where no whole turn of its counter gets lost at once, the units that become pending on a PID
are units that were sent on it, in their order and each once. In any case a unit becomes
pending if all its packets arrive, the packet of its PID before it, and the first one of
the next unit. The count of losses grows by at most one for each gap in the packets of a
PID. -/
theorem loss_is_contained (d : Demuxer) (sent : List (SentPacket × Bool)) (hfresh : d.Fresh sent)
    (hclean : ∀ pid, Clean ((sentOn pid sent).map (·.1)))
    (hsize : ∀ pid, ∀ unit ∈ unitsOf ((sentOn pid sent).map (·.1)),
      unit.length ≤ d.config.maxUnitSize) :
    (∀ pid, NoFullTurn ((sentOn pid sent).map (·.2)) →
        ((d.unitsOn pid (received sent)).map (·.bytes)).Sublist
          (unitsOf ((sentOn pid sent).map (·.1)))) ∧
      (∀ before next after earlier own, sent = before ++ (next, true) :: after →
        sentOn next.fragment.pid before = earlier ++ own → IsUnit (own.map (·.1)) →
        next.fragment.unitStart = true → (∀ x ∈ own, x.2 = true) →
        (∀ x ∈ earlier.getLast?, x.2 = true) →
        ((d.readAll (received before)).read next.bytes).demuxer.pending =
          some ⟨next.fragment.pid, (own.map (·.1)).flatMap (·.payload)⟩) ∧
      (d.readAll (received sent)).lossCount ≤ d.lossCount +
        ∑ pid ∈ (sent.map (·.1.fragment.pid)).toFinset,
          gapCount ((sentOn pid sent).map (·.2)) := by
  refine ⟨fun pid hturn => hfresh.unitsOn_sublist (hclean pid) hturn, ?_,
    hfresh.lossCount_le hclean⟩
  intro before next after earlier own hsent hsplit hunit hnext hown hlast
  exact hfresh.pending_of_arrived hsent (hclean _) (hsize _) hsplit hunit hnext hown hlast

/-- Of the units on PID 0x41 the second one loses a packet, and the packet that shows the loss
is dropped with it. The first and the fourth unit are complete. -/
theorem loss_is_contained_second_of_five_units :
    let stream : ElementaryStream := ⟨.avcVideo, 0x41, []⟩
    let table : ProgramMap := ⟨⟨mapTableId, true, 1, 0, true, 0, 0⟩, 0x41, [], [stream], 0⟩
    let programs := (∅ : Std.ExtTreeMap Nat Program).insert 0x20 (.mapped table)
    let d : Demuxer := { tables := { programs } }
    let body (byte : UInt8) : Bytes := List.replicate 184 byte
    let first : SentPacket :=
      ⟨[0x47, 0x40, 0x41, 0x1f] ++ body 1, ⟨0x41, true, 15, body 1⟩, by decide +kernel⟩
    let second : SentPacket :=
      ⟨[0x47, 0x40, 0x41, 0x10] ++ body 2, ⟨0x41, true, 0, body 2⟩, by decide +kernel⟩
    let rest : SentPacket :=
      ⟨[0x47, 0x00, 0x41, 0x11] ++ body 2, ⟨0x41, false, 1, body 2⟩, by decide +kernel⟩
    let third : SentPacket :=
      ⟨[0x47, 0x40, 0x41, 0x12] ++ body 3, ⟨0x41, true, 2, body 3⟩, by decide +kernel⟩
    let fourth : SentPacket :=
      ⟨[0x47, 0x40, 0x41, 0x13] ++ body 4, ⟨0x41, true, 3, body 4⟩, by decide +kernel⟩
    let fifth : SentPacket :=
      ⟨[0x47, 0x40, 0x41, 0x14] ++ body 5, ⟨0x41, true, 4, body 5⟩, by decide +kernel⟩
    let before := [(first, true), (second, true), (rest, false), (third, true), (fourth, true)]
    let sent := before ++ [(fifth, true)]
    d.Fresh sent ∧
      (∀ pid, Clean ((sentOn pid sent).map (·.1))) ∧
      (∀ pid, ∀ unit ∈ unitsOf ((sentOn pid sent).map (·.1)),
        unit.length ≤ d.config.maxUnitSize) ∧
      NoFullTurn ((sentOn 0x41 sent).map (·.2)) ∧
      ((d.unitsOn 0x41 (received sent)).map (·.bytes)).Sublist
        [body 1, body 2 ++ body 2, body 3, body 4, body 5] ∧
      ((d.readAll (received before)).read fifth.bytes).demuxer.pending =
        some ⟨0x41, body 4⟩ ∧
      (d.readAll (received sent)).lossCount ≤ 1 := by
  intro stream table programs d body first second rest third fourth fifth before sent
  have hstream : d.tables.hasStream 0x41 = true :=
    Tables.hasStream_iff.mpr ⟨0x20, table, by simp [d, programs], by decide⟩
  have hfresh : d.Fresh sent := by
    intro x hx
    have hpid : x.1.fragment.pid = 0x41 := by
      revert x
      decide
    rw [hpid]
    exact ⟨hstream, rfl⟩
  have hother : ∀ pid, pid ≠ 0x41 → sentOn pid sent = [] := by
    intro pid hpid
    simp [sentOn, sent, before, first, second, rest, third, fourth, fifth, Ne.symm hpid]
  have hclean : ∀ pid, Clean ((sentOn pid sent).map (·.1)) := by
    intro pid
    by_cases hpid : pid = 0x41
    · subst hpid
      exact ⟨by decide, by unfold Consecutive; decide⟩
    · rw [hother pid hpid]
      exact ⟨by simp, List.isChain_nil⟩
  have hsize : ∀ pid, ∀ unit ∈ unitsOf ((sentOn pid sent).map (·.1)),
      unit.length ≤ d.config.maxUnitSize := by
    intro pid
    by_cases hpid : pid = 0x41
    · subst hpid
      decide +kernel
    · rw [hother pid hpid]
      simp [unitsOf]
  have hturn : NoFullTurn ((sentOn 0x41 sent).map (·.2)) := by
    intro before gap after hsplit _ hturn
    have hlength := congrArg List.length hsplit
    have hsent : ((sentOn 0x41 sent).map (·.2)).length = 6 := rfl
    simp only [hsent, List.length_append, List.length_cons] at hlength
    exact List.eq_nil_of_length_eq_zero (Nat.eq_zero_of_dvd_of_lt hturn (by omega))
  obtain ⟨hsublist, hpending, hcount⟩ := loss_is_contained d sent hfresh hclean hsize
  refine ⟨hfresh, hclean, hsize, hturn, hsublist 0x41 hturn, ?_, hcount⟩
  rw [← List.append_nil (body 4)]
  exact hpending before fifth [] [(first.fragment, true), (second.fragment, true),
    (rest.fragment, false), (third.fragment, true)] [(fourth.fragment, true)] rfl rfl
    ⟨fourth.fragment, [], rfl, rfl, by simp⟩ rfl (by simp) (by simp)

end TransportStream.Demuxer
