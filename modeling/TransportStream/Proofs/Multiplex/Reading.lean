import TransportStream.Proofs.Demuxer.Counts
import TransportStream.Proofs.Multiplex.Tables
import TransportStream.Proofs.Packetizer.Alignment
import TransportStream.Proofs.Reassembly.Intact

/-!
# Reading the packets of a multiplex

A demultiplexer that reads the packets of a multiplex knows the tables that have been sent,
so that each stream is known whenever one of its packets arrives. Its units are therefore
those that its fragments give by themselves.
-/

namespace TransportStream

namespace WrittenPacket

variable (sent : WrittenPacket)

/-- A packet that was written decodes to itself. -/
theorem decode_bytes : Packet.decode sent.bytes = .ok sent.packet :=
  Packet.decode_of_writes sent.writable sent.writes

/-- The fragment of a packet that was written is the one it was given. -/
theorem fragment?_bytes : fragment? sent.bytes = sent.packet.fragment? :=
  Packet.fragment?_of_writes sent.writable sent.writes

/-- A packet that was written has the size of a packet and begins with the sync byte. -/
theorem isPacket_bytes : IsPacket sent.bytes := by
  obtain ⟨sync, head, adaptation, behind, hbytes, hsync, _⟩ :=
    Packet.split_of_writes sent.writable sent.writes
  obtain ⟨byte, rfl, hbyte⟩ := Layout.eq_byte_of_writes (by decide) hsync
  constructor
  · have hlength := sent.writes.length_eq
    rw [sent.writable.2.2] at hlength
    omega
  · rw [hbytes, UInt8.toNat_inj.mp hbyte]
    rfl

end WrittenPacket

namespace Multiplex

variable {m : Multiplex} {packets before after : List WrittenPacket} {sent : WrittenPacket}
  {d : Demuxer} {pid : Nat}

/-- The bytes of some packets. -/
def inputsOf (packets : List WrittenPacket) : List Bytes := packets.map (·.bytes)

/-- The fragments that are read on a PID are those that were written for it. -/
theorem fragmentsOn_inputsOf (pid : Nat) (packets : List WrittenPacket) :
    fragmentsOn pid (inputsOf packets) = fragmentsIn pid packets := by
  rw [fragmentsOn, fragmentsIn, inputsOf, List.filterMap_map]
  congr 2
  funext sent
  exact sent.fragment?_bytes

/-- The fragments of packets behind others come behind theirs. -/
theorem fragmentsIn_append (pid : Nat) (first later : List WrittenPacket) :
    fragmentsIn pid (first ++ later) = fragmentsIn pid first ++ fragmentsIn pid later := by
  simp [fragmentsIn]

/-- What is sent up to some packet may be sent by itself, apart from the units. -/
theorem Sends.maySend (h : m.Sends (before ++ sent :: after)) : m.MaySend before sent.packet :=
  h.allowed before sent after rfl

/-- Only the association table may come first. -/
theorem ne_nil_of_maySend (h : m.MaySend before sent.packet)
    (hnot : sent.packet.pid ≠ associationPid ∨ sent.packet.payload = none) : before ≠ [] := by
  cases h with
  | association payload hpid _ hpayload _ =>
    rcases hnot with hnot | hnot
    · exact absurd hpid hnot
    · rw [hnot] at hpayload
      cases hpayload
  | piece other hother _ _ _ => exact List.ne_nil_of_mem hother
  | map hbefore _ _ => exact hbefore
  | noPayload hbefore _ => exact hbefore
  | noSection hbefore _ _ => exact hbefore
  | foreign hbefore _ _ _ => exact hbefore

/-- The tables are known behind each packet, and each packet can be read. -/
theorem Known.read_packet (h : m.Known before d.tables) (hmay : m.MaySend before sent.packet) :
    (d.read sent.bytes).result = .ok () ∧
      m.Known (before ++ [sent]) (d.read sent.bytes).demuxer.tables := by
  simp only [Demuxer.read, sent.decode_bytes]
  cases hpayload : sent.packet.payload with
  | none =>
    refine ⟨rfl, h.keep (ne_nil_of_maySend hmay (.inr hpayload)) ?_⟩
    intro table hmaps
    obtain ⟨payload, hsome, _⟩ := hmaps.points
    rw [hpayload] at hsome
    cases hsome
  | some payload =>
    simp only [Demuxer.readPayload]
    cases hstream : d.tables.hasStream sent.packet.pid with
    | true =>
      have hmem := h.mem_streamPids hstream
      have hpid := (m.streamPids_separate _ hmem).1
      refine ⟨rfl, h.keep (ne_nil_of_maySend hmay (.inl hpid)) fun table hmaps => ?_⟩
      exact (m.mapPids_separate _ hmaps.announced).2.2 hmem
    | false => exact h.read hmay hpayload hstream

/-- A demultiplexer that has seen nothing yet. -/
structure Idle (d : Demuxer) : Prop where
  /-- No table is known. -/
  tables : d.tables = {}
  /-- No unit is open. -/
  units : ∀ pid : Nat, d.units[pid]? = none

/-- Behind the first packets, the tables in them are known. -/
theorem Sends.known (h : m.Sends (before ++ after)) (hidle : Idle d) :
    m.Known before (d.readAll (inputsOf before)).tables := by
  induction before using List.reverseRecOn generalizing after with
  | nil =>
    rw [inputsOf, List.map_nil, Demuxer.readAll, hidle.tables]
    exact known_nil m
  | append_singleton before sent ih =>
    rw [List.append_assoc] at h
    have hbefore := ih h
    have hread := (hbefore.read_packet h.maySend).2
    rwa [inputsOf, List.map_append, Demuxer.readAll_append]

/-- A packet of an elementary stream finds its stream known. -/
theorem Known.hasStream_of_maySend (h : m.Known before d.tables)
    (hmay : m.MaySend before sent.packet) (hpayload : sent.packet.payload ≠ none)
    (hmem : sent.packet.pid ∈ m.streamPids) : d.tables.hasStream sent.packet.pid = true := by
  have hseparate := (m.streamPids_separate _ hmem).1
  have hnotMap : sent.packet.pid ∉ m.mapPids := by
    intro hmap
    exact (m.mapPids_separate _ hmap).2.2 hmem
  cases hmay with
  | association _ hpid _ _ _ => exact absurd hpid hseparate
  | map _ table hmaps => exact absurd hmaps.announced hnotMap
  | piece other hother table hmaps hlisted => exact h.hasStream hother hmaps hlisted
  | noPayload _ hnone => exact absurd hnone hpayload
  | noSection _ hpid _ =>
    rcases hpid with hpid | hpid
    · exact absurd hpid hseparate
    · exact absurd hpid hnotMap
  | foreign _ _ _ hstream => exact absurd hmem hstream

/-- The packets of an elementary stream find it known. -/
theorem Sends.routed (h : m.Sends (before ++ after)) (hidle : Idle d) (hpid : pid ∈ m.streamPids) :
    d.Routed pid (inputsOf before) := by
  intro s hs hcarries
  obtain ⟨earlier, later, hinputs, hbefore⟩ := Demuxer.exists_of_mem_steps hs
  obtain ⟨first, _, rfl, rfl, hrest⟩ := List.map_eq_append_iff.mp hinputs
  obtain ⟨sent, rest, rfl, hbytes, rfl⟩ := List.map_eq_cons_iff.mp hrest
  rw [List.append_assoc, List.cons_append] at h
  have hknown := h.known hidle
  obtain ⟨f, hfragment, hf⟩ : ∃ f, fragment? s.bytes = some f ∧ f.pid = pid := by
    simpa [Demuxer.Step.carries, carries, Option.any_eq_true] using hcarries
  rw [← hbytes, sent.fragment?_bytes, Packet.fragment?, Option.map_eq_some_iff] at hfragment
  obtain ⟨payload, hpayload, rfl⟩ := hfragment
  subst hf
  rw [hbefore]
  exact hknown.hasStream_of_maySend h.maySend (by simp [hpayload]) hpid

/-- The fragments of the first packets on an elementary stream are clean. -/
theorem Sends.clean (h : m.Sends (before ++ after)) (hpid : pid ∈ m.streamPids) :
    Clean (fragmentsIn pid before) := by
  have hall := clean_cut pid (m.pieces_ne_nil pid) (m.firstCounter pid)
  rw [← h.pieces pid hpid, fragmentsIn_append] at hall
  exact hall.of_append

/-- Behind the first packets, the open unit of an elementary stream is that of its fragments. -/
theorem Sends.units (h : m.Sends (before ++ after)) (hidle : Idle d) (hpid : pid ∈ m.streamPids) :
    (d.readAll (inputsOf before)).units[pid]? =
      Reassembly.openAfter d.config.maxUnitSize (fragmentsIn pid before) none := by
  rw [(Demuxer.effectsOn_eq_trace (h.routed hidle hpid)).2, hidle.units, fragmentsOn_inputsOf]

/-- Each packet can be read, and makes the unit pending that is due. -/
theorem Sends.read (h : m.Sends (before ++ sent :: after)) (hidle : Idle d) :
    ((d.readAll (inputsOf before)).read sent.bytes).result = .ok () ∧
      ((d.readAll (inputsOf before)).read sent.bytes).demuxer.pending =
        m.due d.config.maxUnitSize before sent.packet := by
  have hknown := h.known hidle
  refine ⟨(hknown.read_packet h.maySend).1, ?_⟩
  have hfragment := sent.fragment?_bytes
  unfold due
  cases hpayload : sent.packet.payload with
  | none =>
    rw [Packet.fragment?, hpayload] at hfragment
    rw [Demuxer.read_of_no_fragment hfragment, if_neg (by simp)]
  | some payload =>
    rw [Packet.fragment?, hpayload] at hfragment
    by_cases hpid : sent.packet.pid ∈ m.streamPids
    · have hstream := hknown.hasStream_of_maySend h.maySend (by simp [hpayload]) hpid
      have hclean : Clean (fragmentsIn sent.packet.pid before ++
          [⟨sent.packet.pid, sent.packet.unitStart, sent.packet.counter, payload⟩]) := by
        have hhere : fragmentsIn sent.packet.pid [sent] =
            [⟨sent.packet.pid, sent.packet.unitStart, sent.packet.counter, payload⟩] := by
          simp [fragmentsIn, Packet.fragment?, hpayload]
        rw [List.append_cons] at h
        rw [← hhere, ← fragmentsIn_append]
        exact h.clean hpid
      have hcompleted := Reassembly.completed_of_clean d.config.maxUnitSize hclean
      rw [Demuxer.read_of_hasStream hfragment hstream, Demuxer.config_readAll, h.units hidle hpid]
      simp only [Demuxer.withReassembly, hcompleted]
      cases hstart : sent.packet.unitStart <;> simp [hpid]
    · have hstream : (d.readAll (inputsOf before)).tables.hasStream sent.packet.pid = false := by
        rw [Bool.eq_false_iff]
        intro hstream
        exact hpid (hknown.mem_streamPids hstream)
      rw [Demuxer.read_of_not_hasStream hfragment hstream, if_neg fun hdue => hpid hdue.1]

/-- The units of an elementary stream become pending in their order, apart from the last one
and from those that are too large. -/
theorem Sends.unitsOn (h : m.Sends packets) (hidle : Idle d) (hpid : pid ∈ m.streamPids) :
    (d.unitsOn pid (inputsOf packets)).map (·.bytes) =
      (m.unitBytes pid).dropLast.filter (·.length ≤ d.config.maxUnitSize) := by
  have hall : m.Sends (packets ++ []) := (List.append_nil packets).symm ▸ h
  have hclean := clean_cut pid (m.pieces_ne_nil pid) (m.firstCounter pid)
  rw [Demuxer.unitsOn_eq_trace (hall.routed hidle hpid), hidle.units, fragmentsOn_inputsOf,
    h.pieces pid hpid, (Reassembly.trace_of_clean _ hclean).1, unitsOf_cut (m.pieces_ne_nil pid),
    unitBytes]

/-- The last unit of an elementary stream stays open, unless it is too large. -/
theorem Sends.openUnit (h : m.Sends packets) (hidle : Idle d) (hpid : pid ∈ m.streamPids) :
    (d.readAll (inputsOf packets)).units[pid]?.map (·.bytes) =
      (m.unitBytes pid).getLast?.filter (·.length ≤ d.config.maxUnitSize) := by
  have hall : m.Sends (packets ++ []) := (List.append_nil packets).symm ▸ h
  have hclean := clean_cut pid (m.pieces_ne_nil pid) (m.firstCounter pid)
  rw [hall.units hidle hpid, h.pieces pid hpid, Reassembly.bytes_openAfter_of_clean _ hclean,
    unitsOf_cut (m.pieces_ne_nil pid), unitBytes]

/-- No unit counts as lost, and those that are too large are counted once each. -/
theorem Sends.counts (h : m.Sends packets) (hidle : Idle d) :
    (d.readAll (inputsOf packets)).lossCount = d.lossCount ∧
      (d.readAll (inputsOf packets)).oversizeCount = d.oversizeCount +
        ∑ pid ∈ m.streamPids.toFinset,
          (m.unitBytes pid).countP (d.config.maxUnitSize < ·.length) := by
  have hall : m.Sends (packets ++ []) := (List.append_nil packets).symm ▸ h
  have hpids : ∀ s ∈ d.steps (inputsOf packets), s.losses ≠ 0 ∨ s.oversizes ≠ 0 →
      ∃ f, fragment? s.bytes = some f ∧ f.pid ∈ m.streamPids.toFinset := by
    intro s hs hcount
    obtain ⟨f, hfragment, hstream⟩ := Demuxer.hasStream_of_counts hcount
    obtain ⟨earlier, later, hinputs, hbefore⟩ := Demuxer.exists_of_mem_steps hs
    obtain ⟨before, rest, rfl, rfl, _⟩ := List.map_eq_append_iff.mp hinputs
    rw [hbefore] at hstream
    exact ⟨f, hfragment, List.mem_toFinset.mpr ((h.known hidle).mem_streamPids hstream)⟩
  have htrace : ∀ pid ∈ m.streamPids.toFinset,
      (((d.steps (inputsOf packets)).filter (·.carries pid)).map (·.losses)).sum = 0 ∧
        (((d.steps (inputsOf packets)).filter (·.carries pid)).map (·.oversizes)).sum =
          (m.unitBytes pid).countP (d.config.maxUnitSize < ·.length) := by
    intro pid hpid
    have hpid := List.mem_toFinset.mp hpid
    have hclean := clean_cut pid (m.pieces_ne_nil pid) (m.firstCounter pid)
    obtain ⟨hlosses, hoversizes⟩ := Demuxer.counts_eq_trace (hall.routed hidle hpid)
    rw [hidle.units, fragmentsOn_inputsOf, h.pieces pid hpid] at hlosses hoversizes
    rw [hlosses, hoversizes, unitBytes, ← unitsOf_cut (m.pieces_ne_nil pid) (m.firstCounter pid)]
    exact (Reassembly.trace_of_clean _ hclean).2
  obtain ⟨hlosses, hoversizes⟩ := Demuxer.counts_readAll d (inputsOf packets)
  rw [hlosses, hoversizes,
    Demuxer.sum_eq_sum_carries _ _ _ fun s hs hne => hpids s hs (.inl hne),
    Demuxer.sum_eq_sum_carries _ _ _ fun s hs hne => hpids s hs (.inr hne)]
  constructor
  · rw [Finset.sum_eq_zero fun pid hpid => (htrace pid hpid).1, Nat.add_zero]
  · rw [Finset.sum_congr rfl fun pid hpid => (htrace pid hpid).2]

end Multiplex

end TransportStream
