import TransportStream.Packetizer

/-!
# Reading aligned bytes

Bytes are aligned if the sync byte stands at every multiple of the packet size in them.
Whatever start of a packet is held, a chunk that continues it in alignment completes
all packets that it can, and the held bytes afterwards are those behind the last of them.
-/

namespace TransportStream

/-- The sync byte stands wherever a packet begins, also one that is incomplete. -/
def Aligned (bytes : Bytes) : Prop :=
  ∀ i, i * packetSize < bytes.length → syncAt bytes (i * packetSize) = true

/-- The packet with a given number in bytes that begin with a packet. -/
def block (bytes : Bytes) (i : Nat) : Bytes := (bytes.drop (i * packetSize)).take packetSize

/-- A packet has some bytes, so that a stream can be counted in packets. -/
theorem packetSize_pos : 0 < packetSize := by decide

/-- The packet with a number below `n` ends within the first `n` packets. -/
theorem packet_end_le {i n : Nat} (h : i < n) :
    i * packetSize + packetSize ≤ n * packetSize := by
  have hmul := Nat.mul_le_mul_right packetSize (show i + 1 ≤ n from h)
  rwa [Nat.succ_mul] at hmul

/-- The sync byte stands at an offset if it is the byte there. -/
theorem syncAt_eq_true_iff {bytes : Bytes} {offset : Nat} :
    syncAt bytes offset = true ↔ bytes[offset]? = some syncByte := by
  simp [syncAt]

/-- A sync byte stands in the bytes behind an offset where it stands in all of them. -/
theorem syncAt_drop (bytes : Bytes) (m offset : Nat) :
    syncAt (bytes.drop m) offset = syncAt bytes (m + offset) := by
  simp [syncAt]

/-- Bytes behind an offset do not matter for what stands there. -/
theorem syncAt_append_left {bytes : Bytes} {offset : Nat} (h : offset < bytes.length)
    (tail : Bytes) : syncAt (bytes ++ tail) offset = syncAt bytes offset := by
  simp [syncAt, List.getElem?_append_left h]

/-- The beginning of aligned bytes is aligned. -/
theorem Aligned.of_append {bytes tail : Bytes} (h : Aligned (bytes ++ tail)) : Aligned bytes := by
  intro i hi
  have hlong : i * packetSize < (bytes ++ tail).length := by
    rw [List.length_append]
    omega
  rw [← syncAt_append_left hi tail]
  exact h i hlong

/-- Aligned bytes stay aligned without their first packets. -/
theorem Aligned.drop {bytes : Bytes} (h : Aligned bytes) (m : Nat) :
    Aligned (bytes.drop (m * packetSize)) := by
  intro i hi
  rw [List.length_drop] at hi
  rw [syncAt_drop, ← Nat.add_mul]
  exact h (m + i) (by rw [Nat.add_mul]; omega)

/-- A packet, or less than one, is aligned if it begins with the sync byte. -/
theorem aligned_of_le {bytes : Bytes} (hle : bytes.length ≤ packetSize)
    (hsync : bytes = [] ∨ bytes.head? = some syncByte) : Aligned bytes := by
  intro i hi
  obtain rfl : i = 0 := by
    cases i with
    | zero => rfl
    | succ i =>
      rw [Nat.succ_mul] at hi
      omega
  rcases hsync with rfl | hhead
  · simp at hi
  · rw [Nat.zero_mul, syncAt_eq_true_iff, ← List.head?_eq_getElem?, hhead]

/-- Aligned bytes behind whole packets are aligned with them. -/
theorem Aligned.append {first tail : Bytes} (h : Aligned first) {n : Nat}
    (hlength : first.length = n * packetSize) (htail : Aligned tail) : Aligned (first ++ tail) := by
  intro i hi
  rcases Nat.lt_or_ge (i * packetSize) first.length with hlt | hge
  · rw [syncAt_append_left hlt]
    exact h i hlt
  · have hle : n ≤ i := Nat.le_of_mul_le_mul_right (hlength ▸ hge) packetSize_pos
    have hplace : i * packetSize = first.length + (i - n) * packetSize := by
      rw [hlength, ← Nat.add_mul, Nat.add_sub_cancel' hle]
    rw [List.length_append] at hi
    rw [hplace, ← syncAt_drop, List.drop_left]
    exact htail (i - n) (by omega)

/-- Aligned bytes begin with the sync byte, if they begin at all. -/
theorem Aligned.head {bytes : Bytes} (h : Aligned bytes) :
    bytes = [] ∨ bytes.head? = some syncByte := by
  cases bytes with
  | nil => exact .inl rfl
  | cons byte bytes =>
    right
    have hfirst := h 0 (by simp)
    rw [syncAt_eq_true_iff] at hfirst
    simpa using hfirst

/-- Aligned bytes are in sync. -/
theorem Aligned.inSync {bytes : Bytes} (h : Aligned bytes) (hne : bytes ≠ []) :
    inSync bytes = true := by
  have hpos : 0 < bytes.length := List.length_pos_iff.mpr hne
  rw [TransportStream.inSync, Bool.and_eq_true, List.all_eq_true]
  constructor
  · simpa using h 0 (by omega)
  · intro i hi
    have hlt : i < bytes.length / packetSize := List.mem_range.mp hi
    have hend := packet_end_le hlt
    have hle := Nat.div_mul_le_self bytes.length packetSize
    have hsize := packetSize_pos
    exact h i (by omega)

/-- Bytes that have the size of a packet and begin with the sync byte. -/
def IsPacket (bytes : Bytes) : Prop := bytes.length = packetSize ∧ bytes.head? = some syncByte

instance (bytes : Bytes) : Decidable (IsPacket bytes) := by unfold IsPacket; infer_instance

/-- Packets one after the other are aligned. -/
theorem aligned_flatten {packets : List Bytes} (h : ∀ bytes ∈ packets, IsPacket bytes) :
    Aligned packets.flatten := by
  induction packets with
  | nil => exact aligned_of_le (Nat.zero_le _) (.inl rfl)
  | cons bytes packets ih =>
    obtain ⟨hsize, hsync⟩ := h bytes List.mem_cons_self
    have hfirst : Aligned bytes := aligned_of_le (Nat.le_of_eq hsize) (.inr hsync)
    rw [List.flatten_cons]
    refine hfirst.append (n := 1) (by rw [hsize, Nat.one_mul]) ?_
    exact ih fun b hb => h b (List.mem_cons_of_mem _ hb)

/-- Packets one after the other have the size of a packet for each of them. -/
theorem length_flatten_packets {packets : List Bytes} (h : ∀ bytes ∈ packets, IsPacket bytes) :
    packets.flatten.length = packets.length * packetSize := by
  induction packets with
  | nil => simp
  | cons bytes packets ih =>
    rw [List.flatten_cons, List.length_append, (h bytes List.mem_cons_self).1,
      ih fun b hb => h b (List.mem_cons_of_mem _ hb), List.length_cons, Nat.succ_mul, Nat.add_comm]

/-- Packets one after the other are found again. -/
theorem leadingPackets_flatten {packets : List Bytes} (h : ∀ bytes ∈ packets, IsPacket bytes) :
    leadingPackets packets.length packets.flatten = packets := by
  induction packets with
  | nil => rfl
  | cons bytes packets ih =>
    have hsize := (h bytes List.mem_cons_self).1
    rw [List.length_cons, leadingPackets, List.flatten_cons, List.take_left' hsize,
      List.drop_left' hsize, ih fun b hb => h b (List.mem_cons_of_mem _ hb)]

/-- The first packets are the blocks with the first numbers. -/
theorem leadingPackets_eq_map_block (n : Nat) (bytes : Bytes) :
    leadingPackets n bytes = (List.range n).map (block bytes) := by
  induction n generalizing bytes with
  | zero => rfl
  | succ n ih =>
    have hfirst : block bytes 0 = bytes.take packetSize := by simp [block]
    rw [leadingPackets, ih, List.range_succ_eq_map, List.map_cons, List.map_map, hfirst]
    congr 1
    apply List.map_congr_left
    intro i _
    simp only [block, Function.comp_apply, List.drop_drop, Nat.succ_mul]
    rw [Nat.add_comm]

/-- The first packets of bytes that go on behind them are those of the bytes themselves. -/
theorem map_block_append {n : Nat} {bytes : Bytes} (h : n * packetSize ≤ bytes.length)
    (tail : Bytes) : (List.range n).map (block (bytes ++ tail)) =
      (List.range n).map (block bytes) := by
  apply List.map_congr_left
  intro i hi
  have hend := packet_end_le (List.mem_range.mp hi)
  rw [block, block, List.drop_append_of_le_length (by omega),
    List.take_append_of_le_length (by rw [List.length_drop]; omega)]

/-- The first packets, and as many as are wanted of those behind them. -/
theorem map_block_add (m n : Nat) (bytes : Bytes) :
    (List.range (m + n)).map (block bytes) =
      (List.range m).map (block bytes) ++
        (List.range n).map (block (bytes.drop (m * packetSize))) := by
  rw [List.range_add, List.map_append, List.map_map]
  congr 1
  apply List.map_congr_left
  intro i _
  simp only [block, Function.comp_apply, List.drop_drop, Nat.add_mul]

/-- The number of whole packets is that of the first bytes, and that of what they leave
over together with the bytes behind them. -/
theorem packetCount_add (m n : Nat) : (m + n) / packetSize =
    m / packetSize + (m - m / packetSize * packetSize + n) / packetSize := by
  simp only [packetSize]
  omega

namespace Packetizer

/-- A packetizer has put out the packets of some bytes, without a notice, and holds the
bytes behind the last of them. -/
structure HasCut (bytes : Bytes) (result : Packetizer × List Output) : Prop where
  /-- What was put out is the packets in order. -/
  outputs : result.2 =
    ((List.range (bytes.length / packetSize)).map (block bytes)).map Output.packet
  /-- What is held is the rest. -/
  held : result.1.held = bytes.drop (bytes.length / packetSize * packetSize)

/-- How many packets the bytes hold may be counted otherwise. -/
theorem HasCut.of_count {bytes : Bytes} {result : Packetizer × List Output} {n : Nat}
    (hcount : bytes.length / packetSize = n)
    (houtputs : result.2 = ((List.range n).map (block bytes)).map Output.packet)
    (hheld : result.1.held = bytes.drop (n * packetSize)) : HasCut bytes result := by
  subst hcount
  exact ⟨houtputs, hheld⟩

/-- Where bytes were cut, and then what they left over together with further bytes, all of
them are cut. -/
theorem HasCut.append {bytes tail : Bytes} {first later : Packetizer × List Output}
    (hfirst : HasCut bytes first) (hlater : HasCut (first.1.held ++ tail) later) :
    HasCut (bytes ++ tail) (later.1, first.2 ++ later.2) := by
  have hle : bytes.length / packetSize * packetSize ≤ bytes.length := Nat.div_mul_le_self _ _
  have hleft : (bytes ++ tail).drop (bytes.length / packetSize * packetSize) =
      first.1.held ++ tail := by
    rw [List.drop_append_of_le_length hle, hfirst.held]
  have hcount : (bytes ++ tail).length / packetSize =
      bytes.length / packetSize + (first.1.held ++ tail).length / packetSize := by
    rw [List.length_append, packetCount_add, List.length_append, hfirst.held, List.length_drop]
  refine .of_count hcount ?_ ?_
  · rw [map_block_add, map_block_append hle, hleft, List.map_append, ← hfirst.outputs,
      ← hlater.outputs]
  · rw [Nat.add_mul, ← List.drop_drop, hleft]
    exact hlater.held

/-- Aligned bytes are cut into packets while nothing is held. -/
theorem hasCut_readAligned {bytes : Bytes} (h : Aligned bytes) :
    HasCut bytes (readAligned bytes) := by
  have htail := (h.drop (bytes.length / packetSize)).head
  rw [readAligned, holdTail, dif_pos htail]
  constructor
  · simp only [List.append_nil, leadingPackets_eq_map_block]
  · rfl

/-- Aligned bytes are cut into packets from their first byte on while nothing is held. -/
theorem hasCut_readWindow {bytes : Bytes} (h : Aligned bytes) (hne : bytes ≠ []) :
    HasCut bytes (readWindow bytes) := by
  have hoffset : syncOffset? bytes = some 0 := by simp [syncOffset?, h.inSync hne]
  rw [readWindow, hoffset]
  exact hasCut_readAligned h

/-- The held bytes lack just the first ones of the chunk. -/
theorem take_held_append (p : Packetizer) (chunk : Bytes) :
    (p.held ++ chunk).take packetSize = p.held ++ chunk.take p.missing := by
  rw [List.take_append, List.take_of_length_le (Nat.le_of_lt p.held_lt), missing]

/-- Behind the packet that begins with the held bytes, the rest of the chunk follows. -/
theorem drop_held_append (p : Packetizer) (chunk : Bytes) :
    (p.held ++ chunk).drop packetSize = chunk.drop p.missing := by
  rw [List.drop_append, List.drop_eq_nil_of_le (Nat.le_of_lt p.held_lt), missing]
  rfl

/-- A chunk that continues the held start of a packet in alignment completes it. -/
theorem hasCut_complete (p : Packetizer) (hheld : p.held.head? = some syncByte) {chunk : Bytes}
    (h : Aligned (p.held ++ chunk)) : HasCut (p.held ++ chunk) (p.complete hheld chunk) := by
  have hlt := p.held_lt
  have hlen : (p.held ++ chunk).length = p.held.length + chunk.length := List.length_append
  have hmissing : p.missing = packetSize - p.held.length := rfl
  have hrest : (p.held ++ chunk).drop (1 * packetSize) = chunk.drop p.missing := by
    rw [Nat.one_mul, drop_held_append]
  have hfirst := p.take_held_append chunk
  rw [complete]
  by_cases hshort : chunk.length < p.missing
  · have hcount : (p.held ++ chunk).length / packetSize = 0 := Nat.div_eq_of_lt (by omega)
    rw [dif_pos hshort]
    exact .of_count hcount rfl (by simp)
  rw [dif_neg hshort]
  by_cases hend : chunk.drop p.missing = []
  · have hle : chunk.length ≤ p.missing := List.drop_eq_nil_iff.mp hend
    have hsize : (p.held ++ chunk).length = packetSize := by omega
    have hcount : (p.held ++ chunk).length / packetSize = 1 := by
      rw [hsize, Nat.div_self packetSize_pos]
    have hall : chunk.take p.missing = chunk := List.take_of_length_le hle
    rw [if_pos hend]
    refine .of_count hcount ?_ ?_
    · simp [block, hfirst, hall]
    · rw [hrest, hend]
  -- The bytes behind the completed packet are aligned, so that the chunk is trusted.
  have haligned : Aligned (chunk.drop p.missing) := hrest ▸ h.drop 1
  have hcount : (p.held ++ chunk).length / packetSize =
      1 + (chunk.drop p.missing).length / packetSize := by
    have hsum : (p.held ++ chunk).length = packetSize + (chunk.drop p.missing).length := by
      rw [List.length_drop]
      omega
    rw [hsum, Nat.add_div_left _ packetSize_pos, Nat.add_comm]
  obtain ⟨houtputs, hheld'⟩ := hasCut_readAligned haligned
  rw [if_neg hend, if_pos (haligned.inSync hend)]
  refine .of_count hcount ?_ ?_
  · rw [map_block_add, hrest, List.map_append, ← houtputs]
    simp [block, hfirst]
  · rw [Nat.add_mul, ← List.drop_drop, hrest]
    exact hheld'

/-- A chunk that continues the held bytes in alignment is cut together with them. -/
theorem hasCut_read (p : Packetizer) {chunk : Bytes} (h : Aligned (p.held ++ chunk)) :
    HasCut (p.held ++ chunk) (p.read chunk) := by
  have hlt := p.held_lt
  rw [read]
  by_cases hchunk : chunk = []
  · have hcount : (p.held ++ chunk).length / packetSize = 0 := by
      rw [hchunk, List.append_nil]
      exact Nat.div_eq_of_lt hlt
    rw [if_pos hchunk]
    exact .of_count hcount rfl (by simp [hchunk])
  rw [if_neg hchunk]
  by_cases hheld : p.held.head? = some syncByte
  · rw [dif_pos hheld]
    exact hasCut_complete p hheld h
  · have hnone : p.held = [] := p.held_sync.resolve_right hheld
    rw [dif_neg hheld]
    rw [hnone, List.nil_append] at h ⊢
    exact hasCut_readWindow h hchunk

end Packetizer

end TransportStream
