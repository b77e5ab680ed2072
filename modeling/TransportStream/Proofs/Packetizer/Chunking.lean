import TransportStream.Proofs.Packetizer.Alignment
import TransportStream.Proofs.Receiver.Run

/-!
# Where chunks are cut does not matter

While a stream is aligned, what a packetizer has put out and what it holds are decided by
the bytes that it has read. The main statement says which they are, and that two ways to
cut the same bytes into chunks therefore cannot be told apart by any demultiplexer.
-/

namespace TransportStream

instance (bytes : Bytes) : Decidable (Aligned bytes) :=
  decidable_of_iff (∀ i < bytes.length / packetSize + 1,
      i * packetSize < bytes.length → syncAt bytes (i * packetSize) = true) <| by
    constructor
    · intro h i hi
      have hle : i ≤ bytes.length / packetSize :=
        (Nat.le_div_iff_mul_le packetSize_pos).mpr (Nat.le_of_lt hi)
      exact h i (Nat.lt_succ_of_le hle) hi
    · intro h i _
      exact h i

namespace Packetizer

/-- Chunks that continue the held bytes in alignment are cut together with them. -/
theorem hasCut_readAll (p : Packetizer) (chunks : List Bytes)
    (h : Aligned (p.held ++ chunks.flatten)) :
    HasCut (p.held ++ chunks.flatten) (p.readAll chunks) := by
  induction chunks generalizing p with
  | nil =>
    have hcount : (p.held ++ [].flatten).length / packetSize = 0 := by
      rw [List.flatten_nil, List.append_nil]
      exact Nat.div_eq_of_lt p.held_lt
    exact .of_count hcount rfl (by simp [readAll])
  | cons chunk chunks ih =>
    rw [List.flatten_cons, ← List.append_assoc] at h ⊢
    have hfirst := hasCut_read p h.of_append
    have hleft : (p.held ++ chunk ++ chunks.flatten).drop
        ((p.held ++ chunk).length / packetSize * packetSize) =
          (p.read chunk).1.held ++ chunks.flatten := by
      rw [List.drop_append_of_le_length (Nat.div_mul_le_self _ _), hfirst.held]
    exact hfirst.append (ih (p.read chunk).1 (hleft ▸ h.drop _))

/-- A stream of whole packets is cut into these packets, however it is divided. -/
theorem readAll_of_packets {packets : List Bytes} (h : ∀ bytes ∈ packets, IsPacket bytes)
    {chunks : List Bytes} (hchunks : chunks.flatten = packets.flatten) :
    (({} : Packetizer).readAll chunks).2 = packets.map .packet ∧
      (({} : Packetizer).readAll chunks).1.held = [] := by
  have hcount : packets.flatten.length / packetSize = packets.length := by
    rw [length_flatten_packets h, Nat.mul_div_cancel _ packetSize_pos]
  have hcut := hasCut_readAll {} chunks (hchunks ▸ aligned_flatten h)
  rw [List.nil_append, hchunks] at hcut
  obtain ⟨houtputs, hheld⟩ := hcut
  rw [hcount] at houtputs hheld
  constructor
  · rw [houtputs, ← leadingPackets_eq_map_block, leadingPackets_flatten h]
  · rw [hheld, ← length_flatten_packets h, List.drop_length]

/-- Of the same bytes there is only one cut. -/
theorem HasCut.eq_of_same {bytes : Bytes} {left right : Packetizer × List Output}
    (hleft : HasCut bytes left) (hright : HasCut bytes right) : left = right := by
  obtain ⟨⟨heldLeft, _, _⟩, outputsLeft⟩ := left
  obtain ⟨⟨heldRight, _, _⟩, outputsRight⟩ := right
  have hheld : heldLeft = heldRight := hleft.held.trans hright.held.symm
  have houtputs : outputsLeft = outputsRight := hleft.outputs.trans hright.outputs.symm
  subst hheld houtputs
  rfl

/-- Let bytes follow the held ones such that all of them are aligned. When the first chunks
of any division of these bytes have been read, exactly the whole packets among the bytes so
far have been put out, in order, and the rest of them is held. Two divisions of the same
bytes leave the same packetizer, and let any demultiplexer read the same packets. -/
theorem readAll_of_aligned (p : Packetizer) (bytes : Bytes) (h : Aligned (p.held ++ bytes)) :
    (∀ first later : List Bytes, (first ++ later).flatten = bytes →
      let count := p.held.length + first.flatten.length
      (p.readAll first).2 =
          ((List.range (count / packetSize)).map (block (p.held ++ bytes))).map .packet ∧
        (p.readAll first).1.held =
          ((p.held ++ bytes).take count).drop (count - count % packetSize)) ∧
      ∀ chunks chunks' : List Bytes, chunks.flatten = bytes → chunks'.flatten = bytes →
        p.readAll chunks = p.readAll chunks' ∧
          ∀ d : Demuxer, Receiver.readAll ⟨p, d⟩ chunks = Receiver.readAll ⟨p, d⟩ chunks' := by
  constructor
  · intro first later hbytes count
    rw [List.flatten_append] at hbytes
    have hlength : (p.held ++ first.flatten).length = count := List.length_append
    have hbegin : (p.held ++ bytes).take count = p.held ++ first.flatten := by
      rw [← hbytes, ← List.append_assoc, ← hlength, List.take_left]
    have haligned : Aligned (p.held ++ first.flatten) := by
      rw [← hbytes, ← List.append_assoc] at h
      exact h.of_append
    obtain ⟨houtputs, hheld⟩ := hasCut_readAll p first haligned
    rw [hlength] at houtputs hheld
    constructor
    · have hcount : count / packetSize * packetSize ≤ (p.held ++ first.flatten).length := by
        rw [hlength]
        exact Nat.div_mul_le_self _ _
      rw [houtputs, ← hbytes, ← List.append_assoc, map_block_append hcount]
    · have hend : count - count % packetSize = count / packetSize * packetSize := by
        have hdivision := Nat.div_add_mod' count packetSize
        omega
      rw [hbegin, hheld, hend]
  · intro chunks chunks' hchunks hchunks'
    have hsame : p.readAll chunks = p.readAll chunks' := by
      have hcut := hasCut_readAll p chunks (by rwa [hchunks])
      have hcut' := hasCut_readAll p chunks' (by rwa [hchunks'])
      rw [hchunks] at hcut
      rw [hchunks'] at hcut'
      exact hcut.eq_of_same hcut'
    refine ⟨hsame, fun d => ?_⟩
    rw [Receiver.readAll_eq, Receiver.readAll_eq]
    simp only [hsame]

/-- Two held bytes, a chunk that ends one byte behind a packet boundary, and the start of a
second packet in which the sync byte occurs again. -/
theorem readAll_of_aligned_two_chunks :
    let p : Packetizer := { held := [0x47, 0x00], held_sync := by decide }
    let chunk := List.replicate 186 0x11 ++ [0x47]
    let chunk' := [0x47, 0x47]
    Aligned (p.held ++ (chunk ++ chunk')) ∧
      (p.readAll [chunk]).2 = [.packet (p.held ++ List.replicate 186 0x11)] ∧
      (p.readAll [chunk]).1.held = [0x47] ∧
      p.readAll [chunk, chunk'] = p.readAll [chunk ++ chunk'] := by
  intro p chunk chunk'
  have haligned : Aligned (p.held ++ (chunk ++ chunk')) := by decide +kernel
  obtain ⟨hfirst, hsame⟩ := readAll_of_aligned p (chunk ++ chunk') haligned
  obtain ⟨houtputs, hheld⟩ := hfirst [chunk] [chunk'] rfl
  refine ⟨haligned, houtputs.trans ?_, hheld.trans ?_,
    (hsame [chunk, chunk'] [chunk ++ chunk'] rfl (by simp)).1⟩ <;> decide +kernel

end Packetizer

end TransportStream
