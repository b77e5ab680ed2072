import Mathlib.Order.Nat
import TransportStream.Proofs.Packetizer.Soundness

/-!
# Packets behind noise in one chunk

A chunk may begin with bytes that belong to no packet, and the sync byte may occur among them. The
packets behind are found unless the noise looks like packets from some place on up to the end of
the chunk. Held bytes that the chunk does not go on with change nothing about that.
-/

namespace TransportStream

/-- From an offset on, the sync byte stands wherever a packet begins that is not cut off by the
end. An offset before the true packets at which this holds is a false lock. -/
def LocksAt (bytes : Bytes) (offset : Nat) : Prop :=
  ∀ i < (bytes.length - offset) / packetSize, syncAt bytes (offset + i * packetSize) = true

instance (bytes : Bytes) : DecidablePred (LocksAt bytes) := by
  intro offset
  unfold LocksAt
  infer_instance

/-- Some bytes begin with another byte than the sync byte, or so does a later packet in them that
is not cut off by the end. -/
def OutOfSync (bytes : Bytes) : Prop :=
  bytes.head? ≠ some syncByte ∨
    ∃ i < bytes.length / packetSize, 0 < i ∧ syncAt bytes (i * packetSize) = false

variable {bytes tail noise : Bytes} {packets : List Bytes} {offset : Nat}

/-- Where a packet fits behind an offset, the bytes are in sync from there on exactly if they lock
there. -/
theorem inSync_drop_iff (hroom : offset + packetSize ≤ bytes.length) :
    inSync (bytes.drop offset) = true ↔ LocksAt bytes offset := by
  have hlength : (bytes.drop offset).length = bytes.length - offset := List.length_drop
  have hfirst : 0 < (bytes.length - offset) / packetSize :=
    Nat.div_pos (by omega) packetSize_pos
  rw [inSync, Bool.and_eq_true, List.all_eq_true, hlength]
  simp only [List.mem_range, syncAt_drop]
  constructor
  · rintro ⟨_, h⟩
    exact h
  · intro h
    refine ⟨?_, h⟩
    have hzero := h 0 hfirst
    rwa [Nat.zero_mul] at hzero

/-- Bytes that are out of sync are not found to be in sync. -/
theorem OutOfSync.inSync_eq_false (h : OutOfSync bytes) : inSync bytes = false := by
  rcases h with hhead | ⟨i, hi, _, hsync⟩
  · exact inSync_eq_false_of_head hhead
  · rw [← Bool.not_eq_true, inSync, Bool.and_eq_true, List.all_eq_true]
    rintro ⟨_, hall⟩
    rw [hall i (List.mem_range.mpr hi)] at hsync
    cases hsync

namespace Packetizer

/-- Packets and less than a packet behind them are cut into the packets and the rest. -/
theorem HasCut.of_packets {result : Packetizer × List Output}
    (hpackets : ∀ bytes ∈ packets, IsPacket bytes) (hshort : tail.length < packetSize)
    (h : HasCut (packets.flatten ++ tail) result) :
    packetsIn result.2 = packets ∧ result.1.held = tail := by
  have hlength := length_flatten_packets hpackets
  have hcount : (packets.flatten ++ tail).length / packetSize = packets.length := by
    rw [List.length_append, hlength, Nat.add_comm, Nat.add_mul_div_right _ _ packetSize_pos,
      Nat.div_eq_of_lt hshort, Nat.zero_add]
  obtain ⟨houtputs, hheld⟩ := h
  rw [hcount] at houtputs hheld
  constructor
  · rw [houtputs, packetsIn_map_packet, map_block_append (Nat.le_of_eq hlength.symm),
      ← leadingPackets_eq_map_block, leadingPackets_flatten hpackets]
  · rw [hheld, ← hlength, List.drop_left]

/-- Reading begins where sync is found. -/
theorem readWindow_at (h : syncOffset? bytes = some offset) :
    (readWindow bytes).1 = (readAligned (bytes.drop offset)).1 ∧
      packetsIn (readWindow bytes).2 = packetsIn (readAligned (bytes.drop offset)).2 := by
  rcases Nat.eq_zero_or_pos offset with rfl | hpos
  · have hsync := (syncOffset?_eq_some_iff.mp h).1
    rw [List.drop_zero] at hsync ⊢
    rw [readWindow_of_inSync hsync]
    exact ⟨rfl, rfl⟩
  · rw [readWindow_of_offset h (Nat.ne_of_gt hpos)]
    exact ⟨rfl, rfl⟩

/-- Less than a packet gives no packet. -/
theorem packetsIn_holdTail (tail : Bytes) (h : tail.length < packetSize) :
    packetsIn (holdTail tail h).2 = [] := by
  unfold holdTail
  split <;> rfl

/-- Bytes that are cut from the first one on give their blocks. -/
theorem packetsIn_readAligned (bytes : Bytes) :
    packetsIn (readAligned bytes).2 =
      (List.range (bytes.length / packetSize)).map (block bytes) := by
  simp only [readAligned, packetsIn_append, packetsIn_map_packet, packetsIn_holdTail,
    List.append_nil, leadingPackets_eq_map_block]

/-- What is behind the blocks is held if it begins with the sync byte. -/
theorem held_readAligned (bytes : Bytes) :
    let rest := bytes.drop (bytes.length / packetSize * packetSize)
    (readAligned bytes).1.held = if rest.head? = some syncByte then rest else [] := by
  intro rest
  simp only [readAligned, holdTail]
  split
  case isTrue hsync =>
    rcases hsync with hnone | hhead
    · simp [rest, hnone]
    · simp [rest, hhead]
  case isFalse hsync =>
    rw [if_neg fun hhead => hsync (.inr hhead)]

/-- A chunk that does not go on with the held bytes is read by itself, and they are dropped. -/
theorem read_of_outOfSync (p : Packetizer) (hheld : p.held ≠ []) {chunk : Bytes}
    (hrest : chunk.drop p.missing ≠ []) (hsync : OutOfSync (chunk.drop p.missing)) :
    p.read chunk =
      ((({} : Packetizer).read chunk).1,
        .notice (.brokenPacket p.held.length) :: (({} : Packetizer).read chunk).2) := by
  have hhead : p.held.head? = some syncByte := p.held_sync.resolve_left hheld
  have hlong : ¬ chunk.length < p.missing := by
    intro hshort
    exact hrest (List.drop_eq_nil_of_le (Nat.le_of_lt hshort))
  have hchunk : chunk ≠ [] := by
    rintro rfl
    exact hrest List.drop_nil
  rw [read_empty hchunk, read, if_neg hchunk, dif_pos hhead, complete, dif_neg hlong,
    if_neg hrest, if_neg (by simp [hsync.inSync_eq_false])]

/-- Noise, packets, and the start of another packet. -/
def window (noise : Bytes) (packets : List Bytes) (tail : Bytes) : Bytes :=
  noise ++ (packets.flatten ++ tail)

/-- Where packets begin behind noise, there is room for one. -/
theorem room_in_window (hpackets : ∀ bytes ∈ packets, IsPacket bytes) (hne : packets ≠ [])
    (noise tail : Bytes) : noise.length + packetSize ≤ (window noise packets tail).length := by
  have hmul := Nat.mul_le_mul_right packetSize (List.length_pos_iff.mpr hne)
  rw [window, List.length_append, List.length_append, length_flatten_packets hpackets]
  omega

/-- A window with a packet in it is not empty. -/
theorem window_ne_nil (hpackets : ∀ bytes ∈ packets, IsPacket bytes) (hne : packets ≠ [])
    (noise tail : Bytes) : window noise packets tail ≠ [] := by
  intro hnil
  have hroom := room_in_window hpackets hne noise tail
  have hpos := packetSize_pos
  rw [hnil, List.length_nil] at hroom
  omega

/-- Behind the noise in a window come its packets. -/
theorem drop_window (noise : Bytes) (packets : List Bytes) (tail : Bytes) :
    (window noise packets tail).drop noise.length = packets.flatten ++ tail := List.drop_left

/-- The search ends at the packets behind noise without a false lock. -/
theorem syncOffset?_window (hpackets : ∀ bytes ∈ packets, IsPacket bytes) (hne : packets ≠ [])
    (haligned : Aligned (packets.flatten ++ tail))
    (hnone : ∀ offset < noise.length, ¬ LocksAt (window noise packets tail) offset) :
    syncOffset? (window noise packets tail) = some noise.length := by
  have hroom := room_in_window hpackets hne noise tail
  rw [syncOffset?_eq_some_iff]
  refine ⟨?_, .inr hroom, ?_⟩
  · rw [drop_window]
    exact haligned.inSync (window_ne_nil hpackets hne [] tail)
  · intro earlier hearlier
    rw [← Bool.not_eq_true, inSync_drop_iff (by omega)]
    exact hnone earlier hearlier

/-- The search ends at the first false lock in noise. -/
theorem syncOffset?_of_isLeast (hpackets : ∀ bytes ∈ packets, IsPacket bytes) (hne : packets ≠ [])
    (h : IsLeast {offset | offset < noise.length ∧
      LocksAt (window noise packets tail) offset} offset) :
    syncOffset? (window noise packets tail) = some offset := by
  obtain ⟨⟨hlt, hlocks⟩, hleast⟩ := h
  have hroom := room_in_window hpackets hne noise tail
  rw [syncOffset?_eq_some_iff]
  refine ⟨(inSync_drop_iff (by omega)).mpr hlocks, .inr (by omega), ?_⟩
  intro earlier hearlier
  rw [← Bool.not_eq_true, inSync_drop_iff (by omega)]
  intro hbefore
  have hle : offset ≤ earlier := hleast ⟨by omega, hbefore⟩
  omega

/-- Let a chunk consist of noise, packets, and less than a packet that begins with the sync byte.
If the noise has no false lock, a packetizer that holds nothing puts out the packets and holds what
is behind them. Otherwise it puts out the blocks from the first false lock on. If it holds the start
of a packet that the chunk does not go on with, it does the same, and drops what it held. -/
theorem read_window (noise : Bytes) (packets : List Bytes) (tail : Bytes)
    (hpackets : ∀ bytes ∈ packets, IsPacket bytes) (hne : packets ≠ [])
    (hshort : tail.length < packetSize) (hsync : tail = [] ∨ tail.head? = some syncByte) :
    let chunk := window noise packets tail
    let result := ({} : Packetizer).read chunk
    ((∀ offset < noise.length, ¬ LocksAt chunk offset) →
        packetsIn result.2 = packets ∧ result.1.held = tail) ∧
      ((∃ offset < noise.length, LocksAt chunk offset) →
        ∃ offset, IsLeast {offset | offset < noise.length ∧ LocksAt chunk offset} offset ∧
          let behind := chunk.drop offset
          let count := behind.length / packetSize
          let rest := behind.drop (count * packetSize)
          packetsIn result.2 = (List.range count).map (block behind) ∧
            result.1.held = if rest.head? = some syncByte then rest else []) ∧
      ∀ p : Packetizer, p.held ≠ [] → chunk.drop p.missing ≠ [] →
        OutOfSync (chunk.drop p.missing) →
        p.read chunk = (result.1, .notice (.brokenPacket p.held.length) :: result.2) := by
  intro chunk result
  have haligned : Aligned (packets.flatten ++ tail) :=
    (aligned_flatten hpackets).append (length_flatten_packets hpackets)
      (aligned_of_le (Nat.le_of_lt hshort) hsync)
  have hread : result = readWindow chunk := read_empty (window_ne_nil hpackets hne noise tail)
  refine ⟨?_, ?_, fun p hheld hrest hout => p.read_of_outOfSync hheld hrest hout⟩
  · intro hnone
    obtain ⟨hnext, houtput⟩ := readWindow_at (syncOffset?_window hpackets hne haligned hnone)
    rw [hread, hnext, houtput, drop_window]
    exact (hasCut_readAligned haligned).of_packets hpackets hshort
  · intro hlock
    have hleast := Nat.isLeast_find hlock
    obtain ⟨hnext, houtput⟩ := readWindow_at (syncOffset?_of_isLeast hpackets hne hleast)
    refine ⟨Nat.find hlock, hleast, ?_⟩
    rw [hread, hnext, houtput]
    exact ⟨packetsIn_readAligned _, held_readAligned _⟩

/-- Noise with a sync byte in it, two packets and the start of a third. All are found, also by a
packetizer that holds a byte of another packet. -/
theorem read_window_around_stray_sync :
    let noise : Bytes := List.replicate 10 0x11 ++ syncByte :: List.replicate 29 0x11
    let packet (byte : UInt8) : Bytes := syncByte :: List.replicate 187 byte
    let packets := [packet 1, packet 2]
    let tail : Bytes := [syncByte, 3]
    let chunk := window noise packets tail
    let p : Packetizer := { held := [syncByte], held_sync := by decide }
    (∀ bytes ∈ packets, IsPacket bytes) ∧ packets ≠ [] ∧ tail.length < packetSize ∧
      (tail = [] ∨ tail.head? = some syncByte) ∧
      (∀ offset < noise.length, ¬ LocksAt chunk offset) ∧
      p.held ≠ [] ∧ chunk.drop p.missing ≠ [] ∧ OutOfSync (chunk.drop p.missing) ∧
      packetsIn (p.read chunk).2 = packets ∧ (p.read chunk).1.held = tail := by
  intro noise packet packets tail chunk p
  have hpackets : ∀ bytes ∈ packets, IsPacket bytes := by decide +kernel
  have hnone : ∀ offset < noise.length, ¬ LocksAt chunk offset := by decide +kernel
  have hrest : chunk.drop p.missing ≠ [] := by decide +kernel
  have hout : OutOfSync (chunk.drop p.missing) := .inl (by decide +kernel)
  obtain ⟨hfound, -, hdropped⟩ :=
    read_window noise packets tail hpackets (by decide) (by decide) (by decide)
  obtain ⟨hdelivered, hheld⟩ := hfound hnone
  have hread := hdropped p (by decide) hrest hout
  refine ⟨hpackets, by decide, by decide, by decide, hnone, by decide, hrest, hout, ?_, ?_⟩
  · rw [hread, packetsIn_notice, hdelivered]
  · rw [hread, hheld]

/-- One byte of noise is enough for a false lock if the packets end with the sync byte. -/
example :
    let packet : Bytes := syncByte :: (List.replicate 186 0x11 ++ [syncByte])
    let chunk := window [syncByte] [packet, packet] []
    LocksAt chunk 0 ∧ packetsIn (({} : Packetizer).read chunk).2 = [block chunk 0, block chunk 1] ∧
      (({} : Packetizer).read chunk).1.held = [syncByte] := by
  decide +kernel

end Packetizer

end TransportStream
