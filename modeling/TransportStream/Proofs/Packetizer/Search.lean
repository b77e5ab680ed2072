import TransportStream.Proofs.Packetizer.Alignment

/-!
# Finding the place from which on bytes are in sync

The search tries the offsets in order. It takes the first byte of the bytes without looking
how many of them there are, and any later place only if a whole packet fits behind it.
-/

namespace TransportStream

variable {bytes : Bytes} {offset : Nat}

/-- Bytes that are in sync begin with the sync byte. -/
theorem head_of_inSync (h : inSync bytes = true) : bytes.head? = some syncByte := by
  rw [inSync, Bool.and_eq_true, syncAt_eq_true_iff, ← List.head?_eq_getElem?] at h
  exact h.1

/-- In bytes that are in sync, the blocks with the first numbers are packets. -/
theorem isPacket_block_of_inSync (h : inSync bytes = true) {i : Nat}
    (hi : i < bytes.length / packetSize) : IsPacket (block bytes i) := by
  rw [inSync, Bool.and_eq_true, List.all_eq_true] at h
  have hsync := syncAt_eq_true_iff.mp (h.2 i (List.mem_range.mpr hi))
  have hend := packet_end_le hi
  have hle := Nat.div_mul_le_self bytes.length packetSize
  constructor
  · rw [block, List.length_take, List.length_drop]
    omega
  · rw [block, List.head?_take, if_neg (Nat.ne_of_gt packetSize_pos), List.head?_drop, hsync]

/-- Bytes that begin with another byte are not in sync. -/
theorem inSync_eq_false_of_head (h : bytes.head? ≠ some syncByte) : inSync bytes = false := by
  cases hsync : inSync bytes with
  | false => rfl
  | true => exact absurd (head_of_inSync hsync) h

/-- The search finds the least offset at which the bytes are in sync, among the first one and
those that leave room for a packet. -/
theorem syncOffset?_eq_some_iff : syncOffset? bytes = some offset ↔
    inSync (bytes.drop offset) = true ∧ (offset = 0 ∨ offset + packetSize ≤ bytes.length) ∧
      ∀ earlier < offset, inSync (bytes.drop earlier) = false := by
  unfold syncOffset?
  cases hfirst : inSync bytes with
  | true =>
    rw [if_pos rfl, Option.some.injEq]
    constructor
    · rintro rfl
      exact ⟨hfirst, .inl rfl, by simp⟩
    · rintro ⟨_, _, hearlier⟩
      rcases Nat.eq_zero_or_pos offset with rfl | hpos
      · rfl
      · have hzero := hearlier 0 hpos
        rw [List.drop_zero, hfirst] at hzero
        cases hzero
  | false =>
    rw [if_neg (by simp), List.find?_range'_eq_some]
    simp only [List.mem_range'_1, Bool.not_eq_eq_eq_not, Bool.not_true]
    constructor
    · rintro ⟨hsync, hmem, hearlier⟩
      refine ⟨hsync, .inr (by omega), ?_⟩
      intro earlier hlt
      rcases Nat.eq_zero_or_pos earlier with rfl | hpos
      · exact hfirst
      · exact hearlier earlier hpos hlt
    · rintro ⟨hsync, hroom, hearlier⟩
      have hne : offset ≠ 0 := by
        rintro rfl
        rw [List.drop_zero, hfirst] at hsync
        cases hsync
      have hroom := hroom.resolve_left hne
      exact ⟨hsync, by omega, fun earlier _ hlt => hearlier earlier hlt⟩

/-- The search finds nothing exactly if the bytes are in sync at none of these offsets. -/
theorem syncOffset?_eq_none_iff : syncOffset? bytes = none ↔
    inSync bytes = false ∧
      ∀ offset, offset + packetSize ≤ bytes.length → inSync (bytes.drop offset) = false := by
  unfold syncOffset?
  cases hfirst : inSync bytes with
  | true => simp
  | false =>
    rw [if_neg (by simp), List.find?_range'_eq_none]
    simp only [Bool.not_eq_true', true_and]
    constructor
    · intro h offset hroom
      rcases Nat.eq_zero_or_pos offset with rfl | hpos
      · exact hfirst
      · exact h offset hpos (by omega)
    · intro h offset hpos hlt
      exact h offset (by omega)

namespace Packetizer

/-- Bytes that are in sync are read from the first one on. -/
theorem readWindow_of_inSync (h : inSync bytes = true) : readWindow bytes = readAligned bytes := by
  rw [readWindow, syncOffset?, if_pos h]
  rfl

/-- Bytes that are in sync only from a later place on are read from there on. -/
theorem readWindow_of_offset (h : syncOffset? bytes = some offset) (hne : offset ≠ 0) :
    readWindow bytes =
      ((readAligned (bytes.drop offset)).1,
        .notice (.resynchronized offset) :: (readAligned (bytes.drop offset)).2) := by
  obtain ⟨n, rfl⟩ := Nat.exists_eq_succ_of_ne_zero hne
  rw [readWindow, h]
  rfl

/-- Bytes that are in sync from no place on are dropped. -/
theorem readWindow_of_none (h : syncOffset? bytes = none) :
    readWindow bytes = ({}, [.notice (.noSyncPoint bytes.length)]) := by
  rw [readWindow, h]

/-- While nothing is held, a chunk is read by itself. -/
theorem read_empty {chunk : Bytes} (hne : chunk ≠ []) :
    ({} : Packetizer).read chunk = readWindow chunk := by
  rw [read, if_neg hne, dif_neg (by simp)]

end Packetizer

end TransportStream
