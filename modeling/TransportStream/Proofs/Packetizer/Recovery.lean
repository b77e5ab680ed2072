import TransportStream.Proofs.Packetizer.Chunking
import TransportStream.Proofs.Packetizer.Soundness

/-!
# Finding sync again behind noise

A chunk that begins between two packets, and into which no packet fits whole, is dropped. Sync
is therefore found at the first packet that begins a chunk or lies within one, however many
packets that takes, and kept from there on. Chunks of one and a half packets are long enough
for one of any three packets to lie within a chunk.
-/

namespace TransportStream

/-- A packet in which the sync byte stands only first. -/
def HasLoneSync (bytes : Bytes) : Prop := IsPacket bytes ∧ syncByte ∉ bytes.tail

instance (bytes : Bytes) : Decidable (HasLoneSync bytes) := by unfold HasLoneSync; infer_instance

/-- At a place in a stream that is cut into chunks, a chunk begins, or goes on with at least the
bytes of a packet. -/
def Caught (chunks : List Bytes) (place : Nat) : Prop :=
  ∃ before chunk after, chunks = before ++ chunk :: after ∧ before.flatten.length ≤ place ∧
    (before.flatten.length = place ∨ place + packetSize ≤ before.flatten.length + chunk.length)

variable {noise bytes chunk : Bytes} {chunks packets : List Bytes} {place : Nat}

/-- A packet within the first chunk is caught. -/
theorem caught_of_le (h : place + packetSize ≤ chunk.length) (chunks : List Bytes) :
    Caught (chunk :: chunks) place :=
  ⟨[], chunk, chunks, rfl, Nat.zero_le _, .inr (by simpa using h)⟩

/-- A packet that begins behind the first chunk is caught if the later chunks catch it. -/
theorem Caught.cons (h : Caught chunks place) (chunk : Bytes) :
    Caught (chunk :: chunks) (chunk.length + place) := by
  obtain ⟨before, next, after, rfl, hle, hplace⟩ := h
  refine ⟨chunk :: before, next, after, rfl, ?_, ?_⟩ <;>
  · simp only [List.flatten_cons, List.length_append]
    omega

/-- It is the later chunks that catch it, unless it is at the very beginning. -/
theorem caught_cons_iff (hpos : 0 < chunk.length + place) :
    Caught (chunk :: chunks) (chunk.length + place) ↔ Caught chunks place := by
  constructor
  · rintro ⟨before, next, after, hchunks, hle, hplace⟩
    cases before with
    | nil =>
      obtain ⟨rfl, rfl⟩ := List.cons.inj hchunks
      simp only [List.flatten_nil, List.length_nil] at hplace
      have hsize := packetSize_pos
      omega
    | cons first before =>
      obtain ⟨rfl, rfl⟩ := List.cons.inj hchunks
      simp only [List.flatten_cons, List.length_append] at hle hplace
      exact ⟨before, next, after, rfl, by omega, by omega⟩
  · intro h
    exact h.cons chunk

/-- A packet that begins within the first chunk and does not end there is not caught. -/
theorem not_caught_of_lt (hpos : 0 < place) (hlt : place < chunk.length)
    (hend : chunk.length < place + packetSize) : ¬ Caught (chunk :: chunks) place := by
  rintro ⟨before, next, after, hchunks, hle, hplace⟩
  cases before with
  | nil =>
    obtain ⟨rfl, rfl⟩ := List.cons.inj hchunks
    simp only [List.flatten_nil, List.length_nil] at hplace
    omega
  | cons first before =>
    obtain ⟨rfl, rfl⟩ := List.cons.inj hchunks
    simp only [List.flatten_cons, List.length_append] at hle
    omega

/-- Let all chunks but the last one have at least the bytes of one and a half packets. Then one of
any three packets in a row is caught. -/
theorem exists_caught (hlong : ∀ chunk ∈ chunks.dropLast, 3 * packetSize ≤ 2 * chunk.length)
    (hend : place + 3 * packetSize ≤ chunks.flatten.length) :
    ∃ i < 3, Caught chunks (place + i * packetSize) := by
  have hsize : packetSize = 188 := rfl
  induction chunks generalizing place with
  | nil =>
    simp only [List.flatten_nil, List.length_nil] at hend
    omega
  | cons first chunks ih =>
    simp only [List.flatten_cons, List.length_append] at hend
    by_cases hwhole : place + packetSize ≤ first.length
    · exact ⟨0, by decide, caught_of_le (by omega) chunks⟩
    cases chunks with
    | nil =>
      simp only [List.flatten_nil, List.length_nil] at hend
      omega
    | cons second chunks =>
      rw [List.dropLast_cons_cons] at hlong
      have hfirst := hlong first List.mem_cons_self
      have hlater := fun chunk hchunk => hlong chunk (List.mem_cons_of_mem _ hchunk)
      by_cases hbehind : first.length ≤ place
      · have hrest : place - first.length + 3 * packetSize ≤ (second :: chunks).flatten.length := by
          omega
        obtain ⟨i, hi, hcaught⟩ := ih hlater hrest
        refine ⟨i, hi, ?_⟩
        have hplace : place + i * packetSize =
            first.length + (place - first.length + i * packetSize) := by omega
        rw [hplace]
        exact hcaught.cons first
      -- The first chunk ends within the first packet, and the second one may end within the next.
      simp only [List.flatten_cons, List.length_append] at hend
      by_cases hnext : place + 2 * packetSize ≤ first.length + second.length
      · refine ⟨1, by decide, ?_⟩
        have hplace : place + 1 * packetSize =
            first.length + (place + packetSize - first.length) := by omega
        rw [hplace]
        exact (caught_of_le (by omega) chunks).cons first
      cases chunks with
      | nil =>
        simp only [List.flatten_nil, List.length_nil] at hend
        omega
      | cons third chunks =>
        rw [List.dropLast_cons_cons] at hlater
        have hsecond := hlater second List.mem_cons_self
        have hthird : place + 3 * packetSize ≤ first.length + (second.length + third.length) := by
          cases chunks with
          | nil => simpa using hend
          | cons fourth chunks =>
            rw [List.dropLast_cons_cons] at hlater
            have hthird := hlater third (List.mem_cons_of_mem _ List.mem_cons_self)
            omega
        refine ⟨2, by decide, ?_⟩
        have hplace : place + 2 * packetSize = first.length +
            (second.length + (place + 2 * packetSize - first.length - second.length)) := by omega
        rw [hplace]
        exact ((caught_of_le (by omega) chunks).cons second).cons first

/-- Bytes that begin with noise are not in sync. -/
theorem inSync_drop_of_noise (hnoise : syncByte ∉ noise) {offset : Nat}
    (hoffset : offset < noise.length) (bytes : Bytes) :
    inSync ((noise ++ bytes).drop offset) = false := by
  apply inSync_eq_false_of_head
  rw [List.head?_drop, List.getElem?_append_left hoffset]
  intro hsync
  exact hnoise (List.mem_of_getElem? hsync)

/-- No place to begin is found in noise and the bytes behind it if no packet fits there. -/
theorem syncOffset?_of_short (hnoise : syncByte ∉ noise) (hne : noise ≠ [])
    (hshort : bytes.length < packetSize) : syncOffset? (noise ++ bytes) = none := by
  have hpos := List.length_pos_iff.mpr hne
  rw [syncOffset?_eq_none_iff]
  constructor
  · simpa using inSync_drop_of_noise hnoise hpos bytes
  · intro offset hroom
    rw [List.length_append] at hroom
    exact inSync_drop_of_noise hnoise (by omega) bytes

/-- Aligned bytes behind noise are found, if a packet fits there. -/
theorem syncOffset?_of_aligned (hnoise : syncByte ∉ noise) (haligned : Aligned bytes)
    (hroom : packetSize ≤ bytes.length) : syncOffset? (noise ++ bytes) = some noise.length := by
  have hne : bytes ≠ [] := by
    rintro rfl
    simp [packetSize] at hroom
  rw [syncOffset?_eq_some_iff]
  refine ⟨?_, .inr ?_, ?_⟩
  · rw [List.drop_left]
    exact haligned.inSync hne
  · rw [List.length_append]
    omega
  · intro earlier hearlier
    exact inSync_drop_of_noise hnoise hearlier bytes

/-- Such bytes are the sync byte with others behind it. -/
theorem HasLoneSync.exists_eq (h : HasLoneSync bytes) :
    ∃ rest, bytes = syncByte :: rest ∧ syncByte ∉ rest := by
  obtain ⟨⟨_, hhead⟩, hrest⟩ := h
  obtain ⟨rest, rfl⟩ := List.head?_eq_some_iff.mp hhead
  exact ⟨rest, rfl, hrest⟩

/-- Behind its first byte, a packet with a lone sync byte is noise. -/
theorem HasLoneSync.drop (h : HasLoneSync bytes) {n : Nat} (hpos : 0 < n) :
    syncByte ∉ bytes.drop n := by
  obtain ⟨rest, rfl, hrest⟩ := h.exists_eq
  obtain ⟨m, rfl⟩ := Nat.exists_eq_succ_of_ne_zero (Nat.ne_of_gt hpos)
  rw [List.drop_succ_cons]
  intro hmem
  exact hrest (List.mem_of_mem_drop hmem)

namespace Packetizer

/-- A chunk of noise and less than a packet is dropped. -/
theorem read_of_short (hnoise : syncByte ∉ noise) (hne : noise ≠ [])
    (hshort : bytes.length < packetSize) :
    ({} : Packetizer).read (noise ++ bytes) =
      ({}, [.notice (.noSyncPoint (noise ++ bytes).length)]) := by
  rw [read_empty (by simp [hne]), readWindow_of_none (syncOffset?_of_short hnoise hne hshort)]

/-- Of a chunk of noise and aligned bytes, the latter are read as if they came alone. -/
theorem read_of_aligned_behind (hnoise : syncByte ∉ noise) (hne : noise ≠ [])
    (haligned : Aligned bytes) (hroom : packetSize ≤ bytes.length) :
    ({} : Packetizer).read (noise ++ bytes) =
      ((({} : Packetizer).read bytes).1,
        .notice (.resynchronized noise.length) :: (({} : Packetizer).read bytes).2) := by
  have hbytes : bytes ≠ [] := by
    rintro rfl
    simp [packetSize] at hroom
  have hoffset := syncOffset?_of_aligned hnoise haligned hroom
  have hlength : noise.length ≠ 0 := by simpa using hne
  rw [read_empty (by simp [hne]), read_empty hbytes, readWindow_of_offset hoffset hlength,
    readWindow_of_inSync (haligned.inSync hbytes), List.drop_left]

/-- Of packets that begin at a place in a stream, so many are lost until one is caught, and all
others are put out. -/
structure Recovers (chunks : List Bytes) (start : Nat) (packets : List Bytes) (lost : Nat) :
    Prop where
  /-- No more packets are lost than there are. -/
  le : lost ≤ packets.length
  /-- The packets behind the lost ones are put out. -/
  packets_eq : packetsIn (({} : Packetizer).readAll chunks).2 = packets.drop lost
  /-- The lost packets are not caught. -/
  missed : ∀ i < lost, ¬ Caught chunks (start + i * packetSize)
  /-- The next one is. -/
  caught : lost < packets.length → Caught chunks (start + lost * packetSize)

/-- The packets of the first chunk come first, and then those of the chunks behind it. -/
theorem packetsIn_readAll_cons (p : Packetizer) (chunk : Bytes) (chunks : List Bytes) :
    packetsIn (p.readAll (chunk :: chunks)).2 =
      packetsIn (p.read chunk).2 ++ packetsIn ((p.read chunk).1.readAll chunks).2 :=
  packetsIn_append _ _

/-- A chunk that begins with the first packet catches it. -/
theorem recovers_at_start (hsizes : ∀ bytes ∈ packets, IsPacket bytes)
    (hchunks : (chunk :: chunks).flatten = packets.flatten) :
    Recovers (chunk :: chunks) 0 packets 0 where
  le := Nat.zero_le _
  packets_eq := by rw [(readAll_of_packets hsizes hchunks).1, packetsIn_map_packet, List.drop_zero]
  missed := by simp
  caught := fun _ => ⟨[], chunk, chunks, rfl, Nat.zero_le _, .inl rfl⟩

/-- A chunk that has the first packet behind some noise catches it. -/
theorem recovers_of_room (hnoise : syncByte ∉ noise) (hne : noise ≠ [])
    (hsizes : ∀ bytes ∈ packets, IsPacket bytes)
    (hchunks : bytes ++ chunks.flatten = packets.flatten) (hroom : packetSize ≤ bytes.length) :
    Recovers ((noise ++ bytes) :: chunks) noise.length packets 0 where
  le := Nat.zero_le _
  packets_eq := by
    have haligned : Aligned bytes := by
      have hall := aligned_flatten hsizes
      rw [← hchunks] at hall
      exact hall.of_append
    -- The packetizer goes on as if the noise had not been there.
    have hread := read_of_aligned_behind hnoise hne haligned hroom
    have hbytes : (bytes :: chunks).flatten = packets.flatten := hchunks
    have hall := congrArg packetsIn (readAll_of_packets hsizes hbytes).1
    rw [packetsIn_map_packet, packetsIn_readAll_cons] at hall
    rw [packetsIn_readAll_cons, hread, packetsIn_notice, hall, List.drop_zero]
  missed := by simp
  caught := by
    intro _
    apply caught_of_le
    rw [List.length_append]
    omega

/-- A chunk of noise changes nothing. -/
theorem Recovers.skip {start lost : Nat} (h : Recovers chunks start packets lost)
    (hnoise : syncByte ∉ chunk) (hpos : 0 < chunk.length + start) :
    Recovers (chunk :: chunks) (chunk.length + start) packets lost where
  le := h.le
  packets_eq := by
    by_cases hne : chunk = []
    · subst hne
      exact h.packets_eq
    · have hshort : ([] : Bytes).length < packetSize := by decide
      have hread := read_of_short hnoise hne hshort
      rw [List.append_nil] at hread
      rw [packetsIn_readAll_cons, hread]
      exact h.packets_eq
  missed := by
    intro i hi
    rw [Nat.add_assoc, caught_cons_iff (by omega)]
    exact h.missed i hi
  caught := by
    intro hlt
    rw [Nat.add_assoc, caught_cons_iff (by omega)]
    exact h.caught hlt

/-- A chunk of noise and a part of the first packet loses this packet. -/
theorem Recovers.lose {start lost : Nat} {first : Bytes} (h : Recovers chunks start packets lost)
    (hnoise : syncByte ∉ noise) (hne : noise ≠ []) (hpart : bytes ≠ [])
    (hlength : bytes.length + start = packetSize) (hstart : 0 < start) :
    Recovers ((noise ++ bytes) :: chunks) noise.length (first :: packets) (lost + 1) := by
  have hnoisePos := List.length_pos_iff.mpr hne
  have hpartPos := List.length_pos_iff.mpr hpart
  have hplace : ∀ i, noise.length + (i + 1) * packetSize =
      (noise ++ bytes).length + (start + i * packetSize) := by
    intro i
    rw [List.length_append, Nat.succ_mul]
    omega
  have hread := read_of_short hnoise hne (show bytes.length < packetSize by omega)
  constructor
  · exact Nat.succ_le_succ h.le
  · rw [packetsIn_readAll_cons, hread]
    exact h.packets_eq
  · intro i hi
    cases i with
    | zero =>
      rw [Nat.zero_mul, Nat.add_zero]
      apply not_caught_of_lt hnoisePos
      · rw [List.length_append]
        omega
      · rw [List.length_append]
        omega
    | succ i =>
      rw [hplace, caught_cons_iff (by rw [List.length_append]; omega)]
      exact h.missed i (Nat.lt_of_succ_lt_succ hi)
  · intro hlt
    rw [hplace, caught_cons_iff (by rw [List.length_append]; omega)]
    exact h.caught (Nat.lt_of_succ_lt_succ hlt)

/-- Behind noise, packets are lost until one is caught. -/
theorem exists_recovers (hnoise : syncByte ∉ noise)
    (hpackets : ∀ bytes ∈ packets, HasLoneSync bytes)
    (hchunks : chunks.flatten = noise ++ packets.flatten) :
    ∃ lost, Recovers chunks noise.length packets lost := by
  have hsizes : ∀ bytes ∈ packets, IsPacket bytes := fun bytes h => (hpackets bytes h).1
  induction chunks generalizing noise packets with
  | nil =>
    obtain ⟨_, hflatten⟩ := List.append_eq_nil_iff.mp hchunks.symm
    cases packets with
    | nil => exact ⟨0, Nat.le_refl _, rfl, by simp, by simp⟩
    | cons first packets =>
      have hsize := (hsizes first List.mem_cons_self).1
      rw [List.flatten_eq_nil_iff.mp hflatten first List.mem_cons_self] at hsize
      cases hsize
  | cons chunk chunks ih =>
    by_cases hne : noise = []
    · subst hne
      exact ⟨0, recovers_at_start hsizes hchunks⟩
    rw [List.flatten_cons] at hchunks
    have hpos := List.length_pos_iff.mpr hne
    by_cases hwithin : chunk.length ≤ noise.length
    · -- The chunk ends within the noise.
      obtain ⟨noise, rfl⟩ := List.prefix_of_prefix_length_le ⟨_, hchunks⟩
        (List.prefix_append noise packets.flatten) hwithin
      rw [List.append_assoc, List.append_cancel_left_eq] at hchunks
      simp only [List.mem_append, not_or] at hnoise
      obtain ⟨lost, hlater⟩ := ih hnoise.2 hpackets hchunks hsizes
      rw [List.length_append] at hpos ⊢
      exact ⟨lost, hlater.skip hnoise.1 hpos⟩
    · obtain ⟨bytes, rfl⟩ := List.prefix_of_prefix_length_le
        (List.prefix_append noise packets.flatten) ⟨_, hchunks⟩ (by omega)
      rw [List.append_assoc, List.append_cancel_left_eq] at hchunks
      by_cases hroom : packetSize ≤ bytes.length
      · exact ⟨0, recovers_of_room hnoise hne hsizes hchunks hroom⟩
      -- The chunk ends within the first packet, of which the rest is noise.
      have hpart : bytes ≠ [] := by
        rintro rfl
        simp at hwithin
      cases packets with
      | nil => simp [hpart] at hchunks
      | cons first packets =>
        obtain ⟨hfirst, hlater⟩ := List.forall_mem_cons.mp hpackets
        rw [List.flatten_cons] at hchunks
        obtain ⟨noise', rfl⟩ := List.prefix_of_prefix_length_le ⟨_, hchunks⟩
          (List.prefix_append first packets.flatten) (by rw [hfirst.1.1]; omega)
        rw [List.append_assoc, List.append_cancel_left_eq] at hchunks
        have hlength : bytes.length + noise'.length = packetSize := by
          rw [← hfirst.1.1, List.length_append]
        have hrest : syncByte ∉ noise' := by
          have hdrop : (bytes ++ noise').drop bytes.length = noise' := List.drop_left
          rw [← hdrop]
          exact hfirst.drop (List.length_pos_iff.mpr hpart)
        obtain ⟨lost, hrecovers⟩ := ih hrest hlater hchunks fun b hb => (hlater b hb).1
        exact ⟨lost + 1, hrecovers.lose hnoise hne hpart hlength (by omega)⟩

/-- Let packets, in which the sync byte stands only first, come behind noise without it, and let
all of it be cut into chunks in any way. Then exactly the packets from the first one on that
begins a chunk or lies within one are put out, in order. If all chunks but the last have at
least the bytes of one and a half packets, at most two packets are lost. -/
theorem readAll_recovers (noise : Bytes) (packets chunks : List Bytes) (hnoise : syncByte ∉ noise)
    (hpackets : ∀ bytes ∈ packets, HasLoneSync bytes)
    (hchunks : chunks.flatten = noise ++ packets.flatten) :
    ∃ lost, Recovers chunks noise.length packets lost ∧
      ((∀ chunk ∈ chunks.dropLast, 3 * packetSize ≤ 2 * chunk.length) → lost ≤ 2) := by
  obtain ⟨lost, hrecovers⟩ := exists_recovers hnoise hpackets hchunks
  refine ⟨lost, hrecovers, fun hlong => ?_⟩
  have hlength := congrArg List.length hchunks
  rw [List.length_append, length_flatten_packets fun b hb => (hpackets b hb).1] at hlength
  have hle := hrecovers.le
  rcases Nat.lt_or_ge packets.length 3 with hfew | hmany
  · omega
  · have hroom := Nat.mul_le_mul_right packetSize hmany
    have hend : noise.length + 3 * packetSize ≤ chunks.flatten.length := by omega
    obtain ⟨i, hi, hcaught⟩ := exists_caught hlong hend
    rcases Nat.lt_or_ge i lost with hmissed | hge
    · exact absurd hcaught (hrecovers.missed i hmissed)
    · omega

/-- Chunks of one and a half packets that all end within a packet. Two packets are lost, and the
third one is put out. -/
theorem readAll_recovers_third_packet :
    let noise : Bytes := List.replicate 281 0x00
    let packet (byte : UInt8) : Bytes := syncByte :: List.replicate 187 byte
    let packets := [packet 1, packet 2, packet 3]
    let stream := noise ++ packets.flatten
    let chunks := [stream.take 282, (stream.drop 282).take 282, stream.drop 564]
    syncByte ∉ noise ∧ (∀ bytes ∈ packets, HasLoneSync bytes) ∧ chunks.flatten = stream ∧
      (∀ chunk ∈ chunks.dropLast, 3 * packetSize ≤ 2 * chunk.length) ∧
      Recovers chunks noise.length packets 2 := by
  intro noise packet packets stream chunks
  have hnoise : syncByte ∉ noise := by decide +kernel
  have hpackets : ∀ bytes ∈ packets, HasLoneSync bytes := by decide +kernel
  have hchunks : chunks.flatten = stream := by decide +kernel
  have hlong : ∀ chunk ∈ chunks.dropLast, 3 * packetSize ≤ 2 * chunk.length := by decide +kernel
  obtain ⟨lost, hrecovers, hle⟩ := readAll_recovers noise packets chunks hnoise hpackets hchunks
  have hlost : lost = 2 := by
    have hthird : packetsIn (({} : Packetizer).readAll chunks).2 = [packet 3] := by decide +kernel
    have hlength := congrArg List.length (hrecovers.packets_eq.symm.trans hthird)
    rw [List.length_drop] at hlength
    have hthree : packets.length = 3 := rfl
    have hone : [packet 3].length = 1 := rfl
    omega
  exact ⟨hnoise, hpackets, hchunks, hlong, hlost ▸ hrecovers⟩

/-- In chunks of the size of a packet, one byte of noise before the packets is enough to lose all
of them. Two packets in a row therefore do not always bring the packetizer back in sync. -/
theorem not_always_recovers :
    ¬ ∀ noise : Bytes, ∀ packets chunks : List Bytes, noise ≠ [] → syncByte ∉ noise →
      3 ≤ packets.length → (∀ bytes ∈ packets, HasLoneSync bytes) →
      (∀ chunk ∈ chunks, chunk ≠ []) → chunks.flatten = noise ++ packets.flatten →
      (packets.drop 2).Sublist (packetsIn (({} : Packetizer).readAll chunks).2) := by
  intro h
  let packet (byte : UInt8) : Bytes := [syncByte, byte] ++ List.replicate 186 0xa5
  let packets := [packet 0, packet 1, packet 2]
  let stream := [0x00] ++ packets.flatten
  let chunks := [stream.take 188, (stream.drop 188).take 188, (stream.drop 376).take 188,
    stream.drop 564]
  have hsublist := h [0x00] packets chunks (by decide) (by decide) (by decide)
    (by decide +kernel) (by decide +kernel) (by decide +kernel)
  have hnone : packetsIn (({} : Packetizer).readAll chunks).2 = [] := by decide +kernel
  rw [hnone] at hsublist
  cases hsublist

end Packetizer

end TransportStream
