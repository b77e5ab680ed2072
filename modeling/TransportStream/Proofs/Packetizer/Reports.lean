import Mathlib.Algebra.GroupWithZero.Nat
import TransportStream.Proofs.Packetizer.Soundness
import TransportStream.Proofs.Receiver.Run

/-!
# Every dropped byte is reported

Whatever a packetizer reads, each byte ends up in a packet, is held, or is counted by exactly one
notice. The notices of a read say how many bytes they count, so that what goes in and what comes
out can be balanced from the outside.
-/

namespace TransportStream

/-- How many bytes of the stream were dropped when a packetizer gave a notice. -/
def Notice.droppedBytes : Notice → Nat
  | resynchronized offset => offset
  | noSyncPoint dropped | strayTail dropped | brokenPacket dropped => dropped
  | _ => 0

/-- Whether a notice tells that bytes of the stream were dropped. -/
def Notice.reportsDrop : Notice → Bool
  | resynchronized _ | noSyncPoint _ | strayTail _ | brokenPacket _ => true
  | _ => false

/-- The texts that report so many bytes of the stream as dropped. -/
def dropTexts (n : Nat) : List String :=
  [s!"no sync point found, dropping {n} bytes",
    s!"dropping {n} byte partial packet without sync byte",
    s!"lost sync completing a partial packet, dropping {n} buffered bytes",
    s!"resynchronized at offset {n}"]

/-- What reports a drop is worded with the number of bytes that it counts. -/
theorem Notice.message_mem_dropTexts {notice : Notice} (h : notice.reportsDrop = true) :
    notice.message ∈ dropTexts notice.droppedBytes := by
  cases notice with
  | noSyncPoint => exact .head _
  | strayTail => exact .tail _ (.head _)
  | brokenPacket => exact .tail _ (.tail _ (.head _))
  | resynchronized => exact .tail _ (.tail _ (.tail _ (.head _)))
  | _ => cases h

namespace Packetizer

/-- The notices among what was put out. -/
def noticesIn (outputs : List Output) : List Notice := outputs.filterMap Output.notice?

/-- Where nothing is put out, there are no notices. -/
@[simp] theorem noticesIn_nil : noticesIn [] = [] := rfl

/-- The notices of what is put out later come later. -/
@[simp] theorem noticesIn_append (first later : List Output) :
    noticesIn (first ++ later) = noticesIn first ++ noticesIn later := List.filterMap_append

/-- A packet is no notice. -/
@[simp] theorem noticesIn_packet (bytes : Bytes) (outputs : List Output) :
    noticesIn (.packet bytes :: outputs) = noticesIn outputs := rfl

/-- A notice is the first one if it comes first. -/
@[simp] theorem noticesIn_notice (notice : Notice) (outputs : List Output) :
    noticesIn (.notice notice :: outputs) = notice :: noticesIn outputs := rfl

/-- There are no notices among packets. -/
@[simp] theorem noticesIn_map_packet (packets : List Bytes) :
    noticesIn (packets.map .packet) = [] := by
  rw [noticesIn, List.filterMap_map]
  exact List.filterMap_eq_nil_iff.mpr fun _ _ => rfl

/-- A packet is the first one if it comes first. -/
@[simp] theorem packetsIn_packet (bytes : Bytes) (outputs : List Output) :
    packetsIn (.packet bytes :: outputs) = bytes :: packetsIn outputs := rfl

/-- How many bytes the notices among what was put out report as dropped. -/
def droppedIn (outputs : List Output) : Nat :=
  ((noticesIn outputs).map Notice.droppedBytes).sum

/-- So many bytes went into packets, are held, or are reported as dropped. -/
structure AccountsFor (count : Nat) (result : Packetizer × List Output) : Prop where
  /-- No byte is lost in silence, and none is reported twice. -/
  balance : count = packetSize * (packetsIn result.2).length + result.1.held.length +
    droppedIn result.2
  /-- Each notice is worded as a report of the bytes that it counts. -/
  texts : ∀ notice ∈ noticesIn result.2, notice.message ∈ dropTexts notice.droppedBytes

variable {count : Nat} {result : Packetizer × List Output} {bytes : Bytes}

/-- Without anything put out, all bytes are held. -/
theorem accountsFor_held {p : Packetizer} (h : count = p.held.length) :
    AccountsFor count (p, []) where
  balance := by simp [droppedIn, h]
  texts := by simp

/-- Where nothing is held and nothing put out, no bytes have to be accounted for. -/
theorem accountsFor_nothing : AccountsFor 0 ({}, []) := accountsFor_held rfl

/-- A packet in front accounts for its bytes. -/
theorem AccountsFor.packet (h : AccountsFor count result) (bytes : Bytes) :
    AccountsFor (packetSize + count) (result.1, .packet bytes :: result.2) where
  balance := by
    have hbalance := h.balance
    simp only [packetsIn_packet, List.length_cons, droppedIn, noticesIn_packet] at hbalance ⊢
    rw [Nat.mul_succ]
    omega
  texts := h.texts

/-- A report in front accounts for the bytes that it counts. -/
theorem AccountsFor.notice (h : AccountsFor count result) (notice : Notice)
    (hreports : notice.reportsDrop = true) :
    AccountsFor (notice.droppedBytes + count) (result.1, .notice notice :: result.2) where
  balance := by
    have hbalance := h.balance
    simp only [packetsIn_notice, droppedIn, noticesIn_notice, List.map_cons,
      List.sum_cons] at hbalance ⊢
    omega
  texts := List.forall_mem_cons.mpr ⟨notice.message_mem_dropTexts hreports, h.texts⟩

/-- What was held in between is accounted for by what comes later. -/
theorem AccountsFor.append {more : Nat} {later : Packetizer × List Output}
    (h : AccountsFor count result) (hlater : AccountsFor (result.1.held.length + more) later) :
    AccountsFor (count + more) (later.1, result.2 ++ later.2) where
  balance := by
    have hbalance := h.balance
    have hlaterBalance := hlater.balance
    simp only [packetsIn_append, List.length_append, droppedIn, noticesIn_append, List.map_append,
      List.sum_append] at hbalance hlaterBalance ⊢
    rw [Nat.mul_add]
    omega
  texts := by
    intro notice hnotice
    rw [noticesIn_append] at hnotice
    rcases List.mem_append.mp hnotice with hnotice | hnotice
    · exact h.texts notice hnotice
    · exact hlater.texts notice hnotice

/-- As many packets are cut off as are asked for. -/
theorem length_leadingPackets (n : Nat) (bytes : Bytes) :
    (leadingPackets n bytes).length = n := by
  rw [leadingPackets_eq_map_block, List.length_map, List.length_range]

/-- Bytes behind the last packet are held, or reported. -/
theorem accountsFor_holdTail (tail : Bytes) (h : tail.length < packetSize) :
    AccountsFor tail.length (holdTail tail h) := by
  unfold holdTail
  split
  case isTrue => exact accountsFor_held rfl
  case isFalse => exact accountsFor_nothing.notice (.strayTail tail.length) rfl

/-- Bytes that are cut from the first one on are the packets and what is behind them. -/
theorem accountsFor_readAligned (bytes : Bytes) : AccountsFor bytes.length (readAligned bytes) := by
  have hle := Nat.div_mul_le_self bytes.length packetSize
  have htail := accountsFor_holdTail (bytes.drop (bytes.length / packetSize * packetSize)) <| by
    rw [List.length_drop, Nat.mul_comm, ← Nat.mod_eq_sub_mul_div]
    exact Nat.mod_lt _ packetSize_pos
  unfold readAligned
  constructor
  · have hbalance := htail.balance
    have hlength : (bytes.drop (bytes.length / packetSize * packetSize)).length = _ :=
      List.length_drop
    simp only [packetsIn_append, packetsIn_map_packet, List.length_append, length_leadingPackets,
      droppedIn, noticesIn_append, noticesIn_map_packet, List.nil_append] at hbalance ⊢
    rw [Nat.mul_add, Nat.mul_comm packetSize (bytes.length / packetSize)]
    omega
  · simpa using htail.texts

/-- Wherever sync is found, the bytes before that are reported, and without sync all of them. -/
theorem accountsFor_readWindow (bytes : Bytes) : AccountsFor bytes.length (readWindow bytes) := by
  cases hoffset : syncOffset? bytes with
  | none =>
    rw [readWindow_of_none hoffset]
    exact accountsFor_nothing.notice (.noSyncPoint bytes.length) rfl
  | some offset =>
    obtain ⟨hsync, hroom, _⟩ := syncOffset?_eq_some_iff.mp hoffset
    rcases Nat.eq_zero_or_pos offset with rfl | hpos
    · rw [readWindow_of_inSync (by simpa using hsync)]
      exact accountsFor_readAligned bytes
    · have hle : offset ≤ bytes.length := by omega
      have hbehind := accountsFor_readAligned (bytes.drop offset)
      have hall := hbehind.notice (.resynchronized offset) rfl
      rw [readWindow_of_offset hoffset (Nat.ne_of_gt hpos)]
      simpa [Notice.droppedBytes, Nat.add_sub_cancel' hle] using hall

/-- Held bytes go into a packet with the first bytes of the chunk, or are reported, and then the
chunk is accounted for by itself. -/
theorem accountsFor_complete (p : Packetizer) (hheld : p.held.head? = some syncByte)
    (chunk : Bytes) : AccountsFor (p.held.length + chunk.length) (p.complete hheld chunk) := by
  have hlt := p.held_lt
  have hmissing : p.missing = packetSize - p.held.length := rfl
  unfold complete
  by_cases hshort : chunk.length < p.missing
  · rw [dif_pos hshort]
    exact accountsFor_held List.length_append.symm
  rw [dif_neg hshort]
  have hlength : p.held.length + chunk.length = packetSize + (chunk.drop p.missing).length := by
    rw [List.length_drop]
    omega
  by_cases hend : chunk.drop p.missing = []
  · rw [if_pos hend, hlength, hend]
    exact accountsFor_nothing.packet _
  rw [if_neg hend]
  by_cases hsync : inSync (chunk.drop p.missing) = true
  · rw [if_pos hsync, hlength]
    exact (accountsFor_readAligned _).packet _
  · rw [if_neg hsync]
    exact (accountsFor_readWindow chunk).notice (.brokenPacket p.held.length) rfl

/-- A read accounts for the bytes that were held and those of the chunk. -/
theorem accountsFor_read (p : Packetizer) (chunk : Bytes) :
    AccountsFor (p.held.length + chunk.length) (p.read chunk) := by
  unfold read
  by_cases hchunk : chunk = []
  · rw [if_pos hchunk, hchunk]
    exact accountsFor_held rfl
  rw [if_neg hchunk]
  by_cases hheld : p.held.head? = some syncByte
  · rw [dif_pos hheld]
    exact accountsFor_complete p hheld chunk
  · rw [dif_neg hheld, p.held_sync.resolve_right hheld]
    simpa using accountsFor_readWindow chunk

/-- The bytes that were held and those of a chunk are put out in packets, are held behind the read,
or are counted by one of its notices. Over chunk after chunk the totals balance as well. -/
theorem dropped_bytes_are_reported (p : Packetizer) :
    (∀ chunk, AccountsFor (p.held.length + chunk.length) (p.read chunk)) ∧
      ∀ chunks, AccountsFor (p.held.length + chunks.flatten.length) (p.readAll chunks) := by
  refine ⟨accountsFor_read p, ?_⟩
  intro chunks
  induction chunks generalizing p with
  | nil => exact accountsFor_held rfl
  | cons chunk chunks ih =>
    rw [List.flatten_cons, List.length_append, ← Nat.add_assoc]
    exact (accountsFor_read p chunk).append (ih (p.read chunk).1)

end Packetizer

end TransportStream
