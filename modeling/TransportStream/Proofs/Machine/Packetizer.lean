import TransportStream.Proofs.Machine.Simulation
import TransportStream.Proofs.Packetizer.Search

/-!
# Cutting a stream with checked places

A chunk is cut into packets at places that lie inside of it, and the held start of a packet is
always shorter than a packet.
-/

namespace TransportStream.Machine

open Packetizer (Output)

/-- Whether the sync byte begins the bytes and every further packet that fits into them. -/
def checkSync (bytes : Bytes) : Checked Bool :=
  if syncAt bytes 0 then
    (List.range' 1 (bytes.length / packetSize - 1)).allM fun i => do
      return syncAt bytes (← mul 64 i packetSize)
  else return false

/-- Looks for the least offset from which on bytes are in sync. -/
def findSync (bytes : Bytes) : Checked (Option Nat) := do
  if ← checkSync bytes then return some 0
  else if bytes.length < packetSize then return none
  else
    let last ← sub bytes.length packetSize
    (List.range' 1 last).findM? fun offset => do checkSync (← slice bytes offset bytes.length)

/-- Cuts some packets off the front. -/
def cutPackets : Nat → Bytes → Checked (List Bytes × Bytes)
  | 0, bytes => return ([], bytes)
  | n + 1, bytes => do
    let packet ← slice bytes 0 packetSize
    let rest ← slice bytes packetSize bytes.length
    let (packets, tail) ← cutPackets n rest
    return (packet :: packets, tail)

/-- Cuts bytes that are in sync into packets. Gives the bytes that are held behind them. -/
def cutAligned (bytes : Bytes) : Checked (Bytes × List Output) := do
  let (packets, tail) ← cutPackets (bytes.length / packetSize) bytes
  if tail = [] ∨ tail.head? = some syncByte then return (tail, packets.map .packet)
  else return ([], packets.map .packet ++ [.notice (.strayTail tail.length)])

/-- Cuts bytes into packets from the first place on from which they are in sync. -/
def cutWindow (bytes : Bytes) : Checked (Bytes × List Output) := do
  match ← findSync bytes with
  | none => return ([], [.notice (.noSyncPoint bytes.length)])
  | some offset =>
    let (held, outputs) ← cutAligned (← slice bytes offset bytes.length)
    if offset = 0 then return (held, outputs)
    else return (held, .notice (.resynchronized offset) :: outputs)

/-- Reads a chunk while some bytes are held. -/
def readChunk (held chunk : Bytes) : Checked (Bytes × List Output) := do
  given (chunk ≠ []) .emptyChunk ()
  if held = [] then cutWindow chunk
  else
    let missing ← sub packetSize held.length
    if chunk.length < missing then return (held ++ chunk, [])
    else
      let head ← slice chunk 0 missing
      let rest ← slice chunk missing chunk.length
      if rest = [] then return ([], [.packet (held ++ head)])
      else if ← checkSync rest then
        let (held', outputs) ← cutWindow rest
        return (held', .packet (held ++ head) :: outputs)
      else
        let (held', outputs) ← cutWindow chunk
        return (held', .notice (.brokenPacket held.length) :: outputs)

section Search

variable {α : Type}

/-- A search whose steps have no fault has none. -/
theorem allM_eq {xs : List α} {f : α → Checked Bool} {g : α → Bool}
    (h : ∀ x ∈ xs, f x = pure (g x)) : xs.allM f = pure (xs.all g) := by
  induction xs with
  | nil => rfl
  | cons x xs ih =>
    rw [List.allM, h x List.mem_cons_self, pure_bind, List.all_cons]
    cases g x with
    | true => exact ih fun y hy => h y (List.mem_cons_of_mem _ hy)
    | false => rfl

/-- A search for the first element is without a fault if each of its questions is. -/
theorem findM?_eq {xs : List α} {f : α → Checked Bool} {g : α → Bool}
    (h : ∀ x ∈ xs, f x = pure (g x)) : xs.findM? f = pure (xs.find? g) := by
  induction xs with
  | nil => rfl
  | cons x xs ih =>
    rw [List.findM?, h x List.mem_cons_self, pure_bind, List.find?_cons]
    cases g x with
    | true => rfl
    | false => exact ih fun y hy => h y (List.mem_cons_of_mem _ hy)

end Search

variable {bytes : Bytes}

/-- The rest of a buffer is taken without a fault from a place inside of it. -/
theorem slice_from_eq {α : Type} {buffer : List α} {start : Nat} (h : start ≤ buffer.length) :
    slice buffer start buffer.length = pure (buffer.drop start) := by
  rw [slice_eq h (Nat.le_refl _), List.take_length]

/-- Whether bytes are in sync is found out without a fault, as the places of their packets lie
inside of them. -/
theorem checkSync_eq (hbytes : bytes.length < bufferLimit) :
    checkSync bytes = pure (inSync bytes) := by
  rw [bufferLimit] at hbytes
  unfold checkSync inSync
  cases hfirst : syncAt bytes 0 with
  | false => simp
  | true =>
    rw [if_pos rfl, Bool.true_and]
    have hall : ∀ i ∈ List.range' 1 (bytes.length / packetSize - 1),
        (do return syncAt bytes (← mul 64 i packetSize) : Checked Bool) =
          pure (syncAt bytes (i * packetSize)) := by
      intro i hi
      have hbound : i ≤ bytes.length / packetSize := by
        have hrange := List.mem_range'_1.mp hi
        generalize bytes.length / packetSize = count at hrange
        omega
      have hplace := Nat.mul_le_mul_right packetSize hbound
      have hlast := Nat.div_mul_le_self bytes.length packetSize
      rw [mul_eq (by omega), pure_bind]
    rw [allM_eq hall]
    -- The first packet begins with the sync byte anyway.
    cases hcount : bytes.length / packetSize with
    | zero => rfl
    | succ count =>
      rw [List.range_eq_range', List.range'_succ, List.all_cons, Nat.zero_mul, hfirst,
        Bool.true_and]
      rfl

/-- The place from which on bytes are in sync is found without a fault. -/
theorem findSync_eq (hbytes : bytes.length < bufferLimit) :
    findSync bytes = pure (syncOffset? bytes) := by
  unfold findSync syncOffset?
  rw [checkSync_eq hbytes, pure_bind]
  cases hsync : inSync bytes with
  | true => rfl
  | false =>
    simp only [Bool.false_eq_true, if_false]
    by_cases hshort : bytes.length < packetSize
    · rw [if_pos hshort, Nat.sub_eq_zero_of_le (Nat.le_of_lt hshort)]
      rfl
    · rw [if_neg hshort, sub_eq (Nat.le_of_not_lt hshort), pure_bind]
      refine findM?_eq fun offset hoffset => ?_
      have hbound := (List.mem_range'_1.mp hoffset).2
      have hinside : offset ≤ bytes.length := by omega
      rw [slice_from_eq hinside, pure_bind, checkSync_eq]
      rw [List.length_drop]
      omega

/-- As many packets as fit are cut off without a fault. -/
theorem cutPackets_eq {n : Nat} (h : n * packetSize ≤ bytes.length) :
    cutPackets n bytes = pure (leadingPackets n bytes, bytes.drop (n * packetSize)) := by
  induction n generalizing bytes with
  | zero => simp [cutPackets, leadingPackets]
  | succ n ih =>
    rw [Nat.succ_mul] at h
    have hrest : n * packetSize ≤ (bytes.drop packetSize).length := by
      rw [List.length_drop]
      omega
    have hdrop : packetSize + n * packetSize = (n + 1) * packetSize := by
      rw [Nat.succ_mul, Nat.add_comm]
    rw [cutPackets, slice_eq (Nat.zero_le _) (by omega), pure_bind, slice_from_eq (by omega),
      pure_bind, ih hrest, pure_bind, leadingPackets, List.drop_zero, List.drop_drop, hdrop]

/-- Bytes are cut into packets without a fault, however many they are. -/
theorem cutAligned_eq (bytes : Bytes) :
    cutAligned bytes =
      pure ((Packetizer.readAligned bytes).1.held, (Packetizer.readAligned bytes).2) := by
  unfold cutAligned Packetizer.readAligned Packetizer.holdTail
  rw [cutPackets_eq (Nat.div_mul_le_self _ _), pure_bind]
  by_cases hsync : bytes.drop (bytes.length / packetSize * packetSize) = [] ∨
      (bytes.drop (bytes.length / packetSize * packetSize)).head? = some syncByte
  · simp only [hsync, if_true, dif_pos, List.append_nil]
  · simp only [hsync, if_false, dif_neg, not_false_eq_true]

/-- The place from which on bytes are in sync lies inside of them. -/
theorem le_of_syncOffset? {offset : Nat} (h : syncOffset? bytes = some offset) :
    offset ≤ bytes.length := by
  obtain ⟨_, hroom, _⟩ := syncOffset?_eq_some_iff.mp h
  omega

/-- Bytes are cut without a fault from the place on from which they are in sync. -/
theorem cutWindow_eq (hbytes : bytes.length < bufferLimit) :
    cutWindow bytes =
      pure ((Packetizer.readWindow bytes).1.held, (Packetizer.readWindow bytes).2) := by
  unfold cutWindow Packetizer.readWindow
  rw [findSync_eq hbytes, pure_bind]
  cases hoffset : syncOffset? bytes with
  | none => rfl
  | some offset =>
    simp only [slice_from_eq (le_of_syncOffset? hoffset), pure_bind, cutAligned_eq]
    cases offset with
    | zero => rfl
    | succ offset => rfl

/-- A chunk is read without a fault as the packetizer reads it, and the same bytes are held
behind it. -/
theorem readChunk_eq (p : Packetizer) {chunk : Bytes} (hne : chunk ≠ [])
    (hchunk : chunk.length < bufferLimit) :
    readChunk p.held chunk = pure ((p.read chunk).1.held, (p.read chunk).2) := by
  have hlt := p.held_lt
  unfold readChunk Packetizer.read
  rw [given_eq hne, pure_bind, if_neg hne]
  by_cases hempty : p.held = []
  · have hhead : p.held.head? ≠ some syncByte := by simp [hempty]
    rw [if_pos hempty, dif_neg hhead, cutWindow_eq hchunk]
  · have hhead : p.held.head? = some syncByte := p.held_sync.resolve_left hempty
    have hmissing : packetSize - p.held.length = p.missing := rfl
    rw [if_neg hempty, dif_pos hhead, sub_eq (Nat.le_of_lt hlt), pure_bind, hmissing]
    unfold Packetizer.complete
    by_cases hshort : chunk.length < p.missing
    · simp only [hshort, if_true, dif_pos]
    · have hroom : p.missing ≤ chunk.length := Nat.le_of_not_lt hshort
      rw [if_neg hshort, slice_eq (Nat.zero_le _) hroom, pure_bind, slice_from_eq hroom,
        pure_bind, List.drop_zero]
      simp only [hshort, dif_neg, not_false_eq_true]
      by_cases hexact : chunk.drop p.missing = []
      · have hall : chunk.take p.missing = chunk :=
          List.take_of_length_le (List.drop_eq_nil_iff.mp hexact)
        simp only [hexact, if_true, hall]
      · have hrest : (chunk.drop p.missing).length < bufferLimit := by
          rw [List.length_drop]
          omega
        simp only [hexact, if_false, checkSync_eq hrest, pure_bind, cutWindow_eq hrest,
          cutWindow_eq hchunk]
        cases hsync : inSync (chunk.drop p.missing) with
        | true =>
          simp only [if_true, Packetizer.readWindow_of_inSync hsync]
        | false => simp only [Bool.false_eq_true, if_false]

end TransportStream.Machine
