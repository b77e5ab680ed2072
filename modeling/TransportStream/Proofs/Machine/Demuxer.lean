import TransportStream.Proofs.Demuxer.Isolation
import TransportStream.Proofs.Machine.Tables
import TransportStream.Proofs.Packet.Decoding
import TransportStream.Proofs.Reassembly.Units

/-!
# Demultiplexing with checked counters

The continuity counters have four bits, and dropped units are counted in 64 bits. Each packet adds
one at most, so that the counts have room for fewer than `2 ^ 64` packets.
-/

namespace TransportStream.Machine

/-- The continuity counter after a given one. -/
def counterAfter (counter : Nat) : Checked Nat := return (← add 8 counter 1) % 16

/-- How many packets, modulo 16, are missing. Both counters must have four bits. -/
def countLost (expected actual : Nat) : Checked Nat := do
  given (expected < 16 ∧ actual < 16) .counter ()
  let raised ← add 8 actual 16
  return (← sub raised expected) % 16

/-- Adds a payload to the bytes of a unit, unless that takes the unit beyond the bound. -/
def extendUnit (bound pid : Nat) (bytes : Bytes) (counter : Nat) (payload : Bytes) :
    Checked Reassembly := do
  let length ← add 64 bytes.length payload.length
  if length ≤ bound then return { openUnit := some ⟨bytes ++ payload, counter⟩ }
  else return { dropped := some .tooLarge, notices := [.unitTooLarge pid bound] }

/-- What a payload does to the unit that is open on its PID. -/
def reassemble (bound pid : Nat) (unitStart : Bool) (counter : Nat) (payload : Bytes) :
    Option OpenUnit → Checked Reassembly
  | none =>
    if unitStart then extendUnit bound pid [] counter payload
    else return { notices := [.payloadSkipped pid] }
  | some unit => do
    let expected ← counterAfter unit.counter
    if counter ≠ expected then
      let lost ← countLost expected counter
      return {
        dropped := some .packetsLost
        notices := [.packetsLost pid counter expected lost unit.bytes.length] }
    else if unitStart then
      let begun ← extendUnit bound pid [] counter payload
      return { begun with
        completed := some unit.bytes
        notices := .unitComplete pid unit.bytes.length :: begun.notices }
    else extendUnit bound pid unit.bytes counter payload

/-- Counts one more unit if a payload dropped one for a reason. -/
def countDrop (count : Nat) (r : Reassembly) (drop : Drop) : Checked Nat :=
  if r.dropped = some drop then add 64 count 1 else return count

/-- Takes over what a payload did to the units of its PID. -/
def takeOver (d : Demuxer) (pid : Nat) (r : Reassembly) : Checked Demuxer := do
  let lossCount ← countDrop d.lossCount r .packetsLost
  let oversizeCount ← countDrop d.oversizeCount r .tooLarge
  return { d.withReassembly pid r with lossCount, oversizeCount }

/-- Reads a payload, for the units of its PID or for the tables. -/
def readPayload (d : Demuxer) (packet : Packet) (payload : Bytes) : Checked Demuxer.Reading :=
  if d.tables.hasStream packet.pid then do
    let r ← reassemble d.config.maxUnitSize packet.pid packet.unitStart packet.counter payload
      d.units[packet.pid]?
    let demuxer ← takeOver d packet.pid r
    return { demuxer, notices := r.notices }
  else do
    let update ← readTables d.tables packet.pid packet.unitStart payload
    return {
      demuxer := { d with tables := update.tables }
      result := update.result
      notices := update.notices }

/-- Reads the next packet. -/
def readNext (d : Demuxer) (bytes : Bytes) : Checked Demuxer.Reading := do
  let d := { d with pending := none }
  match ← parsePacket bytes with
  | .error e => return { demuxer := d, result := .error e }
  | .ok packet =>
    match packet.payload with
    | none => return { demuxer := d }
    | some payload => readPayload d packet payload

/-- All units of a demultiplexer keep to the limit of a buffer. -/
structure Small (d : Demuxer) : Prop where
  /-- The open units do. -/
  units : ∀ (pid : Nat) (unit : OpenUnit), d.units[pid]? = some unit →
    unit.bytes.length < bufferLimit
  /-- The pending unit does. -/
  pending : ∀ unit ∈ d.pending, unit.bytes.length < bufferLimit

/-- What holds of the counters of a demultiplexer that has read some packets. -/
structure Counted (reads : Nat) (d : Demuxer) : Prop where
  /-- The continuity counters of open units have four bits. -/
  counters : ∀ (pid : Nat) (unit : OpenUnit), d.units[pid]? = some unit → unit.counter < 16
  /-- At most one unit was dropped for each packet because packets were lost. -/
  losses : d.lossCount ≤ reads
  /-- At most one unit was dropped for each packet because of its size. -/
  oversizes : d.oversizeCount ≤ reads

/-- A new demultiplexer has open units and counts that go with no packets. -/
theorem counted_new (config : Config) : Counted 0 { config } where
  counters pid unit h := by simp at h
  losses := Nat.le_refl _
  oversizes := Nat.le_refl _

/-- Counts that go with some packets go with more of them. -/
theorem Counted.mono {reads later : Nat} {d : Demuxer} (h : Counted reads d)
    (hle : reads ≤ later) : Counted later d where
  counters := h.counters
  losses := Nat.le_trans h.losses hle
  oversizes := Nat.le_trans h.oversizes hle

/-- Each packet adds one to either count at most. -/
theorem Counted.read {reads : Nat} {d : Demuxer} (h : Counted reads d) (bytes : Bytes) :
    Counted (reads + 1) (d.read bytes).demuxer := by
  have hlater := h.mono (Nat.le_succ reads)
  cases hfragment : fragment? bytes with
  | none =>
    rw [Demuxer.read_of_no_fragment hfragment]
    exact ⟨hlater.counters, hlater.losses, hlater.oversizes⟩
  | some f =>
    cases hstream : d.tables.hasStream f.pid with
    | false =>
      rw [Demuxer.read_of_not_hasStream hfragment hstream]
      exact ⟨hlater.counters, hlater.losses, hlater.oversizes⟩
    | true =>
      rw [Demuxer.read_of_hasStream hfragment hstream]
      have hadded : ∀ p : Prop, [Decidable p] → (if p then 1 else 0) ≤ 1 := by
        intro p _
        split <;> omega
      refine ⟨?_, Nat.add_le_add h.losses (hadded _), Nat.add_le_add h.oversizes (hadded _)⟩
      intro pid unit hunit
      rw [Demuxer.units_withReassembly] at hunit
      split at hunit
      case isTrue =>
        rw [Reassembly.counter_ofFragment hunit]
        exact counter_lt_of_fragment hfragment
      case isFalse => exact h.counters pid unit hunit

/-- The counter after one of four bits is computed without a fault. -/
theorem counterAfter_eq {counter : Nat} (h : counter < 16) :
    counterAfter counter = pure (nextCounter counter) := by
  rw [counterAfter, add_eq (by omega), pure_bind, nextCounter]

/-- Between counters of four bits the missing packets are counted without a fault. -/
theorem countLost_eq {expected actual : Nat} (hexpected : expected < 16) (hactual : actual < 16) :
    countLost expected actual = pure (continuityLoss expected actual) := by
  rw [countLost, given_eq ⟨hexpected, hactual⟩, pure_bind, add_eq (by omega), pure_bind,
    sub_eq (by omega), pure_bind, continuityLoss]

/-- A payload is added without a fault to a unit that keeps to the limit of a buffer. -/
theorem extendUnit_eq (bound pid : Nat) {bytes : Bytes} (counter : Nat) {payload : Bytes}
    (hbytes : bytes.length < bufferLimit) (hpayload : payload.length < bufferLimit) :
    extendUnit bound pid bytes counter payload =
      pure (Reassembly.extend bound pid bytes counter payload) := by
  rw [bufferLimit] at hbytes hpayload
  rw [extendUnit, add_eq (by omega), pure_bind, Reassembly.extend]
  split <;> rfl

/-- A payload with a counter of four bits meets the open unit of its PID without a fault. -/
theorem reassemble_eq (bound pid : Nat) (unitStart : Bool) {counter : Nat} {payload : Bytes}
    {unit : Option OpenUnit} (hcounter : counter < 16) (hpayload : payload.length < bufferLimit)
    (hunit : ∀ before ∈ unit, before.counter < 16 ∧ before.bytes.length < bufferLimit) :
    reassemble bound pid unitStart counter payload unit =
      pure (Reassembly.ofPayload bound pid unitStart counter payload unit) := by
  have hempty : ([] : Bytes).length < bufferLimit := by decide
  have hbegun := extendUnit_eq bound pid counter hempty hpayload
  cases unit with
  | none =>
    rw [reassemble, hbegun, Reassembly.ofPayload]
    split <;> rfl
  | some unit =>
    obtain ⟨hlast, hbytes⟩ := hunit unit rfl
    have hexpected : nextCounter unit.counter < 16 := Nat.mod_lt _ (by decide)
    rw [reassemble, counterAfter_eq hlast, pure_bind, hbegun, countLost_eq hexpected hcounter,
      extendUnit_eq bound pid counter hbytes hpayload, Reassembly.ofPayload]
    simp only [pure_bind]
    split
    · rfl
    · split <;> rfl

/-- A dropped unit is counted without a fault while its count has room. -/
theorem countDrop_eq {count : Nat} (h : count + 1 < 2 ^ 64) (r : Reassembly) (drop : Drop) :
    countDrop count r drop = pure (count + if r.dropped = some drop then 1 else 0) := by
  unfold countDrop
  split
  case isTrue hdrop => rw [add_eq h]
  case isFalse => rfl

/-- While both counts have room, what became of a unit is taken over without a fault. -/
theorem takeOver_eq {d : Demuxer} (hloss : d.lossCount + 1 < 2 ^ 64)
    (hoversize : d.oversizeCount + 1 < 2 ^ 64) (pid : Nat) (r : Reassembly) :
    takeOver d pid r = pure (d.withReassembly pid r) := by
  rw [takeOver, countDrop_eq hloss, pure_bind, countDrop_eq hoversize, pure_bind]
  rfl

/-- A packet is read without a fault as the demultiplexer reads it. -/
theorem readNext_eq {reads : Nat} {d : Demuxer} (hcounted : Counted reads d) (hsmall : Small d)
    (hreads : reads + 1 < 2 ^ 64) (bytes : Bytes) : readNext d bytes = pure (d.read bytes) := by
  have hlosses := hcounted.losses
  have hoversizes := hcounted.oversizes
  unfold readNext Demuxer.read
  rw [parsePacket_eq, pure_bind]
  cases hpacket : Packet.decode bytes with
  | error e => rfl
  | ok packet =>
    cases hpayload : packet.payload with
    | none => simp only [hpayload]
    | some payload =>
      have hlength := length_payload_lt hpacket hpayload
      have hcounter := Packet.counter_lt_of_decode hpacket
      simp only [hpayload]
      unfold readPayload Demuxer.readPayload
      split
      case isTrue =>
        have hunit : ∀ unit ∈ d.units[packet.pid]?,
            unit.counter < 16 ∧ unit.bytes.length < bufferLimit :=
          fun unit hunit => ⟨hcounted.counters _ _ hunit, hsmall.units _ _ hunit⟩
        have htaken := takeOver_eq (d := { d with pending := none }) (by simp only; omega)
          (by simp only; omega) packet.pid
        simp only [reassemble_eq _ _ _ hcounter hlength hunit, pure_bind, htaken]
      case isFalse => simp only [readTables_eq _ _ _ hlength, pure_bind]

end TransportStream.Machine
