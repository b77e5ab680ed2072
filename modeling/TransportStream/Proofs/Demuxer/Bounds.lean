import TransportStream.Proofs.Demuxer.Gapless
import TransportStream.Proofs.Packet.Decoding
import TransportStream.Proofs.Reassembly.Size
import TransportStream.Proofs.Tables.Ranges

/-!
# What a demultiplexer holds

Whatever packets arrive, no unit that a demultiplexer holds is larger than its configuration allows.
Units are held only for PIDs that a known map table lists, and all PIDs that are known, in the
tables and beside them, are in range.
-/

namespace TransportStream.Demuxer

/-- The bounds that a demultiplexer keeps to with a configuration. -/
structure InBounds (config : Config) (d : Demuxer) : Prop where
  /-- The configuration is the one that the demultiplexer was given. -/
  config_eq : d.config = config
  /-- The known tables are of their kinds, and the PIDs in them are in range. -/
  tables : d.tables.InRange
  /-- A PID with an open unit is in range. -/
  pid : ∀ (pid : Nat) (unit : OpenUnit), d.units[pid]? = some unit → pid < 8192
  /-- It carries an elementary stream. -/
  known : ∀ (pid : Nat) (unit : OpenUnit), d.units[pid]? = some unit →
    d.tables.hasStream pid = true
  /-- An open unit is not too large. -/
  size : ∀ (pid : Nat) (unit : OpenUnit), d.units[pid]? = some unit →
    unit.bytes.length ≤ config.maxUnitSize
  /-- Its counter has four bits. -/
  counter : ∀ (pid : Nat) (unit : OpenUnit), d.units[pid]? = some unit → unit.counter < 16
  /-- The PID of the pending unit carries an elementary stream. -/
  pendingKnown : ∀ unit, d.pending = some unit → d.tables.hasStream unit.pid = true
  /-- The pending unit is not too large. -/
  pendingSize : ∀ unit, d.pending = some unit → unit.bytes.length ≤ config.maxUnitSize

/-- A packet has a fragment on an elementary stream, with which it opens or continues a unit that
has some bytes before it. -/
structure Joins (d : Demuxer) (bytes : Bytes) (f : Fragment) (soFar : Bytes) : Prop where
  /-- The packet has the fragment. -/
  fragment : fragment? bytes = some f
  /-- The PID of the packet carries an elementary stream. -/
  known : d.tables.hasStream f.pid = true
  /-- The fragment opens or continues a unit. -/
  joins : f.Joins d.units[f.pid]? soFar

/-- How the size of a unit decides whether a packet makes a demultiplexer drop it. -/
structure DropsBySize (d : Demuxer) (bytes : Bytes) : Prop where
  /-- A unit that reaches the bound at most is kept. -/
  kept : ∀ f soFar, d.Joins bytes f soFar →
    soFar.length + f.payload.length ≤ d.config.maxUnitSize →
      (d.read bytes).demuxer.units[f.pid]? = some ⟨soFar ++ f.payload, f.counter⟩ ∧
        (d.read bytes).demuxer.oversizeCount = d.oversizeCount
  /-- A unit that exceeds the bound is dropped and counted. -/
  dropped : ∀ f soFar, d.Joins bytes f soFar →
    d.config.maxUnitSize < soFar.length + f.payload.length →
      (d.read bytes).demuxer.units[f.pid]? = none ∧
        (d.read bytes).demuxer.oversizeCount = d.oversizeCount + 1
  /-- A packet that neither opens nor continues a unit drops none because of its size. -/
  other : (∀ f soFar, ¬ d.Joins bytes f soFar) →
    (d.read bytes).demuxer.oversizeCount = d.oversizeCount

variable {d : Demuxer} {config : Config} {bytes : Bytes}

/-- A new demultiplexer keeps to the bounds of its configuration. -/
theorem inBounds_nil (config : Config) : InBounds config { config } where
  config_eq := rfl
  tables := Tables.inRange_nil
  pid := by simp
  known := by simp
  size := by simp
  counter := by simp
  pendingKnown := by simp
  pendingSize := by simp

/-- The tables stay in range, since a packet reads tables from its own PID only. -/
theorem inRange_read (h : d.tables.InRange) (bytes : Bytes) :
    (d.read bytes).demuxer.tables.InRange := by
  obtain ⟨_, hread⟩ | ⟨f, _, _, hread⟩ | ⟨f, hfragment, _, hread⟩ := read_cases d bytes
  · rwa [hread]
  · rwa [hread, withReassembly]
  · rw [hread]
    exact h.change (pid_lt_of_fragment hfragment) (Tables.change_read _ _ _ _)

/-- An open unit stays as it is, or the packet brings it its last fragment. -/
theorem InBounds.open_read (h : d.InBounds config) {pid : Nat} {unit : OpenUnit}
    (hunit : (d.read bytes).demuxer.units[pid]? = some unit) :
    unit.bytes.length ≤ config.maxUnitSize ∧ unit.counter < 16 := by
  rcases units_read d bytes pid with hsame | ⟨f, hfragment, _, _, hopen⟩
  · rw [hsame] at hunit
    exact ⟨h.size pid unit hunit, h.counter pid unit hunit⟩
  · rw [hopen] at hunit
    constructor
    · rw [← h.config_eq]
      exact Reassembly.length_le_of_openUnit hunit
    · rw [Reassembly.counter_ofFragment hunit]
      exact counter_lt_of_fragment hfragment

/-- A packet takes nothing beyond the bounds. -/
theorem InBounds.read (h : d.InBounds config) (bytes : Bytes) :
    (d.read bytes).demuxer.InBounds config := by
  have hranges := inRange_read h.tables bytes
  refine {
    config_eq := (config_read d bytes).trans h.config_eq
    tables := hranges
    pid := fun pid unit hunit => hranges.lt_of_hasStream (known_read h.known hunit)
    known := fun pid unit hunit => known_read h.known hunit
    size := fun pid unit hunit => (h.open_read hunit).1
    counter := fun pid unit hunit => (h.open_read hunit).2
    pendingKnown := ?_
    pendingSize := ?_ }
  -- The pending unit was open before the packet, with the bytes that it has now.
  · intro unit hpending
    obtain ⟨f, previous, _, _, _, hopen, _, _⟩ := exists_of_pending hpending
    exact hasStream_read (h.known unit.pid previous hopen) bytes
  · intro unit hpending
    obtain ⟨f, previous, _, _, _, hopen, hbytes, _⟩ := exists_of_pending hpending
    rw [← hbytes]
    exact h.size unit.pid previous hopen

/-- To hand out a unit leaves the bounds as they are. -/
theorem InBounds.take (h : d.InBounds config) : d.take.2.InBounds config where
  config_eq := h.config_eq
  tables := h.tables
  pid := h.pid
  known := h.known
  size := h.size
  counter := h.counter
  pendingKnown := by simp [Demuxer.take]
  pendingSize := by simp [Demuxer.take]

/-- Where everything is forgotten, nothing is left that could be out of bounds. -/
theorem InBounds.reset (h : d.InBounds config) : d.reset.InBounds config where
  config_eq := h.config_eq
  tables := Tables.inRange_nil
  pid := by simp [Demuxer.reset]
  known := by simp [Demuxer.reset]
  size := by simp [Demuxer.reset]
  counter := by simp [Demuxer.reset]
  pendingKnown := by simp [Demuxer.reset]
  pendingSize := by simp [Demuxer.reset]

/-- Whatever is done with a new demultiplexer, it keeps to the bounds of its configuration. -/
theorem inBounds_run (config : Config) (actions : List Action) :
    (({ config } : Demuxer).run actions).InBounds config := by
  induction actions using List.reverseRecOn with
  | nil => exact inBounds_nil config
  | append_singleton actions action ih =>
    rw [run_concat]
    cases action with
    | read bytes => exact ih.read bytes
    | take => exact ih.take
    | reset => exact ih.reset

/-- A packet that opens or continues a unit does with it what its fragment does. -/
theorem Joins.read {f : Fragment} {soFar : Bytes} (h : d.Joins bytes f soFar) :
    (d.read bytes).demuxer.units[f.pid]? =
        Reassembly.openUpTo d.config.maxUnitSize (soFar ++ f.payload) f.counter ∧
      (d.read bytes).demuxer.oversizeCount = d.oversizeCount +
        if (soFar ++ f.payload).length ≤ d.config.maxUnitSize then 0 else 1 := by
  obtain ⟨hopen, hdropped⟩ := Reassembly.ofFragment_of_joins d.config.maxUnitSize h.joins
  rw [read_of_hasStream h.fragment h.known, units_withReassembly, if_pos rfl, hopen]
  refine ⟨rfl, ?_⟩
  rw [withReassembly, hdropped]
  by_cases hfits : (soFar ++ f.payload).length ≤ d.config.maxUnitSize
  · rw [if_pos hfits, if_pos hfits]
    rfl
  · rw [if_neg hfits, if_neg hfits]
    rfl

/-- Whether a packet drops a unit because of its size is decided by the bound alone. -/
theorem dropsBySize (d : Demuxer) (bytes : Bytes) : d.DropsBySize bytes where
  kept f soFar hjoins hfits := by
    rw [← List.length_append] at hfits
    obtain ⟨hopen, hcount⟩ := hjoins.read
    rw [if_pos hfits] at hcount
    exact ⟨hopen.trans (if_pos hfits), hcount⟩
  dropped f soFar hjoins hover := by
    rw [← List.length_append, ← not_le] at hover
    obtain ⟨hopen, hcount⟩ := hjoins.read
    rw [if_neg hover] at hcount
    exact ⟨hopen.trans (if_neg hover), hcount⟩
  other hnone := by
    obtain ⟨_, hread⟩ | ⟨f, hfragment, hstream, hread⟩ | ⟨f, _, _, hread⟩ := read_cases d bytes
    · rw [hread]
    · have hjoins : ∀ soFar, ¬ f.Joins d.units[f.pid]? soFar := by
        intro soFar hjoins
        exact hnone f soFar ⟨hfragment, hstream, hjoins⟩
      have hdropped := (Reassembly.ofFragment_of_not_joins d.config.maxUnitSize hjoins).2
      rw [hread, withReassembly, if_neg hdropped, Nat.add_zero]
    · rw [hread]

/-- Whatever is done with a demultiplexer, it keeps to its bounds. The next packet makes it drop a
unit because of its size exactly if the packet opens or continues the unit, and takes it beyond the
bound. -/
theorem stays_in_bounds (config : Config) (actions : List Action) :
    let d := ({ config } : Demuxer).run actions
    d.InBounds config ∧ ∀ bytes, d.DropsBySize bytes := by
  intro d
  exact ⟨inBounds_run config actions, dropsBySize d⟩

/-- A unit of two packets is kept if its size is the bound, and dropped if the bound is less. -/
example :
    let packet (first : Bytes) : Bytes := first ++ List.replicate (188 - first.length) 0xff
    let actions : List Action := [
      .read (packet [0x47, 0x40, 0x00, 0x10, 0x00, 0x00, 0xb0, 0x0d, 0x00, 0x01, 0xc1, 0x00, 0x00,
        0x00, 0x01, 0xe0, 0x20, 0, 0, 0, 0]),
      .read (packet [0x47, 0x40, 0x20, 0x10, 0x00, 0x02, 0xb0, 0x12, 0x00, 0x01, 0xc1, 0x00, 0x00,
        0xe0, 0x41, 0xf0, 0x00, 0x1b, 0xe0, 0x41, 0xf0, 0x00, 0, 0, 0, 0]),
      .read (packet [0x47, 0x40, 0x41, 0x10]), .read (packet [0x47, 0x00, 0x41, 0x11])]
    let outcome (bound : Nat) : Option Nat × Nat :=
      let d := ({ config := { maxUnitSize := bound } } : Demuxer).run actions
      (d.units[0x41]?.map (·.bytes.length), d.oversizeCount)
    outcome 368 = (some 368, 0) ∧ outcome 367 = (none, 1) := by
  decide +kernel

end TransportStream.Demuxer
