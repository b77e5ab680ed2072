import TransportStream.Proofs.Demuxer.Isolation
import TransportStream.Proofs.Packet.Decoding
import TransportStream.Proofs.Reassembly.Units

/-!
# Where the units go

Every unit that begins on an elementary stream is completed, is dropped for one of two reasons,
or is still open. Whenever one is dropped, one count goes up by one and one warning is given,
which tells what was lost.
-/

namespace TransportStream

/-- The warnings among some notices. -/
def warnings (notices : List Notice) : List Notice := notices.filter (·.level = .warn)

/-- A counter other than the expected one tells modulo 16 how many packets are missing. -/
theorem continuityLoss_of_ne {expected actual : Nat} (hexpected : expected < 16)
    (hactual : actual < 16) (hne : actual ≠ expected) :
    1 ≤ continuityLoss expected actual ∧ continuityLoss expected actual ≤ 15 ∧
      (expected + continuityLoss expected actual) % 16 = actual := by
  unfold continuityLoss
  omega

/-- The next counter has four bits, whatever counter it comes after. -/
theorem nextCounter_lt (counter : Nat) : nextCounter counter < 16 := Nat.mod_lt _ (by decide)

namespace Reassembly

variable {bound pid counter : Nat} {bytes payload : Bytes} {f : Fragment}

/-- The open unit and the one that a fragment begins are completed, dropped or open behind it. -/
theorem isSome_add_begun (bound : Nat) (f : Fragment) (before : Option OpenUnit) :
    let r := ofFragment bound f before
    before.isSome.toNat + (f.unitStart && r.dropped != some .packetsLost).toNat =
      r.openUnit.isSome.toNat + r.completed.isSome.toNat + r.dropped.isSome.toNat := by
  intro r
  cases before with
  | none =>
    cases hstart : f.unitStart with
    | true =>
      obtain ⟨hopen, hcompleted, hdropped⟩ := ofFragment_none_of_start bound hstart
      rw [hopen, hcompleted, hdropped]
      by_cases hfits : f.payload.length ≤ bound <;>
        · simp only [openUpTo, hfits, if_true, if_false]
          rfl
    | false =>
      have hr : r = _ := ofFragment_none_of_not_start bound hstart
      rw [hr]
      rfl
  | some unit =>
    by_cases hcounter : f.counter = nextCounter unit.counter
    · cases hstart : f.unitStart with
      | true =>
        obtain ⟨hopen, hcompleted, hdropped⟩ := ofFragment_of_start bound hcounter hstart
        rw [hopen, hcompleted, hdropped]
        by_cases hfits : f.payload.length ≤ bound <;>
        · simp only [openUpTo, hfits, if_true, if_false]
          rfl
      | false =>
        have hr : r = _ := ofFragment_of_continue bound hcounter hstart
        rw [hr, openUnit_extend, completed_extend, dropped_extend]
        by_cases hfits : (unit.bytes ++ f.payload).length ≤ bound <;>
        · simp only [openUpTo, hfits, if_true, if_false]
          rfl
    · obtain ⟨hopen, hcompleted, hdropped⟩ := ofFragment_of_jump bound hcounter
      rw [hopen, hcompleted, hdropped]
      simp

/-- Why a fragment drops a unit, if it does, and what is warned of then. -/
inductive Dropping (bound : Nat) (f : Fragment) (before : Option OpenUnit) (r : Reassembly) : Prop
  /-- No unit is dropped. -/
  | none (hdropped : r.dropped = .none) (hwarnings : warnings r.notices = [])
  /-- The open unit is dropped because the counter of the fragment is not the next one. -/
  | packetsLost (unit : OpenUnit) (hopen : before = some unit)
      (hcounter : f.counter ≠ nextCounter unit.counter) (hgone : r.openUnit = .none)
      (hdropped : r.dropped = some .packetsLost)
      (hwarnings : warnings r.notices = [.packetsLost f.pid f.counter (nextCounter unit.counter)
        (continuityLoss (nextCounter unit.counter) f.counter) unit.bytes.length])
  /-- The unit that the fragment begins or extends is dropped because of its size. -/
  | tooLarge (hdropped : r.dropped = some .tooLarge)
      (hwarnings : warnings r.notices = [.unitTooLarge f.pid bound])

/-- A payload that is added to some bytes drops at most what it is added to, because of its size. -/
theorem dropping_extend (bound : Nat) (f : Fragment) (before : Option OpenUnit) (bytes : Bytes) :
    Dropping bound f before (extend bound f.pid bytes f.counter f.payload) := by
  unfold extend
  by_cases hfits : bytes.length + f.payload.length ≤ bound
  · rw [if_pos hfits]
    exact .none rfl rfl
  · rw [if_neg hfits]
    exact .tooLarge rfl rfl

/-- To complete a unit is no reason for a warning. -/
theorem Dropping.complete {before : Option OpenUnit} {r : Reassembly}
    (h : Dropping bound f before r) (bytes : Bytes) :
    Dropping bound f before { r with
      completed := some bytes
      notices := .unitComplete f.pid bytes.length :: r.notices } := by
  cases h with
  | none hdropped hwarnings => exact .none hdropped hwarnings
  | packetsLost unit hopen hcounter hgone hdropped hwarnings =>
    exact .packetsLost unit hopen hcounter hgone hdropped hwarnings
  | tooLarge hdropped hwarnings => exact .tooLarge hdropped hwarnings

/-- Whatever is open, a fragment drops a unit for one of two reasons and with its warning, or drops
none. -/
theorem dropping_ofFragment (bound : Nat) (f : Fragment) (before : Option OpenUnit) :
    Dropping bound f before (ofFragment bound f before) := by
  unfold ofFragment ofPayload
  cases before with
  | none =>
    cases f.unitStart with
    | true => exact dropping_extend bound f .none []
    | false => exact .none rfl rfl
  | some unit =>
    dsimp only
    by_cases hcounter : f.counter = nextCounter unit.counter
    · rw [if_neg (by simpa using hcounter)]
      cases f.unitStart with
      | true => exact (dropping_extend bound f (some unit) []).complete unit.bytes
      | false => exact dropping_extend bound f (some unit) unit.bytes
    · rw [if_pos hcounter]
      exact .packetsLost unit rfl hcounter rfl rfl rfl

end Reassembly

namespace Tables

/-- To announce programs is no reason for a warning. -/
theorem warnings_announce (programs : Std.ExtTreeMap Nat Program) (pids : List Nat) :
    warnings (announce programs pids).2 = [] := by
  induction pids generalizing programs with
  | nil => rfl
  | cons pid pids ih =>
    unfold announce
    by_cases hknown : pid ∈ programs
    · rw [if_pos hknown]
      exact ih programs
    · rw [if_neg hknown]
      exact ih (programs.insert pid .announced)

/-- To take in a section is no reason for a warning. -/
theorem warnings_addSection (tables : Tables) (pid : Nat) (kind : TableKind) (found : Section) :
    warnings (tables.addSection pid kind found).2 = [] := by
  cases found with
  | association table => exact warnings_announce tables.programs table.programPids
  | map table =>
    apply List.filter_eq_nil_iff.mpr
    intro notice hnotice
    rcases List.mem_cons.mp hnotice with rfl | hlisted
    · simp [Notice.level]
    · obtain ⟨stream, _, rfl⟩ := List.mem_map.mp hlisted
      simp [Notice.level]
  | other tableId => rfl

/-- Reading tables gives no warning. -/
theorem warnings_read (tables : Tables) (pid : Nat) (unitStart : Bool) (payload : Bytes) :
    warnings (tables.read pid unitStart payload).notices = [] := by
  obtain hread | hread | ⟨e, hread⟩ | ⟨kind, found, _, _, _, hread⟩ :=
    read_cases tables pid unitStart payload
  · rw [hread]
    rfl
  · rw [hread]
    rfl
  · rw [hread]
    rfl
  · rw [hread]
    exact warnings_addSection tables pid kind found

end Tables

namespace Demuxer

/-- Whether a packet begins a unit on an elementary stream, and is not dropped with a unit that
lost packets. -/
def Step.begins (s : Step) : Bool :=
  (fragment? s.bytes).any (fun f => s.before.tables.hasStream f.pid && f.unitStart) &&
    s.losses == 0

/-- Whether a unit is pending behind a packet. -/
def Step.completes (s : Step) : Bool := s.after.pending.isSome

/-- What a packet counts, and what it warns of. -/
inductive Accounts (d : Demuxer) (bytes : Bytes) : Prop
  /-- No unit is dropped. -/
  | none (hwarnings : warnings (d.read bytes).notices = [])
      (hlosses : (d.read bytes).demuxer.lossCount = d.lossCount)
      (hoversizes : (d.read bytes).demuxer.oversizeCount = d.oversizeCount)
  /-- The open unit of the PID is dropped, because packets were lost. -/
  | packetsLost (f : Fragment) (unit : OpenUnit) (lost : Nat)
      (hfragment : fragment? bytes = some f) (hopen : d.units[f.pid]? = some unit)
      (hgone : (d.read bytes).demuxer.units[f.pid]? = .none)
      (hwarnings : warnings (d.read bytes).notices =
        [.packetsLost f.pid f.counter (nextCounter unit.counter) lost unit.bytes.length])
      (hlost : 1 ≤ lost ∧ lost ≤ 15 ∧ (nextCounter unit.counter + lost) % 16 = f.counter)
      (hlosses : (d.read bytes).demuxer.lossCount = d.lossCount + 1)
      (hoversizes : (d.read bytes).demuxer.oversizeCount = d.oversizeCount)
  /-- A unit of the PID is dropped, because it is too large. -/
  | tooLarge (f : Fragment) (hfragment : fragment? bytes = some f)
      (hwarnings : warnings (d.read bytes).notices = [.unitTooLarge f.pid d.config.maxUnitSize])
      (hlosses : (d.read bytes).demuxer.lossCount = d.lossCount)
      (hoversizes : (d.read bytes).demuxer.oversizeCount = d.oversizeCount + 1)

variable {d : Demuxer} {bytes : Bytes} {f : Fragment}

/-- Without a fragment there is nothing to note. -/
theorem notices_read_of_no_fragment (h : fragment? bytes = none) : (d.read bytes).notices = [] := by
  obtain ⟨result, hread⟩ := exists_read_of_no_fragment h d
  rw [hread]

/-- On an elementary stream, what is noted is what its fragment does to the open unit. -/
theorem notices_read_of_hasStream (h : fragment? bytes = some f)
    (hstream : d.tables.hasStream f.pid = true) : (d.read bytes).notices =
      (Reassembly.ofFragment d.config.maxUnitSize f d.units[f.pid]?).notices := by
  rw [reading_of_hasStream h hstream]

/-- On other PIDs, what is noted is what its payload is to the tables. -/
theorem notices_read_of_not_hasStream (h : fragment? bytes = some f)
    (hstream : d.tables.hasStream f.pid = false) : (d.read bytes).notices =
      (d.tables.read f.pid f.unitStart f.payload).notices := by
  rw [reading_of_not_hasStream h hstream]

/-- Every packet drops no unit or one, and then raises one count by one and gives one warning. -/
theorem accounts (d : Demuxer) (bytes : Bytes) : d.Accounts bytes := by
  cases hfragment : fragment? bytes with
  | none =>
    have hnotices := notices_read_of_no_fragment (d := d) hfragment
    exact .none (by rw [hnotices]; rfl) (by rw [read_of_no_fragment hfragment])
      (by rw [read_of_no_fragment hfragment])
  | some f =>
    cases hstream : d.tables.hasStream f.pid with
    | true =>
      have hread := read_of_hasStream hfragment hstream
      have hnotices := notices_read_of_hasStream hfragment hstream
      cases Reassembly.dropping_ofFragment d.config.maxUnitSize f d.units[f.pid]? with
      | none hdropped hwarnings =>
        refine .none (by rw [hnotices, hwarnings]) ?_ ?_
        · simp [hread, withReassembly, hdropped]
        · simp [hread, withReassembly, hdropped]
      | packetsLost unit hopen hcounter hgone hdropped hwarnings =>
        have hlost := continuityLoss_of_ne (nextCounter_lt unit.counter)
          (counter_lt_of_fragment hfragment) hcounter
        refine .packetsLost f unit _ hfragment hopen ?_ (by rw [hnotices, hwarnings]) hlost ?_ ?_
        · rw [hread, units_withReassembly, if_pos rfl]
          exact hgone
        · simp [hread, withReassembly, hdropped]
        · simp [hread, withReassembly, hdropped]
      | tooLarge hdropped hwarnings =>
        refine .tooLarge f hfragment (by rw [hnotices, hwarnings]) ?_ ?_
        · simp [hread, withReassembly, hdropped]
        · simp [hread, withReassembly, hdropped]
    | false =>
      have hread := read_of_not_hasStream hfragment hstream
      have hnotices := notices_read_of_not_hasStream hfragment hstream
      refine .none ?_ (by rw [hread]) (by rw [hread])
      rw [hnotices]
      exact Tables.warnings_read _ _ _ _

/-- Only the number of the PID's own units changes. -/
theorem size_withReassembly (d : Demuxer) (pid : Nat) (r : Reassembly) :
    (d.withReassembly pid r).units.size + d.units[pid]?.isSome.toNat =
      d.units.size + r.openUnit.isSome.toNat := by
  have hcontains : d.units[pid]?.isSome = d.units.contains pid :=
    Std.ExtTreeMap.isSome_getElem?_eq_contains
  rw [hcontains]
  unfold withReassembly
  cases r.openUnit with
  | none =>
    have hpos : d.units.contains pid = true → d.units.size ≠ 0 := by
      intro hpid hzero
      simp [Std.ExtTreeMap.eq_empty_iff_size_eq_zero.mpr hzero] at hpid
    simp only [Std.ExtTreeMap.size_erase, Option.isSome_none, Bool.toNat_false]
    cases hpid : d.units.contains pid with
    | true =>
      have := hpos hpid
      simp only [if_true, Bool.toNat_true]
      omega
    | false => simp
  | some unit =>
    simp only [Std.ExtTreeMap.size_insert, Option.isSome_some, Bool.toNat_true]
    cases d.units.contains pid <;> simp

/-- What was open before a packet or begins with it is open, completed or dropped behind it. -/
theorem balance_read (d : Demuxer) (bytes : Bytes) :
    let s : Step := ⟨d, bytes⟩
    d.units.size + d.lossCount + d.oversizeCount + s.begins.toNat =
      s.after.units.size + s.after.lossCount + s.after.oversizeCount + s.completes.toNat := by
  intro s
  have hafter : s.after = (d.read bytes).demuxer := rfl
  cases hfragment : fragment? bytes with
  | none =>
    have hbegins : s.begins = false := by simp [Step.begins, s, hfragment]
    rw [Step.completes, hafter, read_of_no_fragment hfragment, hbegins]
    rfl
  | some f =>
    cases hstream : d.tables.hasStream f.pid with
    | true =>
      let r := Reassembly.ofFragment d.config.maxUnitSize f d.units[f.pid]?
      have hread : s.after = ({ d with pending := none } : Demuxer).withReassembly f.pid r :=
        read_of_hasStream hfragment hstream
      have hlosses : s.losses = if r.dropped = some .packetsLost then 1 else 0 := by
        simp [Step.losses, hread, withReassembly, s]
      have hbegins : s.begins = (f.unitStart && r.dropped != some .packetsLost) := by
        by_cases hlost : r.dropped = some .packetsLost <;>
          simp [Step.begins, s, hfragment, hstream, hlosses, hlost]
      have hcompletes : s.completes = r.completed.isSome := by
        rw [Step.completes, hread, withReassembly, Option.isSome_map]
      have hcounts : s.after.lossCount + s.after.oversizeCount =
          d.lossCount + d.oversizeCount + r.dropped.isSome.toNat := by
        rw [hread, withReassembly]
        cases r.dropped with
        | none => rfl
        | some drop => cases drop <;> simp <;> omega
      have hsize : s.after.units.size + d.units[f.pid]?.isSome.toNat =
          d.units.size + r.openUnit.isSome.toNat := by
        rw [hread]
        exact size_withReassembly { d with pending := none } f.pid r
      have hbalance : d.units[f.pid]?.isSome.toNat +
            (f.unitStart && r.dropped != some .packetsLost).toNat =
          r.openUnit.isSome.toNat + r.completed.isSome.toNat + r.dropped.isSome.toNat :=
        Reassembly.isSome_add_begun d.config.maxUnitSize f d.units[f.pid]?
      rw [hbegins, hcompletes]
      omega
    | false =>
      have hbegins : s.begins = false := by simp [Step.begins, s, hfragment, hstream]
      rw [Step.completes, hafter, read_of_not_hasStream hfragment hstream, hbegins]
      rfl

/-- So it is along a run. -/
theorem balance_readAll (d : Demuxer) (inputs : List Bytes) :
    d.units.size + d.lossCount + d.oversizeCount + (d.steps inputs).countP (·.begins) =
      (d.readAll inputs).units.size + (d.readAll inputs).lossCount +
        (d.readAll inputs).oversizeCount + (d.steps inputs).countP (·.completes) := by
  induction inputs generalizing d with
  | nil => rfl
  | cons bytes inputs ih =>
    have hstep := balance_read d bytes
    have hlater := ih (d.read bytes).demuxer
    have hcount : ∀ p : Step → Bool, (d.steps (bytes :: inputs)).countP p =
        ((d.read bytes).demuxer.steps inputs).countP p + (p ⟨d, bytes⟩).toNat := by
      intro p
      rw [steps, List.countP_cons]
      cases p ⟨d, bytes⟩ <;> rfl
    rw [hcount, hcount, readAll]
    simp only [Step.after] at hstep
    omega

/-- From a new demultiplexer on, each unit that begins is completed, dropped and counted, or still
open. Each packet raises at most one of the two counts, by one, and exactly then gives one
warning. The warning of lost packets tells a number of them that leads from the expected counter
to the one found, and how many bytes are dropped. -/
theorem units_are_accounted_for (config : Config) (inputs : List Bytes) :
    let steps := ({ config } : Demuxer).steps inputs
    let d := ({ config } : Demuxer).readAll inputs
    steps.countP (·.begins) =
        steps.countP (·.completes) + d.lossCount + d.oversizeCount + d.units.size ∧
      ∀ (before : Demuxer) (bytes : Bytes), before.Accounts bytes := by
  intro steps d
  refine ⟨?_, accounts⟩
  have hbalance := balance_readAll { config } inputs
  have hnone : ({ config } : Demuxer).units.size + ({ config } : Demuxer).lossCount +
      ({ config } : Demuxer).oversizeCount = 0 := rfl
  simp only [steps, d]
  omega

/-- Of five units that begin on a stream, the first is completed, the second loses a packet, the
third is completed, the fourth is too large and the last stays open. -/
example :
    let association : Bytes :=
      [0x00, 0xb0, 0x0d, 0x00, 0x01, 0xc1, 0x00, 0x00, 0x00, 0x01, 0xe0, 0x20, 0, 0, 0, 0]
    let listing : Bytes :=
      [0x02, 0xb0, 0x12, 0x00, 0x01, 0xc1, 0x00, 0x00, 0xe0, 0x41, 0xf0, 0x00, 0x1b, 0xe0, 0x41,
        0xf0, 0x00, 0, 0, 0, 0]
    let start (counter : UInt8) : Bytes :=
      [0x47, 0x40, 0x41, 0x10 + counter] ++ List.replicate 184 0
    let further (counter : UInt8) : Bytes :=
      [0x47, 0x00, 0x41, 0x10 + counter] ++ List.replicate 184 0
    let inputs : List Bytes :=
      [[0x47, 0x40, 0x00, 0x10, 0x00] ++ association ++ List.replicate 167 0xff,
        [0x47, 0x40, 0x20, 0x10, 0x00] ++ listing ++ List.replicate 162 0xff,
        start 0, start 1, further 3, start 4, start 5, further 6, start 7]
    let steps := ({ config := { maxUnitSize := 200 } } : Demuxer).steps inputs
    let d := ({ config := { maxUnitSize := 200 } } : Demuxer).readAll inputs
    steps.countP (·.begins) = 5 ∧ steps.countP (·.completes) = 2 ∧ d.lossCount = 1 ∧
      d.oversizeCount = 1 ∧ d.units.size = 1 := by
  decide +kernel

end Demuxer

end TransportStream
