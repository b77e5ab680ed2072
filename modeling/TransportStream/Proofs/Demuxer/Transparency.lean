import TransportStream.Proofs.Demuxer.Run
import TransportStream.Proofs.Layout.Tables

/-!
# Packets that are ignored

A packet that cannot be decoded, one without a payload, one on a PID that nobody listens to and
one without a section of the expected table are ignored: the demultiplexer stays as it is, but
that no unit is pending any more. As reading depends on everything but the pending unit, the
other packets are read as if the ignored ones had never been sent.
-/

namespace TransportStream

/-- The kind of table in the section that a payload points at with its first byte, as far as
the payload holds it. -/
def pointedTableId? : Bytes → Option Nat
  | [] => none
  | pointer :: bytes => (bytes.drop pointer.toNat).head?.map (·.toNat)

/-- A section of another table is told from its first byte, whatever is behind it. -/
theorem Section.decode_of_other_table {kind : TableKind} {payload : Bytes} {tableId : Nat}
    (h : pointedTableId? payload = some tableId) (hother : tableId ≠ kind.id) :
    (Section.decoder kind).decode payload = .ok (.other tableId) := by
  cases payload with
  | nil => cases h
  | cons pointer bytes =>
    rw [pointedTableId?] at h
    have hroom : pointer.toNat < bytes.length := by
      rcases Nat.lt_or_ge pointer.toNat bytes.length with hroom | hover
      · exact hroom
      · rw [List.drop_eq_nil_of_le hover] at h
        cases h
    have hread :=
      Section.decode_of_other kind (List.length_take_of_le (Nat.le_of_lt hroom)) h hother
    rwa [List.take_append_drop] at hread

namespace Tables

variable {tables : Tables} {pid : Nat} {unitStart : Bool} {payload : Bytes}

/-- A payload that cannot be decoded changes nothing: no table is taken in by halves. -/
theorem read_of_error {e : DecodeError}
    (h : (tables.read pid unitStart payload).result = .error e) :
    (tables.read pid unitStart payload).tables = tables := by
  obtain hread | hread | ⟨_, hread⟩ | ⟨kind, found, _, _, _, hread⟩ :=
    read_cases tables pid unitStart payload
  · rw [hread]
  · rw [hread]
  · rw [hread]
  · rw [hread] at h
    cases h

/-- Where no section starts, the tables stay. -/
theorem read_of_no_start {kind : TableKind} (h : tables.expected? pid = some kind)
    (payload : Bytes) : (tables.read pid false payload).tables = tables := by
  simp [read, h]

/-- The section of another table changes nothing either. -/
theorem read_of_other_table {kind : TableKind} {tableId : Nat}
    (h : tables.expected? pid = some kind) (hpointed : pointedTableId? payload = some tableId)
    (hother : tableId ≠ kind.id) : (tables.read pid unitStart payload).tables = tables := by
  cases unitStart with
  | false => exact read_of_no_start h payload
  | true => simp [read, h, Section.decode_of_other_table hpointed hother, addSection]

end Tables

namespace Demuxer

/-- There is nothing for a demultiplexer in a packet. -/
inductive Ignores (d : Demuxer) (bytes : Bytes) : Prop
  /-- The packet, or the section in it, cannot be decoded. -/
  | undecodable (e : DecodeError) (h : (d.read bytes).result = .error e)
  /-- The packet has no payload. -/
  | noPayload (packet : Packet) (hpacket : Packet.decode bytes = .ok packet)
      (hpayload : packet.payload = none)
  /-- The packet is neither on the PID of an elementary stream nor on one where a table is
  expected. -/
  | unknownPid (f : Fragment) (h : fragment? bytes = some f)
      (hstream : d.tables.hasStream f.pid = false) (hassociation : f.pid ≠ associationPid)
      (hprogram : d.tables.programs[f.pid]? ≠ some .announced)
  /-- A table is expected, and no section starts in the packet. -/
  | noSectionStart (f : Fragment) (kind : TableKind) (h : fragment? bytes = some f)
      (hstream : d.tables.hasStream f.pid = false)
      (hkind : d.tables.expected? f.pid = some kind) (hstart : f.unitStart = false)
  /-- A table is expected, and the section in the packet is of another one. -/
  | otherTable (f : Fragment) (kind : TableKind) (tableId : Nat) (h : fragment? bytes = some f)
      (hstream : d.tables.hasStream f.pid = false)
      (hkind : d.tables.expected? f.pid = some kind)
      (hpointed : pointedTableId? f.payload = some tableId) (hother : tableId ≠ kind.id)

/-- Whether a packet is ignored, found out by looking at it. -/
def ignores (d : Demuxer) (bytes : Bytes) : Bool :=
  !(d.read bytes).result.isOk || (fragment? bytes).all fun f =>
    !d.tables.hasStream f.pid &&
      match d.tables.expected? f.pid with
      | none => true
      | some kind => !f.unitStart || (pointedTableId? f.payload).any (· != kind.id)

variable {d : Demuxer} {bytes : Bytes}

/-- A packet without a payload has no fragment. -/
theorem fragment?_of_noPayload {packet : Packet} (hpacket : Packet.decode bytes = .ok packet)
    (hpayload : packet.payload = none) : fragment? bytes = none := by
  simp [fragment?, Packet.fragment?, hpacket, hpayload, Except.toOption]

/-- A packet without a fragment is ignored. -/
theorem ignores_of_no_fragment (h : fragment? bytes = none) : d.Ignores bytes := by
  cases hpacket : Packet.decode bytes with
  | error e => exact .undecodable e (by simp only [read, hpacket])
  | ok packet =>
    have hpayload : packet.payload = none := by
      simpa [fragment?, Packet.fragment?, hpacket, Except.toOption] using h
    exact .noPayload packet hpacket hpayload

/-- Whether a packet is ignored can be found out from the packet and the demultiplexer. -/
theorem ignores_iff : d.ignores bytes = true ↔ d.Ignores bytes := by
  simp only [ignores, Bool.or_eq_true, Bool.not_eq_true', Option.all_eq_true, Bool.and_eq_true]
  constructor
  · rintro (hresult | h)
    · cases hread : (d.read bytes).result with
      | error e => exact .undecodable e hread
      | ok _ => simp [hread, Except.isOk, Except.toBool] at hresult
    · cases hfragment : fragment? bytes with
      | none => exact ignores_of_no_fragment hfragment
      | some f =>
        obtain ⟨hstream, h⟩ := h f hfragment
        cases hkind : d.tables.expected? f.pid with
        | none =>
          obtain ⟨hassociation, hprogram⟩ := Tables.expected?_eq_none_iff.mp hkind
          exact .unknownPid f hfragment hstream hassociation hprogram
        | some kind =>
          simp only [hkind, Bool.or_eq_true, Bool.not_eq_true', Option.any_eq_true, bne_iff_ne] at h
          rcases h with hstart | ⟨tableId, hpointed, hother⟩
          · exact .noSectionStart f kind hfragment hstream hkind hstart
          · exact .otherTable f kind tableId hfragment hstream hkind hpointed hother
  · intro h
    cases h with
    | undecodable e h =>
      left
      rw [h]
      rfl
    | noPayload packet hpacket hpayload => simp [fragment?_of_noPayload hpacket hpayload]
    | unknownPid f h hstream hassociation hprogram =>
      simp [h, hstream, Tables.expected?_eq_none_iff.mpr ⟨hassociation, hprogram⟩]
    | noSectionStart f kind h hstream hkind hstart => simp [h, hstream, hkind, hstart]
    | otherTable f kind tableId h hstream hkind hpointed hother =>
      simp [h, hstream, hkind, hpointed, hother]

instance (d : Demuxer) (bytes : Bytes) : Decidable (d.Ignores bytes) :=
  decidable_of_iff _ ignores_iff

/-- A payload that cannot be decoded was read for the tables. -/
theorem tables_of_error {f : Fragment} {e : DecodeError} (hfragment : fragment? bytes = some f)
    (h : (d.read bytes).result = .error e) : d.tables.hasStream f.pid = false ∧
      (d.tables.read f.pid f.unitStart f.payload).result = .error e := by
  cases hstream : d.tables.hasStream f.pid with
  | true =>
    rw [reading_of_hasStream hfragment hstream] at h
    cases h
  | false =>
    rw [reading_of_not_hasStream hfragment hstream] at h
    exact ⟨rfl, h⟩

/-- An ignored packet changes nothing but that no unit is pending. -/
theorem read_of_ignores (h : d.Ignores bytes) :
    (d.read bytes).demuxer = { d with pending := none } := by
  cases hfragment : fragment? bytes with
  | none => exact read_of_no_fragment hfragment
  | some f =>
    suffices htables : d.tables.hasStream f.pid = false ∧
        (d.tables.read f.pid f.unitStart f.payload).tables = d.tables by
      rw [read_of_not_hasStream hfragment htables.1, htables.2]
    cases h with
    | undecodable e h =>
      obtain ⟨hstream, herror⟩ := tables_of_error hfragment h
      exact ⟨hstream, Tables.read_of_error herror⟩
    | noPayload packet hpacket hpayload =>
      rw [fragment?_of_noPayload hpacket hpayload] at hfragment
      cases hfragment
    | unknownPid f' h hstream hassociation hprogram =>
      obtain rfl : f' = f := Option.some_inj.mp (h.symm.trans hfragment)
      rw [Tables.read_of_not_announced hassociation hprogram]
      exact ⟨hstream, rfl⟩
    | noSectionStart f' kind h hstream hkind hstart =>
      obtain rfl : f' = f := Option.some_inj.mp (h.symm.trans hfragment)
      rw [hstart]
      exact ⟨hstream, Tables.read_of_no_start hkind _⟩
    | otherTable f' kind tableId h hstream hkind hpointed hother =>
      obtain rfl : f' = f := Option.some_inj.mp (h.symm.trans hfragment)
      exact ⟨hstream, Tables.read_of_other_table hkind hpointed hother⟩

/-- How a packet is read depends on everything but the pending unit. -/
theorem read_congr {d' : Demuxer}
    (h : ({ d with pending := none } : Demuxer) = { d' with pending := none }) (bytes : Bytes) :
    d.read bytes = d'.read bytes := by
  have hread : ({ d with pending := none } : Demuxer).read bytes = d.read bytes := rfl
  rw [← hread, h]
  rfl

/-- What reading a packet of a run leads to. -/
def Step.reading (s : Step) : Reading := s.before.read s.bytes

/-- The steps of a run whose packets are not ignored. -/
def keptSteps (d : Demuxer) (inputs : List Bytes) : List Step :=
  (d.steps inputs).filter fun s => ¬ s.before.Ignores s.bytes

/-- The packets of a run that are not ignored. -/
def keptInputs (d : Demuxer) (inputs : List Bytes) : List Bytes :=
  (d.keptSteps inputs).map (·.bytes)

/-- A packet that is ignored is left out, and the run goes on behind it. -/
theorem keptSteps_cons_of_ignores (h : d.Ignores bytes) (inputs : List Bytes) :
    d.keptSteps (bytes :: inputs) = (d.read bytes).demuxer.keptSteps inputs := by
  simp [keptSteps, steps, h]

/-- A packet that is not ignored is kept as a step. -/
theorem keptSteps_cons (h : ¬ d.Ignores bytes) (inputs : List Bytes) :
    d.keptSteps (bytes :: inputs) = ⟨d, bytes⟩ :: (d.read bytes).demuxer.keptSteps inputs := by
  simp [keptSteps, steps, h]

/-- The packets that are not ignored are read alike by any demultiplexer that differs in the
pending unit only, even if it does not see the ignored ones. -/
theorem readings_keptInputs {d' : Demuxer} (inputs : List Bytes)
    (h : ({ d with pending := none } : Demuxer) = { d' with pending := none }) :
    (d'.steps (d.keptInputs inputs)).map Step.reading =
      (d.keptSteps inputs).map Step.reading := by
  induction inputs generalizing d d' with
  | nil => rfl
  | cons bytes inputs ih =>
    by_cases hignores : d.Ignores bytes
    · have hafter : ({ (d.read bytes).demuxer with pending := none } : Demuxer) =
          { d' with pending := none } := by
        rw [read_of_ignores hignores]
        exact h
      rw [keptInputs, keptSteps_cons_of_ignores hignores]
      exact ih hafter
    · have hread : d'.read bytes = d.read bytes := (read_congr h bytes).symm
      have hreading : Step.reading ⟨d', bytes⟩ = Step.reading ⟨d, bytes⟩ := hread
      rw [keptInputs, keptSteps_cons hignores, List.map_cons, List.map_cons, steps, List.map_cons,
        hread, hreading]
      exact congrArg _ (ih rfl)

/-- Whatever a demultiplexer has read before, an ignored packet leaves it as it is, but that no
unit is pending any more. So if the ignored packets of a run are deleted, each of the others is
read with the same result, leaves the same unit pending and leads to the same demultiplexer. -/
theorem ignored_packets_are_transparent (d : Demuxer) :
    (∀ bytes, d.Ignores bytes → (d.read bytes).demuxer = { d with pending := none }) ∧
      ∀ inputs, (d.steps (d.keptInputs inputs)).map Step.reading =
        (d.keptSteps inputs).map Step.reading := by
  constructor
  · intro bytes h
    exact read_of_ignores h
  · intro inputs
    exact readings_keptInputs inputs rfl

/-- Two units begin on a stream, and behind either first packet there is one packet of each kind
that is ignored. -/
theorem ignored_packets_are_transparent_between_two_starts :
    let packet (first : Bytes) : Bytes := first ++ List.replicate (188 - first.length) 0xff
    let association := packet [0x47, 0x40, 0x00, 0x10, 0x00, 0x00, 0xb0, 0x0d, 0x00, 0x01, 0xc1,
      0x00, 0x00, 0x00, 0x01, 0xe0, 0x20, 0, 0, 0, 0]
    let listing := packet [0x47, 0x40, 0x20, 0x10, 0x00, 0x02, 0xb0, 0x12, 0x00, 0x01, 0xc1, 0x00,
      0x00, 0xe0, 0x41, 0xf0, 0x00, 0x1b, 0xe0, 0x41, 0xf0, 0x00, 0, 0, 0, 0]
    let first := packet [0x47, 0x40, 0x41, 0x1f]
    let second := packet [0x47, 0x40, 0x41, 0x10]
    let cutSection := packet [0x47, 0x40, 0x00, 0x10, 0x00, 0x00, 0xb3, 0xff]
    let noPayload := packet [0x47, 0x00, 0x41, 0x20, 0xb7, 0x00]
    let unknownPid := packet [0x47, 0x1f, 0xff, 0x10]
    let noSectionStart := packet [0x47, 0x00, 0x00, 0x10]
    let otherTable := packet [0x47, 0x40, 0x00, 0x10, 0x00, 0x72]
    let ignored := [[], cutSection, noPayload, unknownPid, noSectionStart, otherTable]
    let kept := [association, listing, first, second]
    let inputs := [association, listing, first] ++ ignored ++ [second] ++ ignored
    let d := readAll {} [association, listing, first]
    (∀ bytes ∈ ignored, d.Ignores bytes ∧ (d.read bytes).demuxer = { d with pending := none }) ∧
      keptInputs {} inputs = kept ∧
      (steps {} kept).map Step.reading = (keptSteps {} inputs).map Step.reading ∧
      ((keptSteps {} inputs).map Step.reading).map (·.demuxer.pending) =
        [none, none, none, some ⟨0x41, List.replicate 184 0xff⟩] := by
  intro packet association listing first second cutSection noPayload unknownPid noSectionStart
    otherTable ignored kept inputs d
  have hignored : ∀ bytes ∈ ignored, d.Ignores bytes := by decide +kernel
  have hkept : keptInputs {} inputs = kept := by decide +kernel
  have hreadings := (ignored_packets_are_transparent {}).2 inputs
  rw [hkept] at hreadings
  have hpending : ((keptSteps {} inputs).map Step.reading).map (·.demuxer.pending) =
      [none, none, none, some ⟨0x41, List.replicate 184 0xff⟩] := by decide +kernel
  refine ⟨fun bytes hbytes => ⟨hignored bytes hbytes, ?_⟩, hkept, hreadings, hpending⟩
  exact (ignored_packets_are_transparent d).1 bytes (hignored bytes hbytes)

end Demuxer

end TransportStream
