import TransportStream.Proofs.Demuxer.Accounting
import TransportStream.Proofs.Demuxer.Transparency
import TransportStream.Proofs.Tables.Listing

/-!
# Map tables arrive in any order

The map tables of different programs can be read in any order. Each of them is taken in or refused
as if it were the first one, as long as none of them turns the PID of another one into that of an
elementary stream. So the same is known in the end.
-/

namespace TransportStream

/-- The PID on which a section starts in a packet. -/
def startPid? (bytes : Bytes) : Option Nat :=
  ((fragment? bytes).filter (·.unitStart)).map (·.pid)

/-- A section starts on a PID if a fragment of the PID starts a unit. -/
theorem startPid?_eq_some_iff {bytes : Bytes} {pid : Nat} : startPid? bytes = some pid ↔
    ∃ f, fragment? bytes = some f ∧ f.unitStart = true ∧ f.pid = pid := by
  simp only [startPid?, Option.map_eq_some_iff, Option.filter_eq_some_iff, and_assoc]

/-- A map table is carried on the PID on which its section starts. -/
theorem startPid?_of_mapIn {bytes : Bytes} {pid : Nat} {table : ProgramMap}
    (h : mapIn? bytes = some (pid, table)) : startPid? bytes = some pid := by
  obtain ⟨f, hfragment⟩ := Demuxer.exists_fragment_of_mapIn h
  obtain ⟨hpid, hstart, -⟩ := (mapIn?_eq_some_iff hfragment).mp h
  exact startPid?_eq_some_iff.mpr ⟨f, hfragment, hstart, hpid⟩

namespace Tables

/-- The tables with a map table, if there is one, that was carried on the PID of a program. -/
def withMap (tables : Tables) : Option (Nat × ProgramMap) → Tables
  | none => tables
  | some (mapPid, table) =>
    { tables with programs := tables.programs.insert mapPid (.mapped table) }

variable {tables tables' : Tables} {carried carried' : Option (Nat × ProgramMap)} {pid : Nat}

/-- What is known of the other programs stays as it is. -/
theorem getElem?_withMap (h : ∀ found ∈ carried, found.1 ≠ pid) :
    (tables.withMap carried).programs[pid]? = tables.programs[pid]? := by
  cases carried with
  | none => rfl
  | some found => simp [withMap, Std.ExtTreeMap.getElem?_insert, h found rfl]

/-- An elementary stream was known before, or is listed by the map table. -/
theorem hasStream_of_withMap (h : (tables.withMap carried).hasStream pid = true) :
    tables.hasStream pid = true ∨ ∃ found ∈ carried, pid ∈ found.2.streams.map (·.pid) := by
  cases carried with
  | none => exact .inl h
  | some found =>
    obtain ⟨mapPid, table, hmapped, hlisted⟩ := hasStream_iff.mp h
    rw [withMap, Std.ExtTreeMap.getElem?_insert] at hmapped
    split at hmapped
    case isTrue =>
      cases hmapped
      exact .inr ⟨found, rfl, hlisted⟩
    case isFalse => exact .inl (hasStream_iff.mpr ⟨mapPid, table, hmapped, hlisted⟩)

/-- The map tables of two programs can be taken in in either order. -/
theorem withMap_comm (h : ∀ found ∈ carried, ∀ found' ∈ carried', found.1 ≠ found'.1) :
    (tables.withMap carried).withMap carried' = (tables.withMap carried').withMap carried := by
  cases carried with
  | none => rfl
  | some found =>
    cases carried' with
    | none => rfl
    | some found' =>
      have hne := h found rfl found' rfl
      simp only [withMap, Tables.mk.injEq, true_and]
      refine Std.ExtTreeMap.ext_getElem? fun pid => ?_
      simp only [Std.ExtTreeMap.getElem?_insert, Nat.compare_eq_eq]
      by_cases hfound : found.1 = pid
      · have hother : found'.1 ≠ pid := fun heq => hne (hfound.trans heq.symm)
        simp [hfound, hother]
      · simp [hfound]

/-- Where a map table is expected, a payload is read with the same result and the same notices,
whatever else is known. -/
theorem read_alike (unitStart : Bool) (payload : Bytes) (h : tables.expected? pid = some .map)
    (h' : tables'.expected? pid = some .map) :
    (tables.read pid unitStart payload).result = (tables'.read pid unitStart payload).result ∧
      (tables.read pid unitStart payload).notices =
        (tables'.read pid unitStart payload).notices := by
  simp only [read, h, h']
  cases unitStart with
  | false => exact ⟨rfl, rfl⟩
  | true =>
    cases hsection : (Section.decoder .map).decode payload with
    | error e => exact ⟨rfl, rfl⟩
    | ok found =>
      rcases Section.decode_ok hsection with ⟨tableId, rfl⟩ | ⟨table, rfl⟩
      · exact ⟨rfl, rfl⟩
      · exact ⟨rfl, rfl⟩

end Tables

namespace Demuxer

/-- A program waits for its map table. -/
structure Waits (d : Demuxer) (pid : Nat) : Prop where
  /-- The PID is that of a program. -/
  ne_association : pid ≠ associationPid
  /-- The program is announced, and has no map table yet. -/
  announced : d.tables.programs[pid]? = some .announced
  /-- The PID carries no elementary stream. -/
  not_stream : d.tables.hasStream pid = false

/-- That a program waits can be found out from the tables. -/
theorem waits_iff {d : Demuxer} {pid : Nat} : d.Waits pid ↔ pid ≠ associationPid ∧
    d.tables.programs[pid]? = some .announced ∧ d.tables.hasStream pid = false :=
  ⟨fun h => ⟨h.ne_association, h.announced, h.not_stream⟩, fun h => ⟨h.1, h.2.1, h.2.2⟩⟩

instance (d : Demuxer) (pid : Nat) : Decidable (d.Waits pid) := decidable_of_iff _ waits_iff.symm

/-- Programs wait for the sections that start in some packets, each for its own. -/
structure Awaits (d : Demuxer) (inputs : List Bytes) : Prop where
  /-- In each packet a section starts, on the PID of a program that waits for its map table. -/
  waiting : ∀ bytes ∈ inputs, ∃ pid ∈ startPid? bytes, d.Waits pid
  /-- No two packets are for the same program. -/
  distinct : (inputs.map startPid?).Nodup
  /-- No map table in the packets lists the PID of one of them as an elementary stream. -/
  unlisted : ∀ bytes ∈ inputs, ∀ carried ∈ mapIn? bytes, ∀ stream ∈ carried.2.streams,
    some stream.pid ∉ inputs.map startPid?

/-- A packet of a run with what reading it leads to, but for the demultiplexer afterwards. -/
def Step.outcome (s : Step) : Bytes × Except DecodeError Unit × List Notice :=
  (s.bytes, s.reading.result, s.reading.notices)

variable {d d' : Demuxer} {bytes : Bytes} {pid : Nat} {inputs : List Bytes}

/-- On the PID of a program that waits, its map table is expected. -/
theorem Waits.expected? (h : d.Waits pid) : d.tables.expected? pid = some .map := by
  simp [Tables.expected?, h.ne_association, h.announced]

/-- As long as a program waits, the packet for it is read with the same result and the same notices,
whatever else is known. -/
theorem outcome_of_waits (hstart : startPid? bytes = some pid) (h : d.Waits pid)
    (h' : d'.Waits pid) : (⟨d, bytes⟩ : Step).outcome = (⟨d', bytes⟩ : Step).outcome := by
  obtain ⟨f, hfragment, -, rfl⟩ := startPid?_eq_some_iff.mp hstart
  obtain ⟨hresult, hnotices⟩ :=
    Tables.read_alike f.unitStart f.payload h.expected? h'.expected?
  simp only [Step.outcome, Step.reading]
  rw [reading_of_not_hasStream hfragment h.not_stream,
    reading_of_not_hasStream hfragment h'.not_stream]
  simp only [hresult, hnotices]

/-- A packet in which a section starts on another PID than 0 carries no association table. -/
theorem associationIn?_of_startPid (hstart : startPid? bytes = some pid)
    (hpid : pid ≠ associationPid) : associationIn? bytes = none := by
  obtain ⟨f, hfragment, -, rfl⟩ := startPid?_eq_some_iff.mp hstart
  rw [Option.eq_none_iff_forall_ne_some]
  intro table hcarried
  exact hpid ((associationIn?_eq_some_iff hfragment).mp hcarried).1

/-- A program that waits gets the map table that a packet carries for it, if it carries one. -/
theorem tables_read_of_waits (hstart : startPid? bytes = some pid) (h : d.Waits pid) :
    (d.read bytes).demuxer.tables = d.tables.withMap (mapIn? bytes) := by
  cases hcarried : mapIn? bytes with
  | some carried =>
    obtain ⟨mapPid, table⟩ := carried
    obtain rfl : pid = mapPid :=
      Option.some_inj.mp (hstart.symm.trans (startPid?_of_mapIn hcarried))
    exact tables_read_of_resolves ⟨h.ne_association, h.announced, h.not_stream, hcarried⟩
  | none =>
    suffices hstep : ∀ after, d.TableStep bytes after → after = d.tables from
      hstep _ (tableStep_read d bytes)
    intro after hstep
    cases hstep with
    | keep => rfl
    | associate table hinstalls =>
      have hnone := associationIn?_of_startPid hstart h.ne_association
      rw [hinstalls.2] at hnone
      cases hnone
    | map mapPid table hresolves =>
      rw [hresolves.carried] at hcarried
      cases hcarried

/-- On the PID of a program that waits, a packet changes nothing but the table of this program. -/
theorem read_of_waits (hstart : startPid? bytes = some pid) (h : d.Waits pid) :
    (d.read bytes).demuxer =
      { d with pending := none, tables := d.tables.withMap (mapIn? bytes) } := by
  obtain ⟨f, hfragment, -, rfl⟩ := startPid?_eq_some_iff.mp hstart
  have htables := tables_read_of_waits hstart h
  rw [read_of_not_hasStream hfragment h.not_stream] at htables ⊢
  simp only at htables
  rw [htables]

/-- A program goes on waiting while the packet for another one is read, unless this turns its PID
into that of an elementary stream. -/
theorem Waits.read {other : Nat} (h : d.Waits pid) (hother : d.Waits other)
    (hstart : startPid? bytes = some other) (hne : other ≠ pid)
    (hunlisted : ∀ carried ∈ mapIn? bytes, pid ∉ carried.2.streams.map (·.pid)) :
    (d.read bytes).demuxer.Waits pid := by
  have htables := tables_read_of_waits hstart hother
  refine ⟨h.ne_association, ?_, ?_⟩
  · have hmap : ∀ carried ∈ mapIn? bytes, carried.1 ≠ pid := by
      intro carried hcarried
      have hpid := startPid?_of_mapIn hcarried
      rw [hstart] at hpid
      exact Option.some_inj.mp hpid ▸ hne
    rw [htables, Tables.getElem?_withMap hmap, h.announced]
  · rw [htables, Bool.eq_false_iff]
    intro hstream
    rcases Tables.hasStream_of_withMap hstream with hbefore | ⟨carried, hcarried, hlisted⟩
    · rw [h.not_stream] at hbefore
      cases hbefore
    · exact hunlisted carried hcarried hlisted

/-- Packets that are waited for are waited for in any order. -/
theorem Awaits.perm {inputs' : List Bytes} (h : d.Awaits inputs) (hperm : inputs.Perm inputs') :
    d.Awaits inputs' where
  waiting bytes hbytes := h.waiting bytes (hperm.mem_iff.mpr hbytes)
  distinct := (hperm.map startPid?).nodup_iff.mp h.distinct
  unlisted bytes hbytes carried hcarried stream hstream := by
    rw [← (hperm.map startPid?).mem_iff]
    exact h.unlisted bytes (hperm.mem_iff.mpr hbytes) carried hcarried stream hstream

/-- Behind the packet for one program the others go on waiting. -/
theorem Awaits.waits_read {other : Bytes} (h : d.Awaits (bytes :: inputs)) (hother : other ∈ inputs)
    (hstart : startPid? other = some pid) (hwaits : d.Waits pid) :
    (d.read bytes).demuxer.Waits pid := by
  obtain ⟨own, hown, hownWaits⟩ := h.waiting bytes List.mem_cons_self
  have hmem : some pid ∈ inputs.map startPid? := hstart ▸ List.mem_map_of_mem hother
  refine hwaits.read hownWaits hown ?_ ?_
  · rintro rfl
    have hnodup := h.distinct
    rw [List.map_cons, hown] at hnodup
    exact (List.nodup_cons.mp hnodup).1 hmem
  · intro carried hcarried hlisted
    obtain ⟨stream, hstream, rfl⟩ := List.mem_map.mp hlisted
    exact h.unlisted bytes List.mem_cons_self carried hcarried stream hstream
      (List.mem_cons_of_mem _ hmem)

/-- Behind a packet that is waited for, the others are still waited for. -/
theorem Awaits.read (h : d.Awaits (bytes :: inputs)) : (d.read bytes).demuxer.Awaits inputs where
  waiting other hother := by
    obtain ⟨pid, hstart, hwaits⟩ := h.waiting other (List.mem_cons_of_mem _ hother)
    exact ⟨pid, hstart, h.waits_read hother hstart hwaits⟩
  distinct := (List.nodup_cons.mp h.distinct).2
  unlisted other hother carried hcarried stream hstream hmem :=
    h.unlisted other (List.mem_cons_of_mem _ hother) carried hcarried stream hstream
      (List.mem_cons_of_mem _ hmem)

/-- Two packets that are waited for can be read in either order. -/
theorem Awaits.read_comm {other : Bytes} (h : d.Awaits (bytes :: other :: inputs)) :
    ((d.read bytes).demuxer.read other).demuxer =
      ((d.read other).demuxer.read bytes).demuxer := by
  have hswapped : d.Awaits (other :: bytes :: inputs) := h.perm (.swap _ _ _)
  obtain ⟨pid, hstart, hwaits⟩ := h.waiting bytes List.mem_cons_self
  obtain ⟨pid', hstart', hwaits'⟩ := hswapped.waiting other List.mem_cons_self
  have hlater := h.waits_read List.mem_cons_self hstart' hwaits'
  have hlater' := hswapped.waits_read List.mem_cons_self hstart hwaits
  have hne : pid ≠ pid' := by
    rintro rfl
    have hnodup := h.distinct
    rw [List.map_cons, List.map_cons, hstart, hstart'] at hnodup
    simp at hnodup
  have hcomm : (d.tables.withMap (mapIn? bytes)).withMap (mapIn? other) =
      (d.tables.withMap (mapIn? other)).withMap (mapIn? bytes) := by
    refine Tables.withMap_comm ?_
    intro found hfound found' hfound' heq
    have hpid := hstart.symm.trans (startPid?_of_mapIn hfound)
    have hpid' := hstart'.symm.trans (startPid?_of_mapIn hfound')
    rw [heq, ← hpid'] at hpid
    exact hne (Option.some_inj.mp hpid)
  rw [read_of_waits hstart' hlater, read_of_waits hstart hlater', read_of_waits hstart hwaits,
    read_of_waits hstart' hwaits']
  simp only [hcomm]

/-- Packets that are waited for lead to the same demultiplexer in any order. -/
theorem Awaits.readAll_eq {inputs' : List Bytes} (h : d.Awaits inputs)
    (hperm : inputs.Perm inputs') : d.readAll inputs = d.readAll inputs' := by
  induction hperm generalizing d with
  | nil => rfl
  | cons bytes hperm ih => exact ih h.read
  | swap bytes other inputs =>
    simp only [readAll]
    rw [h.read_comm]
  | trans hfirst hlater ihfirst ihlater => exact (ihfirst h).trans (ihlater (h.perm hfirst))

/-- Each packet that is waited for is read as if it were the first one. -/
theorem Awaits.outcomes_eq (h : d.Awaits inputs) :
    (d.steps inputs).map Step.outcome =
      inputs.map fun bytes => (⟨d, bytes⟩ : Step).outcome := by
  induction inputs generalizing d with
  | nil => rfl
  | cons bytes inputs ih =>
    rw [steps, List.map_cons, List.map_cons, ih h.read]
    congr 1
    refine List.map_congr_left fun other hother => ?_
    obtain ⟨pid, hstart, hwaits⟩ := h.waiting other (List.mem_cons_of_mem _ hother)
    exact outcome_of_waits hstart (h.waits_read hother hstart hwaits) hwaits

/-- Sections start in some packets, each on the PID of another program that waits for its map table,
and no map table in them lists one of these PIDs. Then the packets are read in any order with the
same results, whether they bring their programs a map table or not, and what is known in the end is
the same. The map tables are then listed in the order of their PIDs, and among those that list an
elementary stream the one on the lowest PID decides on its type with its first entry for it. -/
theorem maps_arrive_in_any_order {first second : List Bytes} (h : d.Awaits first)
    (hperm : first.Perm second) :
    ((d.steps first).map Step.outcome).Perm ((d.steps second).map Step.outcome) ∧
      d.readAll first = d.readAll second ∧
      let tables := (d.readAll first).tables
      (∃ listing : List (Nat × ProgramMap), tables.maps = listing.map (·.2) ∧
        listing.Pairwise (fun a b => a.1 < b.1) ∧
          ∀ mapPid table, (mapPid, table) ∈ listing ↔ tables.program? mapPid = some table) ∧
      ∀ pid type, tables.streamType? pid = some type ↔
        ∃ mapPid stream, tables.DecidesOn pid mapPid stream ∧ stream.type = type := by
  refine ⟨?_, h.readAll_eq hperm, ⟨_, Tables.maps_eq _, Tables.pairwise_mapped _, ?_⟩, ?_⟩
  · rw [h.outcomes_eq, (h.perm hperm).outcomes_eq]
    exact hperm.map _
  · intro mapPid table
    exact Tables.mem_mapped_iff
  · intro pid type
    exact Tables.streamType?_eq_some_iff

/-- Two programs list the same elementary stream with different types, and the section for a third
one is cut. -/
theorem maps_arrive_in_any_order_with_conflict :
    let packet (first : Bytes) : Bytes := first ++ List.replicate (188 - first.length) 0xff
    let association := packet [0x47, 0x40, 0x00, 0x10, 0x00, 0x00, 0xb0, 0x15, 0x00, 0x01, 0xc1,
      0x00, 0x00, 0x00, 0x01, 0xe0, 0x20, 0x00, 0x02, 0xe0, 0x21, 0x00, 0x03, 0xe0, 0x22, 0, 0, 0,
      0]
    let listing (mapPid type : UInt8) := packet [0x47, 0x40, mapPid, 0x10, 0x00, 0x02, 0xb0, 0x12,
      0x00, 0x01, 0xc1, 0x00, 0x00, 0xe0, 0x41, 0xf0, 0x00, type, 0xe0, 0x41, 0xf0, 0x00, 0, 0, 0,
      0]
    let cut := packet [0x47, 0x40, 0x22, 0x10, 0x00, 0x02, 0xb0, 0x05, 0x00, 0x01, 0xc1, 0x00, 0x00]
    let d := readAll {} [association]
    let first := [listing 0x20 0x1b, listing 0x21 0x0f, cut]
    let second := [cut, listing 0x21 0x0f, listing 0x20 0x1b]
    d.Awaits first ∧ first.Perm second ∧
      ((d.steps first).map Step.outcome).Perm ((d.steps second).map Step.outcome) ∧
      d.readAll first = d.readAll second ∧
      (d.readAll second).tables.streamType? 0x41 = some ⟨0x1b⟩ ∧
      ((d.steps second).map fun s => s.reading.result.isOk) = [false, true, true] := by
  intro packet association listing cut d first second
  have hawaits : d.Awaits first := {
    waiting := by decide +kernel
    distinct := by decide +kernel
    unlisted := by decide +kernel }
  have hperm : first.Perm second := by decide +kernel
  obtain ⟨houtcomes, hread, -⟩ := maps_arrive_in_any_order hawaits hperm
  exact ⟨hawaits, hperm, houtcomes, hread, by decide +kernel, by decide +kernel⟩

end Demuxer

end TransportStream
