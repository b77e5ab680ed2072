import TransportStream.Proofs.Demuxer.Actions
import TransportStream.Proofs.Tables.Carried

/-!
# The life of a program

A program is announced by an association table, and later gets its map table, which it then
keeps. So a PID never changes its part: what was announced stays known, what has a map table
keeps it, and an elementary stream stays one, until everything is forgotten.
-/

namespace TransportStream

/-- A program association table announces the PIDs of its programs, but not that of network
information. -/
def ProgramAssociation.Announces (table : ProgramAssociation) (pid : Nat) : Prop :=
  ∃ entry ∈ table.entries, entry.pid = pid ∧ entry.program ≠ 0

/-- The PIDs of programs in an association table are those that it announces. -/
theorem ProgramAssociation.mem_programPids_iff {table : ProgramAssociation} {pid : Nat} :
    pid ∈ table.programPids ↔ table.Announces pid := by
  simp only [programPids, Announces, List.mem_map, List.mem_filter, AssociationEntry.isNetwork,
    Bool.not_eq_true', beq_eq_false_iff_ne]
  constructor
  · rintro ⟨entry, ⟨hentry, hprogram⟩, hpid⟩
    exact ⟨entry, hentry, hpid, hprogram⟩
  · rintro ⟨entry, hentry, hpid, hprogram⟩
    exact ⟨entry, ⟨hentry, hprogram⟩, hpid⟩

namespace Tables

/-- A program is known if there is something known of it. -/
theorem mem_programs_iff {programs : Std.ExtTreeMap Nat Program} {pid : Nat} :
    pid ∈ programs ↔ ∃ program, programs[pid]? = some program := by
  rw [Std.ExtTreeMap.mem_iff_isSome_getElem?, Option.isSome_iff_exists]

/-- The programs that were known stay known, and those of the PIDs become known. -/
theorem mem_announce_iff {programs : Std.ExtTreeMap Nat Program} {pids : List Nat} {pid : Nat} :
    pid ∈ (announce programs pids).1 ↔ pid ∈ programs ∨ pid ∈ pids := by
  rw [Std.ExtTreeMap.mem_iff_isSome_getElem?, Std.ExtTreeMap.mem_iff_isSome_getElem?,
    getElem?_announce]
  by_cases hpid : pid ∈ pids <;> simp [hpid]

/-- A program is found with its map table if it has got one. -/
theorem program?_eq_some_iff {tables : Tables} {pid : Nat} {table : ProgramMap} :
    tables.program? pid = some table ↔ tables.programs[pid]? = some (.mapped table) := by
  rw [program?, Option.bind_eq_some_iff]
  constructor
  · rintro ⟨program, hprogram, htable⟩
    cases program with
    | announced => cases htable
    | mapped found =>
      cases htable
      exact hprogram
  · intro h
    exact ⟨.mapped table, h, rfl⟩

end Tables

namespace Demuxer

/-- A demultiplexer takes in the program association table that a packet carries. -/
def Installs (d : Demuxer) (bytes : Bytes) (table : ProgramAssociation) : Prop :=
  d.tables.hasStream associationPid = false ∧ associationIn? bytes = some table

/-- A demultiplexer takes in the map table of a program that a packet carries. -/
structure Resolves (d : Demuxer) (bytes : Bytes) (pid : Nat) (table : ProgramMap) : Prop where
  /-- The PID is that of a program. -/
  ne_association : pid ≠ associationPid
  /-- The program is announced, and has no map table yet. -/
  announced : d.tables.programs[pid]? = some .announced
  /-- The PID carries no elementary stream. -/
  not_stream : d.tables.hasStream pid = false
  /-- The packet carries the table. -/
  carried : mapIn? bytes = some (pid, table)

/-- What a packet can make of the tables of a demultiplexer. -/
inductive TableStep (d : Demuxer) (bytes : Bytes) : Tables → Prop
  /-- Nothing is taken in. -/
  | keep : TableStep d bytes d.tables
  /-- A program association table is taken in. -/
  | associate (table : ProgramAssociation) (h : d.Installs bytes table) :
      TableStep d bytes
        { association := some table
          programs := (Tables.announce d.tables.programs table.programPids).1 }
  /-- The map table of a program is taken in. -/
  | map (pid : Nat) (table : ProgramMap) (h : d.Resolves bytes pid table) :
      TableStep d bytes { d.tables with programs := d.tables.programs.insert pid (.mapped table) }

variable {d : Demuxer} {bytes : Bytes} {pid : Nat}

/-- Reading a packet changes the tables in one of these ways. -/
theorem tableStep_read (d : Demuxer) (bytes : Bytes) :
    d.TableStep bytes (d.read bytes).demuxer.tables := by
  obtain ⟨_, hread⟩ | ⟨f, _, _, hread⟩ | ⟨f, hfragment, hstream, hread⟩ := read_cases d bytes
  · rw [hread]
    exact .keep
  · rw [hread, withReassembly]
    exact .keep
  · rw [hread]
    suffices hstep : ∀ after, Tables.Change d.tables f.pid f.unitStart f.payload after →
        d.TableStep bytes after from hstep _ (Tables.change_read _ _ _ _)
    intro after hchange
    cases hchange with
    | keep => exact .keep
    | associate table hpid hstart hsection =>
      refine .associate table ⟨hpid ▸ hstream, ?_⟩
      exact (associationIn?_eq_some_iff hfragment).mpr ⟨hpid, hstart, hsection⟩
    | map table hpid hannounced hstart hsection =>
      refine .map f.pid table ⟨hpid, hannounced, hstream, ?_⟩
      exact (mapIn?_eq_some_iff hfragment).mpr ⟨rfl, hstart, hsection⟩

/-- A packet that carries an association table has a fragment. -/
theorem exists_fragment_of_associationIn {table : ProgramAssociation}
    (h : associationIn? bytes = some table) : ∃ f, fragment? bytes = some f := by
  cases hfragment : fragment? bytes with
  | none => simp [associationIn?, hfragment] at h
  | some f => exact ⟨f, rfl⟩

/-- A packet that carries a map table has a fragment. -/
theorem exists_fragment_of_mapIn {table : ProgramMap} (h : mapIn? bytes = some (pid, table)) :
    ∃ f, fragment? bytes = some f := by
  cases hfragment : fragment? bytes with
  | none => simp [mapIn?, hfragment] at h
  | some f => exact ⟨f, rfl⟩

/-- A program association table is taken in as a whole. -/
theorem tables_read_of_installs {table : ProgramAssociation} (h : d.Installs bytes table) :
    (d.read bytes).demuxer.tables =
      { association := some table
        programs := (Tables.announce d.tables.programs table.programPids).1 } := by
  obtain ⟨hstream, hcarried⟩ := h
  obtain ⟨f, hfragment⟩ := exists_fragment_of_associationIn hcarried
  obtain ⟨hpid, hstart, hsection⟩ := (associationIn?_eq_some_iff hfragment).mp hcarried
  have hexpected : d.tables.expected? f.pid = some .association := by
    rw [Tables.expected?, if_pos hpid]
  rw [read_of_not_hasStream hfragment (hpid ▸ hstream)]
  simp [Tables.read, hexpected, hstart, hsection, Tables.addSection]

/-- A program gets its map table. -/
theorem tables_read_of_resolves {table : ProgramMap} (h : d.Resolves bytes pid table) :
    (d.read bytes).demuxer.tables =
      { d.tables with programs := d.tables.programs.insert pid (.mapped table) } := by
  obtain ⟨f, hfragment⟩ := exists_fragment_of_mapIn h.carried
  obtain ⟨rfl, hstart, hsection⟩ := (mapIn?_eq_some_iff hfragment).mp h.carried
  have hexpected : d.tables.expected? f.pid = some .map := by
    simp [Tables.expected?, h.ne_association, h.announced]
  rw [read_of_not_hasStream hfragment h.not_stream]
  simp [Tables.read, hexpected, hstart, hsection, Tables.addSection]

/-- The life of the programs of a demultiplexer over one packet. -/
structure LifeCycle (d : Demuxer) (bytes : Bytes) : Prop where
  /-- No program is forgotten. -/
  known : ∀ pid ∈ d.tables.programs, pid ∈ (d.read bytes).demuxer.tables.programs
  /-- A program keeps its map table. -/
  mapped : ∀ pid table, d.tables.program? pid = some table →
    (d.read bytes).demuxer.tables.program? pid = some table
  /-- A program gets the map table that the packet carries on its PID, if it is announced, has
  no map table yet, and its PID carries no elementary stream. -/
  resolved : ∀ pid table, d.tables.program? pid = none →
    ((d.read bytes).demuxer.tables.program? pid = some table ↔ d.Resolves bytes pid table)
  /-- A program becomes known by an association table that announces it. -/
  announced : ∀ pid ∉ d.tables.programs, pid ∈ (d.read bytes).demuxer.tables.programs →
    ∃ table, d.Installs bytes table ∧ table.Announces pid
  /-- All programs that an association table announces are known behind it, and what was known
  of a program before stays as it is. -/
  installed : ∀ table, d.Installs bytes table →
    (∀ pid, table.Announces pid → pid ∈ (d.read bytes).demuxer.tables.programs) ∧
      ∀ (pid : Nat) (program : Program), d.tables.programs[pid]? = some program →
        (d.read bytes).demuxer.tables.programs[pid]? = some program

/-- A program that is known stays known. -/
theorem TableStep.known {after : Tables} (h : d.TableStep bytes after)
    (hpid : pid ∈ d.tables.programs) : pid ∈ after.programs := by
  cases h with
  | keep => exact hpid
  | associate table _ => exact Tables.mem_announce_iff.mpr (.inl hpid)
  | map _ _ _ => simp [hpid]

/-- A program that has a map table keeps it. -/
theorem TableStep.mapped {after : Tables} (h : d.TableStep bytes after) {table : ProgramMap}
    (hmapped : d.tables.program? pid = some table) : after.program? pid = some table := by
  rw [Tables.program?_eq_some_iff] at hmapped ⊢
  cases h with
  | keep => exact hmapped
  | associate found _ => simp [Tables.getElem?_announce, hmapped]
  | map mapPid found h =>
    have hne : mapPid ≠ pid := by
      rintro rfl
      simp [h.announced] at hmapped
    simp [Std.ExtTreeMap.getElem?_insert, hne, hmapped]

/-- A program has a map table that it did not have before only if it gets it. -/
theorem TableStep.resolves {after : Tables} (h : d.TableStep bytes after) {table : ProgramMap}
    (hnone : d.tables.program? pid = none) (hmapped : after.program? pid = some table) :
    d.Resolves bytes pid table := by
  cases h with
  | keep => simp [hnone] at hmapped
  | associate found _ =>
    rw [Tables.program?_eq_some_iff] at hmapped
    rw [Tables.program?_eq_some_iff.mpr (Tables.mapped_of_announce hmapped)] at hnone
    cases hnone
  | map mapPid found h =>
    rw [Tables.program?_eq_some_iff, Std.ExtTreeMap.getElem?_insert] at hmapped
    split at hmapped
    case isTrue heq =>
      obtain rfl : mapPid = pid := Std.LawfulEqCmp.eq_of_compare heq
      cases hmapped
      exact h
    case isFalse =>
      rw [Tables.program?_eq_some_iff.mpr hmapped] at hnone
      cases hnone

/-- A program becomes known only by an association table that announces it. -/
theorem TableStep.announced {after : Tables} (h : d.TableStep bytes after)
    (hnew : pid ∉ d.tables.programs) (hpid : pid ∈ after.programs) :
    ∃ table, d.Installs bytes table ∧ table.Announces pid := by
  cases h with
  | keep => exact absurd hpid hnew
  | associate table h =>
    refine ⟨table, h, ProgramAssociation.mem_programPids_iff.mp ?_⟩
    exact (Tables.mem_announce_iff.mp hpid).resolve_left hnew
  | map mapPid table h =>
    have hne : mapPid ≠ pid := by
      rintro rfl
      exact hnew (Tables.mem_programs_iff.mpr ⟨_, h.announced⟩)
    simp [hne, hnew] at hpid

/-- Each packet keeps to the life cycle of programs. -/
theorem lifeCycle (d : Demuxer) (bytes : Bytes) : d.LifeCycle bytes where
  known pid hpid := (tableStep_read d bytes).known hpid
  mapped pid table hmapped := (tableStep_read d bytes).mapped hmapped
  resolved pid table hnone := by
    constructor
    · intro hmapped
      exact (tableStep_read d bytes).resolves hnone hmapped
    · intro h
      simp [Tables.program?_eq_some_iff, tables_read_of_resolves h]
  announced pid hnew hpid := (tableStep_read d bytes).announced hnew hpid
  installed table h := by
    rw [tables_read_of_installs h]
    constructor
    · intro pid hannounces
      have hmem := ProgramAssociation.mem_programPids_iff.mpr hannounces
      exact Tables.mem_announce_iff.mpr (.inr hmem)
    · intro pid program hprogram
      simp [Tables.getElem?_announce, hprogram]

/-- Nothing is forgotten by an action unless everything is. -/
theorem hasStream_act {action : Action} (h : d.tables.hasStream pid = true)
    (hreset : action.isReset = false) : (d.act action).tables.hasStream pid = true := by
  cases action with
  | read bytes => exact hasStream_read h bytes
  | take => exact h
  | reset => cases hreset

/-- An elementary stream stays one until everything is forgotten. -/
theorem hasStream_run {actions : List Action} (h : d.tables.hasStream pid = true)
    (hreset : ∀ action ∈ actions, action.isReset = false) :
    (d.run actions).tables.hasStream pid = true := by
  induction actions generalizing d with
  | nil => exact h
  | cons action actions ih =>
    refine ih (hasStream_act h (hreset _ List.mem_cons_self)) ?_
    intro later hlater
    exact hreset later (List.mem_cons_of_mem _ hlater)

/-- Among some actions a packet is read of which something holds behind the actions before it, and
nothing is forgotten later. -/
def ReadSince (actions : List Action) (holds : List Action → Bytes → Prop) : Prop :=
  ∃ (before : List Action) (bytes : Bytes) (later : List Action),
    actions = before ++ .read bytes :: later ∧ (∀ action ∈ later, action.isReset = false) ∧
      holds before bytes

/-- What holds of the last packet was read since everything was forgotten last. -/
theorem readSince_read {actions : List Action} {holds : List Action → Bytes → Prop}
    (h : holds actions bytes) : ReadSince (actions ++ [.read bytes]) holds :=
  ⟨actions, bytes, [], rfl, by simp, h⟩

/-- What was read stays read until everything is forgotten. -/
theorem ReadSince.concat {actions : List Action} {action : Action}
    {holds : List Action → Bytes → Prop} (h : ReadSince actions holds)
    (hreset : action.isReset = false) : ReadSince (actions ++ [action]) holds := by
  obtain ⟨before, bytes, later, rfl, hlater, hholds⟩ := h
  refine ⟨before, bytes, later ++ [action], by simp, ?_, hholds⟩
  intro next hnext
  rcases List.mem_append.mp hnext with hnext | hnext
  · exact hlater next hnext
  · rwa [List.mem_singleton.mp hnext]

/-- A program was announced by an association table that was taken in since everything was
forgotten last. -/
def AnnouncedIn (config : Config) (actions : List Action) (pid : Nat) : Prop :=
  ReadSince actions fun before bytes =>
    ∃ table, (({ config } : Demuxer).run before).Installs bytes table ∧ table.Announces pid

/-- Whatever program is known was announced. -/
theorem announcedIn_of_mem_programs {config : Config} {actions : List Action}
    (h : pid ∈ (({ config } : Demuxer).run actions).tables.programs) :
    AnnouncedIn config actions pid := by
  induction actions using List.reverseRecOn with
  | nil => simp [run] at h
  | append_singleton actions action ih =>
    rw [run_concat] at h
    cases action with
    | take => exact (ih h).concat rfl
    | reset => simp [act, reset] at h
    | read bytes =>
      by_cases hbefore : pid ∈ (({ config } : Demuxer).run actions).tables.programs
      · exact (ih hbefore).concat rfl
      · exact readSince_read ((lifeCycle _ bytes).announced pid hbefore h)

/-- Whatever is done with a demultiplexer, each packet keeps to the life cycle of programs. So an
elementary stream stays one until everything is forgotten, and each map table is that of a program
which an association table announced that was taken in since everything was forgotten last. -/
theorem programs_live (config : Config) (actions : List Action) :
    let d := ({ config } : Demuxer).run actions
    (∀ bytes, d.LifeCycle bytes) ∧
      (∀ pid, d.tables.hasStream pid = true →
        ∀ later : List Action, (∀ action ∈ later, action.isReset = false) →
          (d.run later).tables.hasStream pid = true) ∧
      ∀ table ∈ d.tables.maps, ∃ pid, d.tables.program? pid = some table ∧
        AnnouncedIn config actions pid := by
  intro d
  refine ⟨lifeCycle d, ?_, ?_⟩
  · intro pid hstream later hreset
    exact hasStream_run hstream hreset
  · intro table htable
    obtain ⟨pid, hprogram⟩ := Tables.mem_maps_iff.mp htable
    refine ⟨pid, Tables.program?_eq_some_iff.mpr hprogram, ?_⟩
    exact announcedIn_of_mem_programs (Tables.mem_programs_iff.mpr ⟨_, hprogram⟩)

/-- A program keeps its first map table although it is announced again and another one is sent,
until everything is forgotten. -/
example :
    let packet (first : Bytes) : Bytes := first ++ List.replicate (188 - first.length) 0xff
    let association := Action.read (packet [0x47, 0x40, 0x00, 0x10, 0x00, 0x00, 0xb0, 0x0d, 0x00,
      0x01, 0xc1, 0x00, 0x00, 0x00, 0x01, 0xe0, 0x20, 0, 0, 0, 0])
    let listing (pid : UInt8) := Action.read (packet [0x47, 0x40, 0x20, 0x10, 0x00, 0x02, 0xb0,
      0x12, 0x00, 0x01, 0xc1, 0x00, 0x00, 0xe0, pid, 0xf0, 0x00, 0x1b, 0xe0, pid, 0xf0, 0x00, 0, 0,
      0, 0])
    let known (actions : List Action) : List Bool :=
      [0x41, 0x42].map (run {} actions).tables.hasStream
    known [listing 0x41] = [false, false] ∧
      known [association, listing 0x41, association, listing 0x42] = [true, false] ∧
      known [association, listing 0x41, .reset, association, listing 0x42] = [false, true] := by
  decide +kernel

end Demuxer

end TransportStream
