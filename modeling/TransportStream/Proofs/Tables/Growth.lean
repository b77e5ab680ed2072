import TransportStream.Proofs.Bits.Decoding
import TransportStream.Tables

/-!
# Tables only grow

Reading a payload either leaves the tables alone, or takes in one program association
table or one program map table. In neither case does a program lose its map table, so
that an elementary stream, once it is known, stays known.
-/

namespace TransportStream

/-- Where a table of one kind is expected, a section is of that kind or of another table. -/
theorem Section.decode_ok {kind : TableKind} {payload : Bytes} {found : Section}
    (h : (Section.decoder kind).decode payload = .ok found) :
    (∃ tableId, found = .other tableId) ∨
      match kind with
      | .association => ∃ table, found = .association table
      | .map => ∃ table, found = .map table := by
  obtain ⟨r, h⟩ := Decoder.decode_eq_ok.mp h
  unfold Section.decoder at h
  obtain ⟨_, _, _, h⟩ := Decoder.bind_eq_ok.mp h
  obtain ⟨ahead, _, _, h⟩ := Decoder.bind_eq_ok.mp h
  cases hother : (ahead.head?.map (·.toNat)).filter (· ≠ kind.id) with
  | some tableId =>
    simp only [hother] at h
    cases h
    exact .inl ⟨tableId, rfl⟩
  | none =>
    right
    cases kind <;>
    · simp only [hother, map_eq_pure_bind] at h
      obtain ⟨table, _, _, h⟩ := Decoder.bind_eq_ok.mp h
      cases h
      exact ⟨table, rfl⟩

namespace Tables

variable {tables : Tables} {pid : Nat}

/-- Of a PID that is no program nothing is known. -/
theorem getElem?_eq_none_of_notMem {programs : Std.ExtTreeMap Nat Program} (h : pid ∉ programs) :
    programs[pid]? = none := by
  rwa [← Option.not_isSome_iff_eq_none, ← Std.ExtTreeMap.mem_iff_isSome_getElem?]

/-- Announcing adds the programs that are not known, and leaves the others as they are. -/
theorem getElem?_announce (programs : Std.ExtTreeMap Nat Program) (pids : List Nat) (pid : Nat) :
    (announce programs pids).1[pid]? =
      if pid ∈ pids then some (programs[pid]?.getD .announced) else programs[pid]? := by
  induction pids generalizing programs with
  | nil => simp [announce]
  | cons first pids ih =>
    by_cases hknown : first ∈ programs
    · rw [announce, if_pos hknown, ih]
      by_cases hfirst : pid = first
      · subst hfirst
        obtain ⟨program, hprogram⟩ :=
          Option.isSome_iff_exists.mp (Std.ExtTreeMap.mem_iff_isSome_getElem?.mp hknown)
        simp [hprogram]
      · simp [hfirst]
    · rw [announce, if_neg hknown]
      simp only [ih, Std.ExtTreeMap.getElem?_insert]
      by_cases hfirst : pid = first
      · subst hfirst
        simp [getElem?_eq_none_of_notMem hknown]
      · have hother : compare first pid ≠ .eq := by
          intro heq
          exact hfirst (Std.LawfulEqCmp.eq_of_compare heq).symm
        simp [hfirst, hother]

/-- Announcing gives no program a map table. -/
theorem mapped_of_announce {programs : Std.ExtTreeMap Nat Program} {pids : List Nat}
    {table : ProgramMap} (h : (announce programs pids).1[pid]? = some (Program.mapped table)) :
    programs[pid]? = some (Program.mapped table) := by
  rw [getElem?_announce] at h
  split at h
  case isTrue =>
    cases hprogram : programs[pid]? with
    | none => simp [hprogram] at h
    | some program => simpa [hprogram] using h
  case isFalse => exact h

/-- A map table is known exactly if some PID holds it. -/
theorem mem_maps_iff {table : ProgramMap} :
    table ∈ tables.maps ↔ ∃ mapPid : Nat, tables.programs[mapPid]? = some (.mapped table) := by
  simp only [maps, List.mem_filterMap, Prod.exists, Std.ExtTreeMap.mem_toList_iff_getElem?_eq_some]
  constructor
  · rintro ⟨mapPid, program, hprogram, htable⟩
    cases program with
    | announced => cases htable
    | mapped found =>
      obtain rfl : found = table := by simpa [Program.table?] using htable
      exact ⟨mapPid, hprogram⟩
  · rintro ⟨mapPid, hprogram⟩
    exact ⟨mapPid, .mapped table, hprogram, rfl⟩

/-- An elementary stream is known exactly if a known map table lists it. -/
theorem hasStream_iff : tables.hasStream pid = true ↔
    ∃ (mapPid : Nat) (table : ProgramMap), tables.programs[mapPid]? = some (.mapped table) ∧
      pid ∈ table.streams.map (·.pid) := by
  simp only [hasStream, streamType?, Option.isSome_map, List.findSome?_isSome_iff, mem_maps_iff,
    ProgramMap.stream?, List.find?_isSome, beq_iff_eq, List.mem_map]
  constructor
  · rintro ⟨table, ⟨mapPid, hprogram⟩, hlisted⟩
    exact ⟨mapPid, table, hprogram, hlisted⟩
  · rintro ⟨mapPid, table, hprogram, hlisted⟩
    exact ⟨table, ⟨mapPid, hprogram⟩, hlisted⟩

/-- What a payload on a PID can make of the tables. -/
inductive Change (tables : Tables) (pid : Nat) (unitStart : Bool) (payload : Bytes) :
    Tables → Prop
  /-- Nothing is taken in. -/
  | keep : Change tables pid unitStart payload tables
  /-- A program association table is taken in, and announces its programs. -/
  | associate (table : ProgramAssociation) (hpid : pid = associationPid)
      (hstart : unitStart = true)
      (hsection : (Section.decoder .association).decode payload = .ok (.association table)) :
      Change tables pid unitStart payload
        { association := some table, programs := (announce tables.programs table.programPids).1 }
  /-- The map table of a program is taken in that was announced only. -/
  | map (table : ProgramMap) (hpid : pid ≠ associationPid)
      (hannounced : tables.programs[pid]? = some .announced) (hstart : unitStart = true)
      (hsection : (Section.decoder .map).decode payload = .ok (.map table)) :
      Change tables pid unitStart payload
        { tables with programs := tables.programs.insert pid (.mapped table) }

/-- A table is expected on the PID of association tables, and on those of programs that
were announced only. -/
theorem expected?_eq_some {kind : TableKind} (h : tables.expected? pid = some kind) :
    match kind with
    | .association => pid = associationPid
    | .map => pid ≠ associationPid ∧ tables.programs[pid]? = some .announced := by
  unfold expected? at h
  split at h
  case isTrue hpid =>
    cases h
    exact hpid
  case isFalse hpid =>
    split at h
    case h_1 hannounced =>
      cases h
      exact ⟨hpid, hannounced⟩
    case h_2 => cases h

/-- On all other PIDs no table is expected. -/
theorem expected?_eq_none_iff : tables.expected? pid = none ↔
    pid ≠ associationPid ∧ tables.programs[pid]? ≠ some .announced := by
  unfold expected?
  split
  case isTrue hpid => simp [hpid]
  case isFalse hpid =>
    split
    case h_1 hannounced => simp [hannounced]
    case h_2 hannounced => simpa [hpid] using hannounced

/-- Where nothing is announced, no table is expected, and where a program has its map table
neither. -/
theorem read_of_not_announced (hpid : pid ≠ associationPid)
    (hprogram : tables.programs[pid]? ≠ some .announced) (unitStart : Bool) (payload : Bytes) :
    tables.read pid unitStart payload = { tables } := by
  have hexpected := expected?_eq_none_iff.mpr ⟨hpid, hprogram⟩
  simp only [read, hexpected]

/-- A payload comes where no table is expected, starts no section, starts one that cannot be
decoded, or starts one that is taken in. -/
theorem read_cases (tables : Tables) (pid : Nat) (unitStart : Bool) (payload : Bytes) :
    tables.read pid unitStart payload = { tables } ∨
      tables.read pid unitStart payload = { tables, notices := [.noSectionStart pid] } ∨
      (∃ e, tables.read pid unitStart payload = { tables, result := .error e }) ∨
      ∃ kind found, tables.expected? pid = some kind ∧ unitStart = true ∧
        (Section.decoder kind).decode payload = .ok found ∧
        tables.read pid unitStart payload =
          { tables := (tables.addSection pid kind found).1
            notices := (tables.addSection pid kind found).2 } := by
  unfold read
  cases hexpected : tables.expected? pid with
  | none => exact .inl rfl
  | some kind =>
    right
    cases unitStart with
    | false => exact .inl rfl
    | true =>
      right
      cases hsection : (Section.decoder kind).decode payload with
      | error e => exact .inl ⟨e, by simp only [hsection, if_true]⟩
      | ok found => exact .inr ⟨kind, found, rfl, rfl, hsection, by simp only [hsection, if_true]⟩

/-- Reading a payload changes the tables in one of these ways. -/
theorem change_read (tables : Tables) (pid : Nat) (unitStart : Bool) (payload : Bytes) :
    Change tables pid unitStart payload (tables.read pid unitStart payload).tables := by
  obtain hread | hread | ⟨e, hread⟩ | ⟨kind, found, hexpected, rfl, hsection, hread⟩ :=
    read_cases tables pid unitStart payload
  · rw [hread]
    exact .keep
  · rw [hread]
    exact .keep
  · rw [hread]
    exact .keep
  · rw [hread]
    have hpid := expected?_eq_some hexpected
    rcases Section.decode_ok hsection with ⟨tableId, rfl⟩ | hfound
    · exact .keep
    · cases kind with
      | association =>
        obtain ⟨table, rfl⟩ := hfound
        exact .associate table hpid rfl hsection
      | map =>
        obtain ⟨table, rfl⟩ := hfound
        exact .map table hpid.1 hpid.2 rfl hsection

/-- A program keeps its map table. -/
theorem Change.mapped {unitStart : Bool} {payload : Bytes} {after : Tables} {mapPid : Nat}
    {table : ProgramMap} (h : Change tables pid unitStart payload after)
    (hmapped : tables.programs[mapPid]? = some (.mapped table)) :
    after.programs[mapPid]? = some (.mapped table) := by
  cases h with
  | keep => exact hmapped
  | associate _ _ _ _ => simp [getElem?_announce, hmapped]
  | map _ _ hannounced _ _ =>
    have hne : pid ≠ mapPid := by
      rintro rfl
      simp [hannounced] at hmapped
    simp [Std.ExtTreeMap.getElem?_insert, hne, hmapped]

/-- An elementary stream, once it is known, stays known. -/
theorem hasStream_read (h : tables.hasStream pid = true) (other : Nat) (unitStart : Bool)
    (payload : Bytes) : (tables.read other unitStart payload).tables.hasStream pid = true := by
  obtain ⟨mapPid, table, hmapped, hlisted⟩ := hasStream_iff.mp h
  have hchange := change_read tables other unitStart payload
  exact hasStream_iff.mpr ⟨mapPid, table, hchange.mapped hmapped, hlisted⟩

end Tables

end TransportStream
