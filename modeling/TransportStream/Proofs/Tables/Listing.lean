import TransportStream.Proofs.Demuxer.LifeCycle

/-!
# Which map table decides on an elementary stream

The known map tables are listed in the order of their PIDs, whatever the order in which they
arrived. Where several of them list an elementary stream, the first one in this order decides on its
type, and in that table the first entry does.
-/

namespace TransportStream

/-- An entry of a map table is the first one for its elementary stream. -/
def ProgramMap.ListsFirst (table : ProgramMap) (stream : ElementaryStream) : Prop :=
  ∃ before behind, table.streams = before ++ stream :: behind ∧
    ∀ entry ∈ before, entry.pid ≠ stream.pid

/-- A map table finds the first of its entries for a PID. -/
theorem ProgramMap.stream?_eq_some_iff {table : ProgramMap} {pid : Nat}
    {stream : ElementaryStream} :
    table.stream? pid = some stream ↔ stream.pid = pid ∧ table.ListsFirst stream := by
  simp only [stream?, ListsFirst, List.find?_eq_some_iff_append, beq_iff_eq, Bool.not_eq_true',
    beq_eq_false_iff_ne]
  refine and_congr_right ?_
  rintro rfl
  rfl

/-- A map table finds nothing for a PID that it does not list. -/
theorem ProgramMap.stream?_eq_none_iff {table : ProgramMap} {pid : Nat} :
    table.stream? pid = none ↔ pid ∉ table.streams.map (·.pid) := by
  simp [stream?]

namespace Tables

/-- A map table, known on some PID, decides on an elementary stream with one of its entries: the
entry is the first one for the stream, and no map table that is known on a lower PID lists the
stream. -/
structure DecidesOn (tables : Tables) (pid mapPid : Nat) (stream : ElementaryStream) : Prop where
  /-- The entry is for the stream. -/
  entry : stream.pid = pid
  /-- It is the first such entry of the table. -/
  first : ∃ table, tables.program? mapPid = some table ∧ table.ListsFirst stream
  /-- No other table before this one lists the stream. -/
  lowest : ∀ lower < mapPid, ∀ table, tables.program? lower = some table →
    pid ∉ table.streams.map (·.pid)

variable {tables : Tables} {pid : Nat}

/-- The known map tables with their PIDs, in the order of these. -/
def mapped (tables : Tables) : List (Nat × ProgramMap) :=
  tables.programs.toList.filterMap fun entry => entry.2.table?.map (entry.1, ·)

/-- The map tables are listed as they are known, without their PIDs. -/
theorem maps_eq (tables : Tables) : tables.maps = tables.mapped.map (·.2) := by
  rw [maps, mapped, List.map_filterMap]
  congr 1
  funext entry
  simp [Function.comp_def]

/-- The map tables are known in the order of their PIDs. -/
theorem pairwise_mapped (tables : Tables) : tables.mapped.Pairwise fun a b => a.1 < b.1 := by
  refine Std.ExtTreeMap.ordered_keys_toList.filterMap _ ?_
  intro entry entry' hlt a ha b hb
  obtain ⟨table, -, rfl⟩ := Option.map_eq_some_iff.mp ha
  obtain ⟨table', -, rfl⟩ := Option.map_eq_some_iff.mp hb
  exact Nat.compare_eq_lt.mp hlt

/-- A map table is known on a PID if the program there has it. -/
theorem mem_mapped_iff {mapPid : Nat} {table : ProgramMap} :
    (mapPid, table) ∈ tables.mapped ↔ tables.program? mapPid = some table := by
  simp only [mapped, program?, List.mem_filterMap, Prod.exists, Option.map_eq_some_iff,
    Option.bind_eq_some_iff, Prod.mk.injEq, Std.ExtTreeMap.mem_toList_iff_getElem?_eq_some]
  constructor
  · rintro ⟨_, program, hprogram, _, htable, rfl, rfl⟩
    exact ⟨program, hprogram, htable⟩
  · rintro ⟨program, hprogram, htable⟩
    exact ⟨mapPid, program, hprogram, table, htable, rfl, rfl⟩

/-- The entry that decides on an elementary stream is the first one that is found in the known map
tables in order. -/
theorem findSome?_maps_eq_some_iff {stream : ElementaryStream} :
    tables.maps.findSome? (·.stream? pid) = some stream ↔
      ∃ mapPid, tables.DecidesOn pid mapPid stream := by
  rw [maps_eq, List.findSome?_map, List.findSome?_eq_some_iff]
  have hsorted := tables.pairwise_mapped
  constructor
  · rintro ⟨before, ⟨mapPid, table⟩, behind, hsplit, hstream, hbefore⟩
    obtain ⟨hentry, hfirst⟩ := ProgramMap.stream?_eq_some_iff.mp hstream
    rw [hsplit, List.pairwise_append, List.pairwise_cons] at hsorted
    have hmem : (mapPid, table) ∈ tables.mapped := by simp [hsplit]
    refine ⟨mapPid, hentry, ⟨table, mem_mapped_iff.mp hmem, hfirst⟩, ?_⟩
    -- A table on a lower PID is listed before this one.
    intro lower hlower other hother
    rw [← mem_mapped_iff, hsplit, List.mem_append, List.mem_cons] at hother
    rcases hother with hother | heq | hother
    · exact ProgramMap.stream?_eq_none_iff.mp (hbefore _ hother)
    · cases heq
      omega
    · have := hsorted.2.1.1 _ hother
      simp only at this
      omega
  · rintro ⟨mapPid, hentry, ⟨table, hknown, hfirst⟩, hlowest⟩
    obtain ⟨before, behind, hsplit⟩ := List.append_of_mem (mem_mapped_iff.mpr hknown)
    refine ⟨before, (mapPid, table), behind, hsplit,
      ProgramMap.stream?_eq_some_iff.mpr ⟨hentry, hfirst⟩, ?_⟩
    rintro ⟨lower, other⟩ hother
    rw [hsplit, List.pairwise_append] at hsorted
    have hlower : lower < mapPid := hsorted.2.2 _ hother _ List.mem_cons_self
    have hknown : (lower, other) ∈ tables.mapped := by simp [hsplit, hother]
    exact ProgramMap.stream?_eq_none_iff.mpr (hlowest lower hlower other (mem_mapped_iff.mp hknown))

/-- An elementary stream has the type that the deciding entry tells. -/
theorem streamType?_eq_some_iff {type : StreamType} : tables.streamType? pid = some type ↔
    ∃ mapPid stream, tables.DecidesOn pid mapPid stream ∧ stream.type = type := by
  rw [streamType?, Option.map_eq_some_iff]
  simp only [findSome?_maps_eq_some_iff]
  constructor
  · rintro ⟨stream, ⟨mapPid, hdecides⟩, rfl⟩
    exact ⟨mapPid, stream, hdecides, rfl⟩
  · rintro ⟨mapPid, stream, hdecides, rfl⟩
    exact ⟨stream, ⟨mapPid, hdecides⟩, rfl⟩

end Tables

end TransportStream
