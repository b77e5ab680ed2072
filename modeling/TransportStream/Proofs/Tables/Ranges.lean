import TransportStream.Proofs.Bits.Values
import TransportStream.Proofs.Demuxer.LifeCycle

/-!
# What is in range in known tables

A section is taken in only if it belongs to the kind of table that is expected, and its PIDs are
fields of thirteen bits. So each known table is of its kind, and all PIDs in it are in range, as are
those on which programs are announced.
-/

namespace TransportStream

open Decoder

/-- The kind and the PIDs of a program association table. -/
structure ProgramAssociation.InRange (table : ProgramAssociation) : Prop where
  /-- The table says of itself that it is of this kind. -/
  tableId : table.head.tableId = associationTableId
  /-- The PIDs of programs and of network information have thirteen bits. -/
  pid : ∀ entry ∈ table.entries, entry.pid < 8192

/-- The kind and the PIDs of a program map table. -/
structure ProgramMap.InRange (table : ProgramMap) : Prop where
  /-- The table says of itself that it is of this kind. -/
  tableId : table.head.tableId = mapTableId
  /-- The PID of the clock has thirteen bits. -/
  pcrPid : table.pcrPid < 8192
  /-- So have the PIDs of the elementary streams. -/
  pid : ∀ stream ∈ table.streams, stream.pid < 8192

/-- What a demultiplexer knows of tables is in range. -/
structure Tables.InRange (tables : Tables) : Prop where
  /-- The association table is. -/
  association : ∀ table, tables.association = some table → table.InRange
  /-- The map tables are. -/
  map : ∀ (mapPid : Nat) (table : ProgramMap),
    tables.programs[mapPid]? = some (.mapped table) → table.InRange
  /-- So are the PIDs on which programs list their streams. -/
  mapPid : ∀ mapPid ∈ tables.programs, mapPid < 8192

/-- The head of a section keeps the kind of table that was read before it. -/
theorem SectionHead.gives_decoder (tableId : Nat) (generalLayout : Bool) :
    Gives (·.tableId = tableId) (SectionHead.decoder tableId generalLayout) :=
  gives_bind fun _ => gives_bind fun _ => gives_bind fun _ => gives_bind fun _ => gives_pure rfl

/-- What is read from the head of a section on begins with the byte there. -/
theorem Section.of_decode_bind {α : Type} {p : α → Prop} {next : Nat → Decoder α} {bytes : Bytes}
    {tableId : Nat} {a : α} (hid : bytes.head?.map (·.toNat) = some tableId)
    (hdecode : (u8 >>= next).decode bytes = .ok a) (hnext : Gives p (next tableId)) : p a := by
  cases bytes with
  | nil => cases hid
  | cons byte behind =>
    obtain rfl : byte.toNat = tableId := Option.some_inj.mp hid
    obtain ⟨r, hread⟩ := decode_eq_ok.mp hdecode
    rw [bind_of_ok (u8_cons byte behind)] at hread
    exact hnext _ a r hread

/-- An association table that is read off a section is in range. -/
theorem ProgramAssociation.inRange_of_section {table : ProgramAssociation} {payload : Bytes}
    (h : (Section.decoder .association).decode payload = .ok (.association table)) :
    table.InRange := by
  obtain ⟨bytes, hsection, htable⟩ := (Section.decode_eq_ok_iff (by simp)).mp h
  have hdecode : decoder.decode bytes = .ok table :=
    (decode_map_eq_ok fun _ _ => Section.association.inj).mp htable
  refine Section.of_decode_bind (head?_of_sectionIn hsection) hdecode
    (gives_bind fun f => Gives.within ?_ _)
  refine (SectionHead.gives_decoder _ _).bind fun head hhead => ?_
  refine (AssociationEntry.gives_decoder.repeated _).bind fun entries hentries => ?_
  exact gives_bind fun crc => gives_pure ⟨hhead, hentries⟩

/-- A map table that is read off a section is in range. -/
theorem ProgramMap.inRange_of_section {table : ProgramMap} {payload : Bytes}
    (h : (Section.decoder .map).decode payload = .ok (.map table)) : table.InRange := by
  obtain ⟨bytes, hsection, htable⟩ := (Section.decode_eq_ok_iff (by simp)).mp h
  have hdecode : decoder.decode bytes = .ok table :=
    (decode_map_eq_ok fun _ _ => Section.map.inj).mp htable
  refine Section.of_decode_bind (head?_of_sectionIn hsection) hdecode
    (gives_bind fun f => gives_bind fun _ => Gives.within ?_ _)
  refine (SectionHead.gives_decoder _ _).bind fun head hhead => ?_
  refine gives_pidField.bind fun pcrPid hpcrPid => gives_bind fun _ => gives_bind fun info => ?_
  refine (ElementaryStream.gives_decoder.repeated _).bind fun streams hstreams => ?_
  exact gives_bind fun crc => gives_pure ⟨hhead, hpcrPid, hstreams⟩

namespace Tables

variable {tables after : Tables} {pid : Nat} {unitStart : Bool} {payload : Bytes}

/-- Tables that know nothing are in range. -/
theorem inRange_nil : InRange {} where
  association := by simp
  map := by simp
  mapPid := by simp

/-- Whatever a packet on a PID in range makes of the tables is in range. -/
theorem InRange.change (h : tables.InRange) (hpid : pid < 8192)
    (hchange : Change tables pid unitStart payload after) : after.InRange := by
  cases hchange with
  | keep => exact h
  | associate found _ _ hsection =>
    have hfound := ProgramAssociation.inRange_of_section hsection
    constructor
    · rintro table ⟨⟩
      exact hfound
    · intro mapPid table hmapped
      exact h.map mapPid table (mapped_of_announce hmapped)
    · intro mapPid hmem
      rcases mem_announce_iff.mp hmem with hknown | hannounced
      · exact h.mapPid mapPid hknown
      · obtain ⟨entry, hentry, rfl, _⟩ := ProgramAssociation.mem_programPids_iff.mp hannounced
        exact hfound.pid entry hentry
  | map found _ _ _ hsection =>
    have hfound := ProgramMap.inRange_of_section hsection
    constructor
    · exact h.association
    · intro mapPid table hmapped
      by_cases heq : pid = mapPid
      · obtain rfl : found = table := by simpa [heq] using hmapped
        exact hfound
      · exact h.map mapPid table (by simpa [Std.ExtTreeMap.getElem?_insert, heq] using hmapped)
    · intro mapPid hmem
      rcases Std.ExtTreeMap.mem_insert.mp hmem with heq | hknown
      · exact Std.LawfulEqCmp.eq_of_compare heq ▸ hpid
      · exact h.mapPid mapPid hknown

/-- The PIDs of known elementary streams are in range. -/
theorem InRange.lt_of_hasStream (h : tables.InRange) (hstream : tables.hasStream pid = true) :
    pid < 8192 := by
  obtain ⟨mapPid, table, hmapped, hlisted⟩ := hasStream_iff.mp hstream
  obtain ⟨stream, hmem, rfl⟩ := List.mem_map.mp hlisted
  exact (h.map mapPid table hmapped).pid stream hmem

end Tables

end TransportStream
