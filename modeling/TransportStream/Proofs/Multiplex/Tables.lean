import TransportStream.Proofs.Multiplex.Sending
import TransportStream.Proofs.Tables.Growth

/-!
# What is known of the tables of a multiplex

Behind some packets of a multiplex its association table is known, each announced program
is known, and it has its map table as soon as this was sent. No other table is known, so
that a stream is known exactly from its map table on.
-/

namespace TransportStream.Multiplex

/-- The tables are those of a multiplex as far as some packets have told them. -/
structure Known (m : Multiplex) (before : List WrittenPacket) (tables : Tables) : Prop where
  /-- The association table is known, as it comes first. -/
  association : before ≠ [] → tables.association = some m.association
  /-- All programs are announced then. -/
  announced : before ≠ [] → ∀ pid ∈ m.mapPids, tables.programs[pid]? ≠ none
  /-- No other programs are announced, and none has another map table than its own. -/
  programs : ∀ pid program, tables.programs[pid]? = some program →
    pid ∈ m.mapPids ∧ ∀ table ∈ program.table?, m.maps pid = some table
  /-- The map tables that were sent are known. -/
  mapped : ∀ sent ∈ before, ∀ table, m.Maps sent.packet table →
    tables.programs[sent.packet.pid]? = some (.mapped table)

variable {m : Multiplex} {before : List WrittenPacket} {tables : Tables} {sent : WrittenPacket}
  {pid : Nat} {payload : Bytes}

/-- A stream that the map table of a program lists is one of the multiplex. -/
theorem mem_streamPids {table : ProgramMap} {mapPid : Nat} (hmap : mapPid ∈ m.mapPids)
    (htable : m.maps mapPid = some table) (hlisted : pid ∈ table.streams.map (·.pid)) :
    pid ∈ m.streamPids := by
  refine List.mem_flatMap.mpr ⟨mapPid, hmap, ?_⟩
  rw [htable]
  exact hlisted

/-- Nothing is known before the first packet. -/
theorem known_nil (m : Multiplex) : m.Known [] {} where
  association := fun h => absurd rfl h
  announced := fun h => absurd rfl h
  programs := by
    intro pid program hprogram
    simp at hprogram
  mapped := fun sent hsent => absurd hsent List.not_mem_nil

/-- Only the streams of the multiplex are known. -/
theorem Known.mem_streamPids (h : m.Known before tables) (hstream : tables.hasStream pid = true) :
    pid ∈ m.streamPids := by
  obtain ⟨mapPid, table, hprogram, hlisted⟩ := Tables.hasStream_iff.mp hstream
  obtain ⟨hmap, htable⟩ := h.programs mapPid (.mapped table) hprogram
  exact Multiplex.mem_streamPids hmap (htable table rfl) hlisted

/-- A stream is known behind a map table that lists it. -/
theorem Known.hasStream (h : m.Known before tables) (hsent : sent ∈ before) {table : ProgramMap}
    (hmaps : m.Maps sent.packet table) (hlisted : pid ∈ table.streams.map (·.pid)) :
    tables.hasStream pid = true :=
  Tables.hasStream_iff.mpr ⟨_, table, h.mapped sent hsent table hmaps, hlisted⟩

/-- Behind a packet that is not for the tables, the same is known. -/
theorem Known.keep (h : m.Known before tables) (hbefore : before ≠ [])
    (hmaps : ∀ table, ¬ m.Maps sent.packet table) : m.Known (before ++ [sent]) tables where
  association := fun _ => h.association hbefore
  announced := fun _ => h.announced hbefore
  programs := h.programs
  mapped := by
    intro other hother table hother'
    rcases List.mem_append.mp hother with hother | hother
    · exact h.mapped other hother table hother'
    · obtain rfl := List.mem_singleton.mp hother
      exact absurd hother' (hmaps table)

/-- Behind the program association table, its programs are known in addition. -/
theorem Known.associate (h : m.Known before tables) (hpid : sent.packet.pid = associationPid)
    {after : Tables} (hassociation : after.association = some m.association)
    (hprograms : ∀ pid : Nat, after.programs[pid]? =
      if pid ∈ m.mapPids then some (tables.programs[pid]?.getD .announced)
      else tables.programs[pid]?) :
    m.Known (before ++ [sent]) after where
  association := fun _ => hassociation
  announced := by
    intro _ pid hmap
    rw [hprograms, if_pos hmap]
    exact Option.some_ne_none _
  programs := by
    intro pid program hprogram
    rw [hprograms] at hprogram
    by_cases hmap : pid ∈ m.mapPids
    · rw [if_pos hmap, Option.some_inj] at hprogram
      refine ⟨hmap, ?_⟩
      cases hold : tables.programs[pid]? with
      | none =>
        rw [hold] at hprogram
        subst hprogram
        intro table htable
        cases htable
      | some old =>
        rw [hold] at hprogram
        subst hprogram
        exact (h.programs pid old hold).2
    · rw [if_neg hmap] at hprogram
      exact h.programs pid program hprogram
  mapped := by
    intro other hother table hmaps
    rcases List.mem_append.mp hother with hother | hother
    · rw [hprograms, h.mapped other hother table hmaps]
      simp
    · obtain rfl := List.mem_singleton.mp hother
      exact absurd hpid (m.mapPids_separate _ hmaps.announced).1

/-- Behind a program map table, its program has this table. -/
theorem Known.map (h : m.Known before tables) (hbefore : before ≠ []) {table : ProgramMap}
    (hmaps : m.Maps sent.packet table) {after : Tables}
    (hassociation : after.association = tables.association)
    (hprograms : ∀ pid : Nat, after.programs[pid]? =
      if sent.packet.pid = pid then some (.mapped table) else tables.programs[pid]?) :
    m.Known (before ++ [sent]) after where
  association := fun _ => hassociation.trans (h.association hbefore)
  announced := by
    intro _ pid hmap
    rw [hprograms]
    split
    · exact Option.some_ne_none _
    · exact h.announced hbefore pid hmap
  programs := by
    intro pid program hprogram
    rw [hprograms] at hprogram
    split at hprogram
    case isTrue heq =>
      subst heq
      cases hprogram
      refine ⟨hmaps.announced, fun found hfound => ?_⟩
      cases hfound
      exact hmaps.map_eq
    case isFalse => exact h.programs pid program hprogram
  mapped := by
    intro other hother found hfound
    rw [hprograms]
    by_cases hpid : sent.packet.pid = other.packet.pid
    · have hmap := hfound.map_eq
      rw [← hpid, hmaps.map_eq, Option.some_inj] at hmap
      rw [if_pos hpid, hmap]
    · rw [if_neg hpid]
      rcases List.mem_append.mp hother with hother | hother
      · exact h.mapped other hother found hfound
      · rw [List.mem_singleton.mp hother] at hpid
        exact absurd rfl hpid

/-- The program association table is taken in wherever it comes. -/
theorem Known.read_association (h : m.Known before tables)
    (hpid : sent.packet.pid = associationPid)
    (hpoints : Section.PointedAt payload m.association.layout) :
    (tables.read sent.packet.pid true payload).result = .ok () ∧
      m.Known (before ++ [sent]) (tables.read sent.packet.pid true payload).tables := by
  have hdecode := Section.decode_association m.association_id m.association_fits hpoints
  have hexpected : tables.expected? sent.packet.pid = some .association := by
    rw [Tables.expected?, if_pos hpid]
  have hread : tables.read sent.packet.pid true payload =
      { tables := (tables.addSection sent.packet.pid .association (.association m.association)).1
        notices := (tables.addSection sent.packet.pid .association
          (.association m.association)).2 } := by
    simp only [Tables.read, hexpected, if_true, hdecode]
  rw [hread]
  exact ⟨rfl, h.associate hpid rfl (Tables.getElem?_announce tables.programs m.mapPids)⟩

/-- A program map table is taken in when it comes first, and later makes no difference. -/
theorem Known.read_map (h : m.Known before tables) (hbefore : before ≠ []) {table : ProgramMap}
    (hmaps : m.Maps sent.packet table) (hpayload : sent.packet.payload = some payload) :
    (tables.read sent.packet.pid true payload).result = .ok () ∧
      m.Known (before ++ [sent]) (tables.read sent.packet.pid true payload).tables := by
  have hpid := (m.mapPids_separate _ hmaps.announced).1
  obtain ⟨program, hprogram⟩ :=
    Option.ne_none_iff_exists'.mp (h.announced hbefore _ hmaps.announced)
  cases program with
  | announced =>
    obtain ⟨found, hfound, hpoints⟩ := hmaps.points
    obtain rfl : payload = found := Option.some_inj.mp (hpayload.symm.trans hfound)
    have hdecode := Section.decode_map (m.map_id _ _ hmaps.map_eq) (m.map_fits _ _ hmaps.map_eq)
      hpoints
    have hexpected : tables.expected? sent.packet.pid = some .map := by
      simp only [Tables.expected?, if_neg hpid, hprogram]
    have hread : tables.read sent.packet.pid true payload =
        { tables := (tables.addSection sent.packet.pid .map (.map table)).1
          notices := (tables.addSection sent.packet.pid .map (.map table)).2 } := by
      simp only [Tables.read, hexpected, if_true, hdecode]
    rw [hread]
    refine ⟨rfl, h.map hbefore hmaps rfl fun pid => ?_⟩
    by_cases heq : sent.packet.pid = pid <;>
      simp [Tables.addSection, Std.ExtTreeMap.getElem?_insert, heq]
  | mapped found =>
    have hfound : found = table := by
      have hmap := (h.programs _ _ hprogram).2 found rfl
      exact Option.some_inj.mp (hmap.symm.trans hmaps.map_eq)
    rw [Tables.read_of_not_announced hpid (by simp [hprogram])]
    refine ⟨rfl, h.map hbefore hmaps rfl fun pid => ?_⟩
    split
    case isTrue heq => rw [← heq, hprogram, hfound]
    case isFalse => rfl

/-- Behind each packet of a multiplex that is not on a known elementary stream, the tables
are those that have been told so far, and the packet could be read. -/
theorem Known.read (h : m.Known before tables) (hmay : m.MaySend before sent.packet)
    (hpayload : sent.packet.payload = some payload)
    (hstream : tables.hasStream sent.packet.pid = false) :
    (tables.read sent.packet.pid sent.packet.unitStart payload).result = .ok () ∧
      m.Known (before ++ [sent])
        (tables.read sent.packet.pid sent.packet.unitStart payload).tables := by
  cases hmay with
  | association found hpid hstart hfound hpoints =>
    obtain rfl : payload = found := Option.some_inj.mp (hpayload.symm.trans hfound)
    rw [hstart]
    exact h.read_association hpid hpoints
  | map hbefore table hmaps =>
    rw [hmaps.starts]
    exact h.read_map hbefore hmaps hpayload
  | piece other hother table hmaps hlisted =>
    rw [h.hasStream hother hmaps hlisted] at hstream
    cases hstream
  | noPayload hbefore hnone =>
    rw [hnone] at hpayload
    cases hpayload
  | noSection hbefore hpid hstart =>
    have hread : (tables.read sent.packet.pid false payload).result = .ok () ∧
        (tables.read sent.packet.pid false payload).tables = tables := by
      unfold Tables.read
      cases tables.expected? sent.packet.pid <;> exact ⟨rfl, rfl⟩
    rw [hstart]
    refine ⟨hread.1, hread.2.symm ▸ h.keep hbefore fun table hmaps => ?_⟩
    rw [hmaps.starts] at hstart
    cases hstart
  | foreign hbefore hassociation hmap _ =>
    have hprogram : tables.programs[sent.packet.pid]? ≠ some .announced := by
      intro hannounced
      exact hmap (h.programs _ _ hannounced).1
    rw [Tables.read_of_not_announced hassociation hprogram]
    exact ⟨rfl, h.keep hbefore fun table hmaps => absurd hmaps.announced hmap⟩

end TransportStream.Multiplex
