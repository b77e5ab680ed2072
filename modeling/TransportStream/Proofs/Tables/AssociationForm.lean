import TransportStream.Proofs.Tables.Places

/-!
# The form of program association tables

Bytes are the section of a program association table if the length that they tell leaves room for
a number of whole entries between the head and the checksum. Exactly such bytes are decoded. The
entries are then those at every fourth byte behind the head, and the table written back gives the
same bytes up to the reserved bits.
-/

namespace TransportStream

open Decoder Layout

/-- The items of one size that fill some bytes. -/
def itemsOfSize {α : Type} (size : Nat) (value : Bytes → α) (bytes : Bytes) (n : Nat) : List α :=
  (List.range n).map fun i => value (bytes.extract (size * i) (size * i + size))

section Sized

variable {α : Type} {size n : Nat} {value : Bytes → α} {bytes item rest : Bytes} {items : List α}

/-- The items behind the first one are those of the bytes behind it. -/
theorem itemsOfSize_succ (hitem : item.length = size) :
    itemsOfSize size value (item ++ rest) (n + 1) =
      value item :: itemsOfSize size value rest n := by
  have hfirst : (item ++ rest).extract (size * 0) (size * 0 + size) = item := by
    simp [← hitem]
  have hlater : ∀ i, (item ++ rest).extract (size * (i + 1)) (size * (i + 1) + size) =
      rest.extract (size * i) (size * i + size) := by
    intro i
    have hplace : size * (i + 1) = item.length + size * i := by
      rw [hitem, Nat.mul_succ, Nat.add_comm]
    rw [List.extract, List.extract, hplace, List.drop_length_add_append, Nat.add_sub_cancel_left,
      Nat.add_sub_cancel_left]
  rw [itemsOfSize, List.range_succ_eq_map, List.map_cons, List.map_map, hfirst]
  apply congrArg (value item :: ·)
  apply List.map_congr_left
  intro i _
  exact congrArg value (hlater i)

/-- Bytes that items of one size tile are as many as these have together, and hold them in order. -/
theorem Tiled.eq_itemsOfSize
    (h : Tiled (fun item a => item.length = size ∧ a = value item) bytes items) :
    bytes.length = size * items.length ∧ items = itemsOfSize size value bytes items.length := by
  induction h with
  | nil => exact ⟨rfl, rfl⟩
  | @cons item rest a as hitem _ ih =>
    obtain ⟨hsize, rfl⟩ := hitem
    obtain ⟨hlength, has⟩ := ih
    constructor
    · rw [List.length_append, List.length_cons, hsize, hlength, Nat.mul_succ, Nat.add_comm]
    · rw [List.length_cons, itemsOfSize_succ hsize, ← has]

/-- Bytes whose number is a multiple of a size are tiled by items of this size. -/
theorem tiled_itemsOfSize (h : bytes.length = size * n) :
    Tiled (fun item a => item.length = size ∧ a = value item) bytes
      (itemsOfSize size value bytes n) := by
  induction n generalizing bytes with
  | zero =>
    obtain rfl : bytes = [] := List.eq_nil_of_length_eq_zero h
    exact .nil
  | succ n ih =>
    rw [Nat.mul_succ] at h
    have hfirst : (bytes.take size).length = size := List.length_take_of_le (by omega)
    have hrest : (bytes.drop size).length = size * n := by
      rw [List.length_drop]
      omega
    rw [← List.take_append_drop size bytes, itemsOfSize_succ hfirst]
    exact .cons ⟨hfirst, rfl⟩ (ih hrest)

end Sized

/-- The entry that begins at a place. -/
def AssociationEntry.atPlace (bytes : Bytes) (place : Nat) : AssociationEntry where
  program := bytes.number place (place + 2)
  pid := bytes.number (place + 2) (place + 4) % 2 ^ 13

/-- An entry is four bytes: the number of a program, and a PID behind three reserved bits. -/
def AssociationEntry.Form (bytes : Bytes) (entry : AssociationEntry) : Prop :=
  bytes.length = 4 ∧ entry = .atPlace bytes 0

namespace ProgramAssociation

/-- The length that a section tells in its second and third byte. -/
def lengthIn (bytes : Bytes) : Nat := bytes.number 1 3 % 2 ^ 12

/-- The bytes that the length of a section counts. -/
def bodyIn (bytes : Bytes) : Bytes := bytes.extract 3 (3 + lengthIn bytes)

/-- The number of entries for which the length of a section leaves room. -/
def entryCountIn (bytes : Bytes) : Nat := (lengthIn bytes - 9) / 4

/-- Bytes begin with the section of a program association table. -/
structure HasForm (bytes : Bytes) : Prop where
  /-- The section is there as a whole. -/
  complete : 3 + lengthIn bytes ≤ bytes.length
  /-- There is room for the head and the checksum. -/
  least : 9 ≤ lengthIn bytes
  /-- Between these there is room for whole entries. -/
  whole : 4 ∣ lengthIn bytes - 9

/-- The table whose fields are those at their places in a section. -/
def atPlaces (bytes : Bytes) : ProgramAssociation where
  head := .atPlaces (bytes.number 0 1) ((bytes.number 1 3).testBit 15) (bodyIn bytes)
  entries := (List.range (entryCountIn bytes)).map fun i => .atPlace bytes (8 + 4 * i)
  crc := bytes.number (lengthIn bytes - 1) (lengthIn bytes + 3)

/-- The numbers in a table have no more bits than their fields. -/
structure FieldsFit (table : ProgramAssociation) : Prop where
  /-- The kind of table has eight bits. -/
  tableId : table.head.tableId < 2 ^ 8
  /-- The identifier of the transport stream has sixteen. -/
  subject : table.head.subject < 2 ^ 16
  /-- The version has five. -/
  version : table.head.version < 2 ^ 5
  /-- The number of the section has eight. -/
  number : table.head.number < 2 ^ 8
  /-- The number of the last section has eight. -/
  lastNumber : table.head.lastNumber < 2 ^ 8
  /-- Each entry has a program of sixteen bits and a PID of thirteen. -/
  entries : ∀ entry ∈ table.entries, entry.program < 2 ^ 16 ∧ entry.pid < 2 ^ 13
  /-- The checksum has thirty-two. -/
  crc : table.crc < 2 ^ 32

end ProgramAssociation

/-- An entry in bytes that were cut out is the one at its place before. -/
theorem AssociationEntry.atPlace_extract (bytes : Bytes) (start : Nat) {stop place : Nat}
    (h : start + (place + 4) ≤ stop) :
    atPlace (bytes.extract start stop) place = atPlace bytes (start + place) := by
  rw [atPlace, atPlace, Bytes.number_extract _ _ (by omega), Bytes.number_extract _ _ h]
  rfl

/-- An entry is found in the first four bytes. -/
theorem AssociationEntry.finds_decoder : Finds Form AssociationEntry.decoder := by
  intro s entry r h
  unfold AssociationEntry.decoder at h
  obtain ⟨program, _, hprogram, h⟩ := bind_eq_ok.mp h
  obtain ⟨_, rfl, rfl⟩ := u16_eq_ok.mp hprogram
  obtain ⟨pid, _, hpid, h⟩ := bind_eq_ok.mp h
  obtain ⟨hroom, rfl, rfl⟩ := eq_of_pidField hpid
  cases h
  rw [List.length_drop] at hroom
  have hplace : atPlace (s.take 4) 0 = atPlace s 0 := atPlace_extract s 0 (Nat.le_refl 4)
  refine ⟨s.take 4, s.drop 4, (List.take_append_drop 4 s).symm, ⟨?_, ?_⟩, ?_⟩
  · exact List.length_take_of_le (by omega)
  · rw [hplace]
    rfl
  · rw [List.drop_drop]

/-- An entry is written as it is read. -/
theorem AssociationEntry.Form.spells {bytes : Bytes} {entry : AssociationEntry}
    (h : Form bytes entry) : entry.layout.Spells bytes := by
  obtain ⟨hlength, rfl⟩ := h
  have hprogram : Spells [.value 16 (bytes.number 0 2)] (bytes.extract 0 2) :=
    spells_number_at (by omega) rfl
  have hpid := spells_pid (length_extract (by omega) : (bytes.extract 2 4).length = 4 - 2)
  have hsplit : bytes.extract 0 2 ++ bytes.extract 2 4 = bytes := by
    rw [extract_append_extract _ (by omega) (by omega), ← hlength]
    exact List.take_length
  have hwhole := hprogram.append hpid
  rw [hsplit] at hwhole
  exact hwhole

namespace ProgramAssociation

variable {bytes : Bytes} {table : ProgramAssociation}

/-- The body has as many bytes as the length counts. -/
theorem HasForm.length_body (h : HasForm bytes) : (bodyIn bytes).length = lengthIn bytes := by
  rw [bodyIn, length_extract h.complete, Nat.add_sub_cancel_left]

/-- The entries between the head and the checksum are those at every fourth place. -/
theorem HasForm.entries_eq (h : HasForm bytes) :
    itemsOfSize 4 (AssociationEntry.atPlace · 0)
      ((bodyIn bytes).extract 5 ((bodyIn bytes).length - 4)) (entryCountIn bytes) =
        (atPlaces bytes).entries := by
  have hleast := h.least
  apply List.map_congr_left
  intro i hi
  have hlt : i < entryCountIn bytes := List.mem_range.mp hi
  have hroom : 9 + (4 * i + 4) ≤ lengthIn bytes := by
    unfold entryCountIn at hlt
    omega
  have hlength := h.length_body
  calc AssociationEntry.atPlace (((bodyIn bytes).extract 5 ((bodyIn bytes).length - 4)).extract
        (4 * i) (4 * i + 4)) 0
      = .atPlace ((bodyIn bytes).extract 5 ((bodyIn bytes).length - 4)) (4 * i) :=
        AssociationEntry.atPlace_extract _ _ (by omega)
    _ = .atPlace (bodyIn bytes) (5 + 4 * i) := AssociationEntry.atPlace_extract _ _ (by omega)
    _ = .atPlace bytes (3 + (5 + 4 * i)) := AssociationEntry.atPlace_extract _ _ (by omega)
    _ = .atPlace bytes (8 + 4 * i) := by
      congr 1
      omega

/-- The checksum is in the last four bytes that the length counts. -/
theorem HasForm.crc_eq (h : HasForm bytes) :
    (bodyIn bytes).number ((bodyIn bytes).length - 4) (bodyIn bytes).length =
      (atPlaces bytes).crc := by
  have hleast := h.least
  rw [h.length_body, bodyIn, Bytes.number_extract _ _ (by omega), atPlaces]
  congr 1
  · omega
  · omega

/-- Reads the bytes that the length of a section counts. -/
def bodyDecoder (tableId : Nat) (generalLayout : Bool) : Decoder ProgramAssociation := do
  let head ← SectionHead.decoder tableId generalLayout
  let entries ← repeated checksumSize AssociationEntry.decoder
  let crc ← u32
  return { head, entries, crc }

/-- An association table is read in three parts: its kind, its layout and length, and its body. -/
theorem decoder_eq : decoder = (do
    let tableId ← u8
    let f ← fields [1, 1, 2, 12]
    within (f.get 3) (bodyDecoder tableId (f.flag 0))) := rfl

/-- What is read off the bytes that a length counts is at its places there. -/
theorem eq_of_decode_body {body : Bytes} {tableId : Nat} {generalLayout : Bool}
    (h : (bodyDecoder tableId generalLayout).decode body = .ok table) :
    9 ≤ body.length ∧ table.head = .atPlaces tableId generalLayout body ∧
      Tiled AssociationEntry.Form (body.extract 5 (body.length - 4)) table.entries ∧
      table.crc = body.number (body.length - 4) body.length := by
  obtain ⟨_, h⟩ := decode_eq_ok.mp h
  unfold bodyDecoder at h
  obtain ⟨head, _, hhead, h⟩ := bind_eq_ok.mp h
  obtain ⟨hroom, rfl, rfl⟩ := SectionHead.eq_of_decoder hhead
  obtain ⟨hchecked, entries, htiled, rfl⟩ := AssociationEntry.finds_decoder.checked
    AssociationEntry.reads_decoder (by decide) hroom h
  exact ⟨hchecked, rfl, htiled, rfl⟩

/-- The length is the last of the fields behind the first byte. -/
theorem get_length (bytes : Bytes) :
    (⟨bytes.number 1 3⟩ : Fields [1, 1, 2, 12]).get 3 = lengthIn bytes := by
  rw [Fields.get_eq]
  exact congrArg (· % 2 ^ 12) (Nat.div_one _)

/-- What is decoded has the form of a section, and is at its places there. -/
theorem hasForm_of_decode (h : decode bytes = .ok table) :
    HasForm bytes ∧ table = atPlaces bytes := by
  rw [decode, decoder_eq] at h
  obtain ⟨_, h⟩ := decode_eq_ok.mp h
  obtain ⟨tableId, _, hid, h⟩ := bind_eq_ok.mp h
  obtain ⟨_, rfl, rfl⟩ := u8_eq_ok.mp hid
  obtain ⟨f, _, hfields, h⟩ := bind_eq_ok.mp h
  obtain ⟨hlengthRoom, rfl, rfl⟩ := (fields_eq_ok (k := 2) rfl).mp hfields
  obtain ⟨hroom, hbody, _⟩ := within_eq_ok.mp h
  have hlength : (⟨Bytes.toNat ((bytes.drop 1).take 2)⟩ : Fields [1, 1, 2, 12]).get 3 =
      lengthIn bytes := get_length bytes
  have hin : ((bytes.drop 1).drop 2).take (lengthIn bytes) = bodyIn bytes := take_body _ _
  rw [List.length_drop] at hlengthRoom
  rw [hlength, List.length_drop, List.length_drop] at hroom
  rw [hlength, hin, Fields.flag_eq _ _ _ rfl] at hbody
  have hcomplete : 3 + lengthIn bytes ≤ bytes.length := by omega
  have hlengthBody : (bodyIn bytes).length = lengthIn bytes := by
    rw [bodyIn, length_extract hcomplete, Nat.add_sub_cancel_left]
  obtain ⟨hleast, hhead, htiled, hcrc⟩ := eq_of_decode_body hbody
  obtain ⟨hcount, hentries⟩ := htiled.eq_itemsOfSize
  rw [length_extract (Nat.sub_le _ _), hlengthBody] at hcount
  rw [hlengthBody] at hleast
  have hform : HasForm bytes := ⟨hcomplete, hleast, ⟨table.entries.length, by omega⟩⟩
  have hentryCount : table.entries.length = entryCountIn bytes := by
    unfold entryCountIn
    omega
  rw [hentryCount, hform.entries_eq] at hentries
  rw [hform.crc_eq] at hcrc
  refine ⟨hform, ?_⟩
  cases table
  cases hhead
  cases hentries
  cases hcrc
  rfl

/-- A length of twelve bits, and the layout of a section. -/
theorem spells_length (h : bytes.length = 2) :
    Spells [flag (bytes.toNat.testBit 15), .free 1, .free 2, .value 12 (bytes.toNat % 2 ^ 12)]
      bytes := by
  refine spells_of_agrees (by simp [h, flag]) ?_
  rintro (_ | _ | _ | _ | i) hi width n hpiece
  · cases hpiece
    rw [Fields.get_eq, toNat_testBit]
    rfl
  · cases hpiece
  · cases hpiece
  · cases hpiece
    rw [Fields.get_eq]
    exact congrArg (· % 2 ^ 12) (Nat.div_one _)
  · simp at hpiece

/-- A section is written as it is read. -/
theorem HasForm.spells (h : HasForm bytes) :
    (atPlaces bytes).layout.Spells (bytes.take (3 + lengthIn bytes)) := by
  have hcomplete := h.complete
  have hleast := h.least
  obtain ⟨count, hcount⟩ := h.whole
  have hlengthBody := h.length_body
  have hid : Spells [.value 8 (bytes.number 0 1)] (bytes.extract 0 1) :=
    spells_number_at (by omega) rfl
  have hlength := spells_length (length_extract (by omega) : (bytes.extract 1 3).length = 3 - 1)
  have hhead : (atPlaces bytes).head.layout.Spells ((bodyIn bytes).extract 0 5) :=
    SectionHead.spells_atPlaces _ _ (by omega)
  have htiled : Tiled AssociationEntry.Form
      ((bodyIn bytes).extract 5 ((bodyIn bytes).length - 4)) (atPlaces bytes).entries := by
    rw [← h.entries_eq]
    apply tiled_itemsOfSize
    rw [length_extract (Nat.sub_le _ _), hlengthBody, entryCountIn]
    omega
  have hentries := htiled.spells fun _ _ => AssociationEntry.Form.spells
  have hcrc : Spells [.value 32 (atPlaces bytes).crc]
      ((bodyIn bytes).extract ((bodyIn bytes).length - 4) (bodyIn bytes).length) := by
    rw [← h.crc_eq]
    exact spells_number_at (Nat.le_refl _) (by omega)
  have hbody : (atPlaces bytes).body.Spells (bodyIn bytes) := by
    have hsplit : (bodyIn bytes).extract 0 5 ++
        (bodyIn bytes).extract 5 ((bodyIn bytes).length - 4) ++
        (bodyIn bytes).extract ((bodyIn bytes).length - 4) (bodyIn bytes).length =
          bodyIn bytes := by
      rw [extract_append_extract _ (by omega) (by omega),
        extract_append_extract _ (by omega) (by omega)]
      exact List.take_length
    have hwhole := (hhead.append hentries).append hcrc
    rwa [hsplit] at hwhole
  have hsize : (atPlaces bytes).body.size / 8 = lengthIn bytes := by
    rw [← hbody.writes.length_eq, Nat.mul_div_cancel_left _ (by decide), hlengthBody]
  rw [take_section, ProgramAssociation.layout, hsize]
  exact hid.append (hlength.append hbody)

/-- Bytes of the form of a section are decoded. -/
theorem HasForm.decode (h : HasForm bytes) :
    ProgramAssociation.decode bytes = .ok (atPlaces bytes) := by
  obtain ⟨hfits, hwrites⟩ := h.spells
  exact (undoes_decoder hfits _).decode_of_take hwrites

/-- The PIDs of programs are read at every fourth place where the number of a program is not
zero. -/
theorem programPids_atPlaces (bytes : Bytes) :
    (atPlaces bytes).programPids =
      ((List.range (entryCountIn bytes)).filter fun i =>
        bytes.number (8 + 4 * i) (10 + 4 * i) ≠ 0).map fun i =>
          bytes.number (10 + 4 * i) (12 + 4 * i) % 2 ^ 13 := by
  have hplaces : ∀ i, AssociationEntry.atPlace bytes (8 + 4 * i) =
      ⟨bytes.number (8 + 4 * i) (10 + 4 * i),
        bytes.number (10 + 4 * i) (12 + 4 * i) % 2 ^ 13⟩ := by
    intro i
    have hmiddle : 8 + 4 * i + 2 = 10 + 4 * i := by omega
    have hend : 8 + 4 * i + 4 = 12 + 4 * i := by omega
    rw [AssociationEntry.atPlace, hmiddle, hend]
  have hnetwork : ∀ n : Nat, (!(n == 0)) = decide (n ≠ 0) := by
    intro n
    cases n <;> rfl
  simp only [programPids, atPlaces, List.filter_map, List.map_map, hplaces, Function.comp_def,
    AssociationEntry.isNetwork, hnetwork]

/-- Each entry takes 32 bits. -/
theorem size_entries (entries : List AssociationEntry) :
    Layout.size (entries.flatMap AssociationEntry.layout) = 32 * entries.length := by
  induction entries with
  | nil => rfl
  | cons entry entries ih =>
    rw [List.flatMap_cons, size_append, ih, List.length_cons, AssociationEntry.layout, size_value,
      size_free, size_value, size_nil]
    omega

/-- A table can be written if its numbers fit, and its entries leave room for the rest of a section
in the length. -/
theorem fits_layout_iff :
    table.layout.Fits ↔ table.FieldsFit ∧ table.entries.length ≤ 1021 := by
  have hsize : table.body.size / 8 = 9 + 4 * table.entries.length := by
    rw [body, size_append, size_append, size_entries, SectionHead.layout]
    simp only [size_value, size_free, size_nil, flag]
    omega
  have hlength : table.body.size / 8 < 2 ^ 12 ↔ table.entries.length ≤ 1021 := by
    rw [hsize]
    omega
  have hstart : Fits [.value 8 table.head.tableId, flag table.head.generalLayout, .free 1, .free 2,
      .value 12 (table.body.size / 8)] ↔
        table.head.tableId < 2 ^ 8 ∧ table.entries.length ≤ 1021 := by
    rw [← hlength]
    simp only [fits_value_iff, fits_flag_iff, fits_free_iff, fits_nil, and_true]
  have hhead : table.head.layout.Fits ↔ table.head.subject < 2 ^ 16 ∧
      table.head.version < 2 ^ 5 ∧ table.head.number < 2 ^ 8 ∧ table.head.lastNumber < 2 ^ 8 := by
    simp only [SectionHead.layout, fits_value_iff, fits_flag_iff, fits_free_iff, fits_nil, and_true]
  have hentry : ∀ entry : AssociationEntry,
      entry.layout.Fits ↔ entry.program < 2 ^ 16 ∧ entry.pid < 2 ^ 13 := by
    intro entry
    simp only [AssociationEntry.layout, fits_value_iff, fits_free_iff, fits_nil, and_true]
  have hcrc : Fits [.value 32 table.crc] ↔ table.crc < 2 ^ 32 := by
    simp only [fits_value_iff, fits_nil, and_true]
  rw [layout, fits_append_iff, hstart, body, fits_append_iff, fits_append_iff, fits_flatMap_iff,
    hhead, hcrc]
  simp only [hentry]
  constructor
  · rintro ⟨⟨hid, hroom⟩, ⟨⟨hsubject, hversion, hnumber, hlast⟩, hentries⟩, hcrc⟩
    exact ⟨⟨hid, hsubject, hversion, hnumber, hlast, hentries, hcrc⟩, hroom⟩
  · rintro ⟨⟨hid, hsubject, hversion, hnumber, hlast, hentries, hcrc⟩, hroom⟩
    exact ⟨⟨hid, hroom⟩, ⟨⟨hsubject, hversion, hnumber, hlast⟩, hentries⟩, hcrc⟩

/-- A program association table is decoded exactly from the bytes that have the form of its section.
Its fields are those at their places, its entries those at every fourth place behind the head, and
the PIDs of its programs those of the entries whose program is not zero. Written back, it gives the
same bytes up to the reserved bits. Every table of at most 1021 entries whose numbers fit their
fields is decoded from its bytes, whatever the reserved bits are and whatever follows. -/
theorem decodes_whole_entries :
    (∀ bytes,
      ((∃ table, decode bytes = .ok table) ↔ HasForm bytes) ∧
      ∀ table, decode bytes = .ok table →
        table = atPlaces bytes ∧
          table.layout.Spells (bytes.take (3 + lengthIn bytes)) ∧
          table.programPids =
            ((List.range (entryCountIn bytes)).filter fun i =>
              bytes.number (8 + 4 * i) (10 + 4 * i) ≠ 0).map fun i =>
                bytes.number (10 + 4 * i) (12 + 4 * i) % 2 ^ 13) ∧
    ∀ table : ProgramAssociation, table.FieldsFit → table.entries.length ≤ 1021 →
      (∃ encoded, table.layout.Writes encoded) ∧
        ∀ encoded, table.layout.Writes encoded →
          ∀ tail, decode (encoded ++ tail) = .ok table := by
  refine ⟨fun bytes => ⟨⟨?_, ?_⟩, ?_⟩, ?_⟩
  · rintro ⟨table, hdecode⟩
    exact (hasForm_of_decode hdecode).1
  · intro hform
    exact ⟨atPlaces bytes, hform.decode⟩
  · intro table hdecode
    obtain ⟨hform, rfl⟩ := hasForm_of_decode hdecode
    exact ⟨rfl, hform.spells, programPids_atPlaces bytes⟩
  · intro table hfields hcount
    have hfits : table.layout.Fits := fits_layout_iff.mpr ⟨hfields, hcount⟩
    constructor
    · exact exists_writes _ (undoes_decoder hfits []).whole
    · intro encoded hwrites tail
      exact (undoes_decoder hfits tail).decode hwrites

/-- A length that leaves some bytes of an entry between the head and the checksum is refused. -/
example :
    let table (length : UInt8) : Bytes := [0x00, 0xb0, length, 0x00, 0x01, 0xc1, 0x00, 0x00,
      0x00, 0x01, 0xe0, 0x20, 0, 0, 0, 0]
    [8, 9, 10, 11, 12, 13].map (fun length => (decode (table length)).isOk) =
      [false, true, false, false, false, true] := by
  decide +kernel

end ProgramAssociation

end TransportStream
