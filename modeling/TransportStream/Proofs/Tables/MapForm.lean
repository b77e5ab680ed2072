import TransportStream.Proofs.Tables.Places

/-!
# The form of program map tables

Bytes are the section of a program map table if its length is right, and the bytes between the
descriptors of the program and the checksum are tiled by elementary streams, each of which is tiled
by descriptors. Exactly such bytes are decoded. Nothing is lost then, since the table written back
gives the same bytes up to the reserved bits.
-/

namespace TransportStream

open Decoder Layout

/-- A descriptor is a tag, a length and so many bytes. -/
inductive Descriptor.Form : Bytes → Descriptor → Prop
  /-- The length is that of the bytes behind it. -/
  | mk (tag length : UInt8) (data : Bytes) (hdata : data.length = length.toNat) :
      Form (tag :: length :: data) ⟨tag.toNat, data⟩

/-- An elementary stream is a type, a PID behind three reserved bits, a length behind four reserved
bits and two zeros, and so many bytes, which descriptors tile. -/
inductive ElementaryStream.Form : Bytes → ElementaryStream → Prop
  /-- The length is that of the bytes behind it, its bits above the tenth one being zeros. -/
  | mk (type : UInt8) (pid length info : Bytes) (descriptors : List Descriptor)
      (hpid : pid.length = 2) (hlength : length.length = 2)
      (hzeros : length.toNat / 2 ^ 10 % 2 ^ 2 = 0) (hinfo : info.length = length.toNat % 2 ^ 10)
      (htiled : Tiled Descriptor.Form info descriptors) :
      Form (type :: (pid ++ (length ++ info))) ⟨⟨type.toNat⟩, pid.toNat % 2 ^ 13, descriptors⟩

namespace ProgramMap

/-- The length that a section tells in its second and third byte. -/
def lengthIn (bytes : Bytes) : Nat := bytes.number 1 3 % 2 ^ 10

/-- The bytes that the length of a section counts. -/
def bodyIn (bytes : Bytes) : Bytes := bytes.extract 3 (3 + lengthIn bytes)

/-- The number of bytes with descriptors of the program. -/
def infoLengthIn (body : Bytes) : Nat := body.number 7 9 % 2 ^ 10

/-- The bytes that the length counts have room for the descriptors of the program and the checksum,
and elementary streams tile what is between these. -/
structure HasBody (body : Bytes) (streams : List ElementaryStream) : Prop where
  /-- There is room for the fields and the checksum. -/
  least : 13 ≤ body.length
  /-- The two bits above the length of the descriptors are zero. -/
  zeros : body.number 7 9 / 2 ^ 10 % 2 ^ 2 = 0
  /-- There is room for the descriptors, too. -/
  room : 9 + infoLengthIn body + 4 ≤ body.length
  /-- The bytes between the descriptors and the checksum are those of the streams. -/
  tiled : Tiled ElementaryStream.Form
    (body.extract (9 + infoLengthIn body) (body.length - 4)) streams

/-- Bytes begin with the section of a program map table that lists some elementary streams. -/
structure HasForm (bytes : Bytes) (streams : List ElementaryStream) : Prop where
  /-- The section is there as a whole. -/
  complete : 3 + lengthIn bytes ≤ bytes.length
  /-- The two bits above the length are zero. -/
  zeros : bytes.number 1 3 / 2 ^ 10 % 2 ^ 2 = 0
  /-- The streams are listed in the bytes that the length counts. -/
  body : HasBody (bodyIn bytes) streams

/-- The table with given streams whose other fields are those at their places in the bytes that the
length counts. -/
def bodyAtPlaces (tableId : Nat) (generalLayout : Bool) (body : Bytes)
    (streams : List ElementaryStream) : ProgramMap where
  head := .atPlaces tableId generalLayout body
  pcrPid := body.number 5 7 % 2 ^ 13
  programInfo := body.extract 9 (9 + infoLengthIn body)
  streams
  crc := body.number (body.length - 4) body.length

/-- The table with given streams whose other fields are those at their places in a section. -/
def atPlaces (bytes : Bytes) (streams : List ElementaryStream) : ProgramMap :=
  bodyAtPlaces (bytes.number 0 1) ((bytes.number 1 3).testBit 15) (bodyIn bytes) streams

end ProgramMap

/-- A descriptor is found in its tag, its length and the bytes that this counts. -/
theorem Descriptor.finds_decoder : Finds Descriptor.Form Descriptor.decoder := by
  intro s descriptor r h
  unfold Descriptor.decoder at h
  obtain ⟨tag, _, htag, h⟩ := bind_eq_ok.mp h
  obtain ⟨tag, s, rfl, rfl, rfl⟩ := exists_of_u8 htag
  obtain ⟨data, _, hdata, h⟩ := bind_eq_ok.mp h
  unfold countedBytes at hdata
  obtain ⟨length, _, hlength, hdata⟩ := bind_eq_ok.mp hdata
  obtain ⟨length, s, rfl, rfl, rfl⟩ := exists_of_u8 hlength
  obtain ⟨hroom, rfl, rfl⟩ := bytes_eq_ok_of_bytes.mp hdata
  cases h
  refine ⟨tag :: length :: s.take length.toNat, s.drop length.toNat, ?_, ?_, rfl⟩
  · rw [List.cons_append, List.cons_append, List.take_append_drop]
  · exact .mk tag length _ (List.length_take_of_le hroom)

/-- An elementary stream is found in five bytes and the descriptors behind them. -/
theorem ElementaryStream.finds_decoder :
    Finds ElementaryStream.Form ElementaryStream.decoder := by
  intro s stream r h
  unfold ElementaryStream.decoder at h
  obtain ⟨type, _, htype, h⟩ := bind_eq_ok.mp h
  obtain ⟨type, s, rfl, rfl, rfl⟩ := exists_of_u8 htype
  obtain ⟨pid, _, hpid, h⟩ := bind_eq_ok.mp h
  obtain ⟨hpidRoom, rfl, rfl⟩ := eq_of_pidField hpid
  obtain ⟨length, _, hlength, h⟩ := bind_eq_ok.mp h
  obtain ⟨hlengthRoom, hzeros, rfl, rfl⟩ := eq_of_infoLength hlength
  obtain ⟨descriptors, _, hinfo, h⟩ := bind_eq_ok.mp h
  obtain ⟨hroom, hdecode, rfl⟩ := within_eq_ok.mp hinfo
  cases h
  obtain ⟨_, hread⟩ := decode_eq_ok.mp hdecode
  obtain ⟨region, behind, hregion, htiled, hbehind, _⟩ :=
    Descriptor.finds_decoder.tiled Descriptor.reads_decoder (by decide) hread
  obtain rfl : behind = [] := List.eq_nil_of_length_eq_zero (Nat.le_zero.mp hbehind)
  rw [List.append_nil] at hregion
  subst hregion
  refine ⟨type :: (s.take 2 ++ ((s.drop 2).take 2 ++ _)), _, ?_, .mk type _ _ _ descriptors
    (List.length_take_of_le hpidRoom) (List.length_take_of_le hlengthRoom) hzeros
    (List.length_take_of_le hroom) htiled, rfl⟩
  rw [List.cons_append, List.append_assoc, List.append_assoc, List.take_append_drop,
    List.take_append_drop, List.take_append_drop]

namespace ProgramMap

/-- Reads the bytes that the length of a section counts. -/
def bodyDecoder (tableId : Nat) (generalLayout : Bool) : Decoder ProgramMap := do
  let head ← SectionHead.decoder tableId generalLayout
  let pcrPid ← pidField
  let programInfo ← bytes (← infoLength)
  let streams ← repeated checksumSize ElementaryStream.decoder
  let crc ← u32
  return { head, pcrPid, programInfo, streams, crc }

/-- A map table is read in three parts: its kind, its layout and length, and its body. -/
theorem decoder_eq : decoder = (do
    let tableId ← u8
    let f ← fields [1, 1, 2, 2, 10]
    expectEq f 3 0
    within (f.get 4) (bodyDecoder tableId (f.flag 0))) := rfl

variable {bytes body : Bytes} {tableId : Nat} {generalLayout : Bool} {table : ProgramMap}
  {streams : List ElementaryStream}

/-- What is read off the bytes that a length counts is at its places there. -/
theorem hasBody_of_decode (h : (bodyDecoder tableId generalLayout).decode body = .ok table) :
    HasBody body table.streams ∧ table = bodyAtPlaces tableId generalLayout body table.streams := by
  obtain ⟨_, h⟩ := decode_eq_ok.mp h
  unfold bodyDecoder at h
  obtain ⟨head, _, hhead, h⟩ := bind_eq_ok.mp h
  obtain ⟨_, rfl, rfl⟩ := SectionHead.eq_of_decoder hhead
  obtain ⟨pcrPid, _, hpcrPid, h⟩ := bind_eq_ok.mp h
  obtain ⟨_, rfl, rfl⟩ := eq_of_pidField hpcrPid
  obtain ⟨length, _, hlength, h⟩ := bind_eq_ok.mp h
  obtain ⟨hlengthRoom, hzeros, hinfoLength, rfl⟩ := eq_of_infoLength hlength
  obtain ⟨programInfo, _, hinfo, h⟩ := bind_eq_ok.mp h
  obtain ⟨hroom, rfl, rfl⟩ := bytes_eq_ok_of_bytes.mp hinfo
  simp only [List.drop_drop, List.length_drop] at hlengthRoom hzeros hinfoLength hroom h
  obtain rfl : length = infoLengthIn body := hinfoLength
  have hplaces : 5 + 2 + 2 + infoLengthIn body = 9 + infoLengthIn body := by omega
  rw [hplaces] at h
  obtain ⟨hchecked, streams, htiled, rfl⟩ := ElementaryStream.finds_decoder.checked
    ElementaryStream.reads_decoder (by decide) (by omega) h
  refine ⟨⟨by omega, hzeros, by omega, htiled⟩, ?_⟩
  rw [bodyAtPlaces, List.extract, Nat.add_sub_cancel_left]
  rfl

/-- The length is the last of the fields behind the first byte. -/
theorem get_length (bytes : Bytes) :
    (⟨bytes.number 1 3⟩ : Fields [1, 1, 2, 2, 10]).get 4 = lengthIn bytes := by
  rw [Fields.get_eq]
  exact congrArg (· % 2 ^ 10) (Nat.div_one _)

/-- What is decoded has the form of a section, and is at its places there. -/
theorem hasForm_of_decode (h : decode bytes = .ok table) :
    HasForm bytes table.streams ∧ table = atPlaces bytes table.streams := by
  rw [decode, decoder_eq] at h
  obtain ⟨_, h⟩ := decode_eq_ok.mp h
  obtain ⟨tableId, _, hid, h⟩ := bind_eq_ok.mp h
  obtain ⟨_, rfl, rfl⟩ := u8_eq_ok.mp hid
  obtain ⟨f, _, hfields, h⟩ := bind_eq_ok.mp h
  obtain ⟨hlengthRoom, rfl, rfl⟩ := (fields_eq_ok (k := 2) rfl).mp hfields
  obtain ⟨_, _, hexpect, h⟩ := bind_eq_ok.mp h
  obtain ⟨hzeros, rfl⟩ := expectEq_eq_ok.mp hexpect
  obtain ⟨hroom, hbody, _⟩ := within_eq_ok.mp h
  rw [Fields.get_eq] at hzeros
  have hlength : (⟨Bytes.toNat ((bytes.drop 1).take 2)⟩ : Fields [1, 1, 2, 2, 10]).get 4 =
      lengthIn bytes := get_length bytes
  have hin : ((bytes.drop 1).drop 2).take (lengthIn bytes) = bodyIn bytes := take_body _ _
  rw [hlength, Fields.flag_eq _ _ _ rfl] at hbody
  rw [hlength, List.length_drop, List.length_drop] at hroom
  rw [List.length_drop] at hlengthRoom
  rw [hin] at hbody
  obtain ⟨hform, hplaces⟩ := hasBody_of_decode hbody
  exact ⟨⟨by omega, hzeros, hform⟩, hplaces⟩

/-- A length of ten bits with two zeros above it, and the layout of a section. -/
theorem spells_length (h : bytes.length = 2) (hzeros : bytes.toNat / 2 ^ 10 % 2 ^ 2 = 0) :
    Spells [flag (bytes.toNat.testBit 15), .free 1, .free 2, .value 2 0,
      .value 10 (bytes.toNat % 2 ^ 10)] bytes := by
  refine spells_of_agrees (by simp [h, flag]) ?_
  rintro (_ | _ | _ | _ | _ | i) hi width n hpiece
  · cases hpiece
    rw [Fields.get_eq, toNat_testBit]
    rfl
  · cases hpiece
  · cases hpiece
  · cases hpiece
    rw [Fields.get_eq]
    exact hzeros
  · cases hpiece
    rw [Fields.get_eq]
    exact congrArg (· % 2 ^ 10) (Nat.div_one _)
  · simp at hpiece

end ProgramMap

/-- The bytes of a descriptor are those of its layout. -/
theorem Descriptor.Form.spells {bytes : Bytes} {descriptor : Descriptor}
    (h : Form bytes descriptor) : descriptor.layout.Spells bytes := by
  cases h with
  | mk tag length data hdata =>
    have htag : Spells [.value 8 tag.toNat] [tag] := spells_byte tag
    have hlength : Spells [.value 8 data.length] [length] := hdata ▸ spells_byte length
    exact htag.append (hlength.append (spells_ofBytes data))

/-- The bytes of an elementary stream are those of its layout. -/
theorem ElementaryStream.Form.spells {bytes : Bytes} {stream : ElementaryStream}
    (h : Form bytes stream) : stream.layout.Spells bytes := by
  cases h with
  | mk type pid length info descriptors hpid hlength hzeros hinfo htiled =>
    have hdescriptors := htiled.spells fun _ _ => Descriptor.Form.spells
    have hsize : Layout.size (descriptors.flatMap Descriptor.layout) / 8 =
        length.toNat % 2 ^ 10 := by
      rw [← hdescriptors.writes.length_eq, Nat.mul_div_cancel_left _ (by decide), hinfo]
    rw [ElementaryStream.layout, ElementaryStream.info, hsize, List.append_assoc]
    exact (spells_byte type).append ((spells_pid hpid).append
      ((spells_infoLength hlength hzeros).append hdescriptors))

namespace ProgramMap

variable {bytes body : Bytes} {tableId : Nat} {generalLayout : Bool} {table : ProgramMap}
  {streams : List ElementaryStream}

/-- The bytes that the length counts are written as they are read. -/
theorem HasBody.spells (h : HasBody body streams) (tableId : Nat) (generalLayout : Bool) :
    (bodyAtPlaces tableId generalLayout body streams).body.Spells body := by
  have hleast := h.least
  have hroom := h.room
  have hhead : (SectionHead.atPlaces tableId generalLayout body).layout.Spells
      (body.extract 0 5) := SectionHead.spells_atPlaces _ _ (by omega)
  have hpcrPid := spells_pid (length_extract (by omega) : (body.extract 5 7).length = 7 - 5)
  have hinfoLength :=
    spells_infoLength (length_extract (by omega) : (body.extract 7 9).length = 9 - 7) h.zeros
  have hinfo := spells_ofBytes (body.extract 9 (9 + infoLengthIn body))
  have hstreams := h.tiled.spells fun _ _ => ElementaryStream.Form.spells
  have hcrc : Spells [.value 32 (body.number (body.length - 4) body.length)]
      (body.extract (body.length - 4) body.length) :=
    spells_number_at (Nat.le_refl _) (by omega)
  have hsplit : body.extract 0 5 ++ body.extract 5 7 ++ body.extract 7 9 ++
      body.extract 9 (9 + infoLengthIn body) ++
      body.extract (9 + infoLengthIn body) (body.length - 4) ++
      body.extract (body.length - 4) body.length = body := by
    rw [extract_append_extract _ (by omega) (by omega),
      extract_append_extract _ (by omega) (by omega),
      extract_append_extract _ (by omega) (by omega),
      extract_append_extract _ (by omega) (by omega),
      extract_append_extract _ (by omega) (by omega)]
    exact List.take_length
  have hwhole := ((((hhead.append hpcrPid).append hinfoLength).append hinfo).append
    hstreams).append hcrc
  rw [hsplit] at hwhole
  have hlength : (body.extract 9 (9 + infoLengthIn body)).length = infoLengthIn body := by
    rw [length_extract (by omega), Nat.add_sub_cancel_left]
  rw [ProgramMap.body, bodyAtPlaces, hlength]
  exact hwhole

/-- A section is written as it is read. -/
theorem HasForm.spells (h : HasForm bytes streams) :
    (atPlaces bytes streams).layout.Spells (bytes.take (3 + lengthIn bytes)) := by
  have hcomplete := h.complete
  have hid : Spells [.value 8 (bytes.number 0 1)] (bytes.extract 0 1) :=
    spells_number_at (by omega) rfl
  have hlength := spells_length (length_extract (by omega) : (bytes.extract 1 3).length = 3 - 1)
    h.zeros
  have hbody := h.body.spells (bytes.number 0 1) ((bytes.number 1 3).testBit 15)
  have hsize : (atPlaces bytes streams).body.size / 8 = lengthIn bytes := by
    rw [atPlaces, ← hbody.writes.length_eq, Nat.mul_div_cancel_left _ (by decide), bodyIn,
      length_extract hcomplete, Nat.add_sub_cancel_left]
  rw [take_section, ProgramMap.layout, hsize]
  exact hid.append (hlength.append hbody)

/-- Bytes of the form of a section are decoded. -/
theorem HasForm.decode (h : HasForm bytes streams) :
    ProgramMap.decode bytes = .ok (atPlaces bytes streams) := by
  obtain ⟨hfits, hwrites⟩ := h.spells
  exact (undoes_decoder hfits _).decode_of_take hwrites

/-- A program map table is decoded exactly from the bytes that have the form of its section. Its
fields are those at their places, and its streams and descriptors those that tile the rest. Written
back, it gives the same bytes up to the reserved bits. Whatever table can be written is decoded
from its bytes, whatever the reserved bits are and whatever follows. -/
theorem decodes_exactly_its_form :
    (∀ bytes,
      ((∃ table, decode bytes = .ok table) ↔ ∃ streams, HasForm bytes streams) ∧
      ∀ table, decode bytes = .ok table →
        HasForm bytes table.streams ∧ table = atPlaces bytes table.streams ∧
          table.layout.Spells (bytes.take (3 + lengthIn bytes))) ∧
    ∀ table : ProgramMap, table.layout.Fits →
      (∃ encoded, table.layout.Writes encoded) ∧
        ∀ encoded, table.layout.Writes encoded →
          ∀ tail, decode (encoded ++ tail) = .ok table := by
  refine ⟨fun bytes => ⟨⟨?_, ?_⟩, ?_⟩, ?_⟩
  · rintro ⟨table, hdecode⟩
    exact ⟨table.streams, (hasForm_of_decode hdecode).1⟩
  · rintro ⟨streams, hform⟩
    exact ⟨atPlaces bytes streams, hform.decode⟩
  · intro table hdecode
    obtain ⟨hform, hplaces⟩ := hasForm_of_decode hdecode
    refine ⟨hform, hplaces, ?_⟩
    rw [hplaces]
    exact hform.spells
  · intro table hfits
    refine ⟨exists_writes _ (undoes_decoder hfits []).whole, ?_⟩
    intro encoded hwrites tail
    exact (undoes_decoder hfits tail).decode hwrites

/-- The descriptors of a stream may fill the bytes up to the checksum, and not reach into it. -/
example :
    let listing (infoLength : UInt8) : Bytes := [0x02, 0xb0, 0x14, 0x00, 0x01, 0xc1, 0x00, 0x00,
      0xe0, 0x41, 0xf0, 0x00, 0x1b, 0xe0, 0x41, 0xf0, infoLength, 0x52, 0x00, 0, 0, 0, 0]
    [0, 1, 2, 4].map (fun infoLength => (decode (listing infoLength)).isOk) =
      [false, false, true, false] := by
  decide +kernel

end ProgramMap

end TransportStream
