import TransportStream.Layout.Tables
import TransportStream.Proofs.Layout.Undoing
import TransportStream.Section

/-!
# Reading written tables

A program association table or a program map table is read off its layout, whatever its
reserved bits are, and a payload that points at such a section gives its table.
-/

namespace TransportStream

open Layout Decoder

/-- The head of a section is read as it was written, whatever its reserved bits are. -/
theorem SectionHead.undoes_decoder {head : SectionHead} (hfits : head.layout.Fits) (tail : Bytes) :
    Undoes (SectionHead.decoder head.tableId head.generalLayout) head.layout head tail := by
  have hlayout : head.layout = [.value 16 head.subject] ++
      ([.free 2, .value 5 head.version, flag head.current] ++
        ([.value 8 head.number] ++ ([.value 8 head.lastNumber] ++ []))) := rfl
  rw [hlayout] at hfits ⊢
  simp only [fits_append_iff] at hfits
  obtain ⟨hsubject, hstate, hnumber, hlast, _⟩ := hfits
  refine .bind (undoes_u16 (hsubject _ List.mem_cons_self)) ?_
  refine undoes_fields_bind (by rfl) hstate fun f hf => ?_
  rw [hf 1 (by decide) 5 _ rfl, hf.flag 2 (by decide) _ rfl]
  refine .bind (undoes_u8 (hnumber _ List.mem_cons_self)) ?_
  refine .bind (undoes_u8 (hlast _ List.mem_cons_self)) ?_
  exact undoes_pure head tail

/-- A PID behind three reserved bits. -/
theorem undoes_pidField {pid : Nat} (hfits : Fits [.free 3, .value 13 pid]) (tail : Bytes) :
    Undoes pidField [.free 3, .value 13 pid] pid tail := by
  unfold pidField
  exact undoes_fields (by rfl) hfits fun f hf => hf 1 (by decide) 13 pid rfl

/-- An entry takes some bits. -/
theorem AssociationEntry.size_layout_pos (entry : AssociationEntry) : 0 < entry.layout.size := by
  rw [AssociationEntry.layout, size_value]
  omega

/-- An entry is read as it was written, whatever its reserved bits are. -/
theorem AssociationEntry.undoes_decoder {entry : AssociationEntry} (hfits : entry.layout.Fits)
    (tail : Bytes) : Undoes AssociationEntry.decoder entry.layout entry tail := by
  have hlayout : entry.layout =
      [.value 16 entry.program] ++ ([.free 3, .value 13 entry.pid] ++ []) := rfl
  rw [hlayout] at hfits ⊢
  simp only [fits_append_iff] at hfits
  refine .bind (undoes_u16 (hfits.1 _ List.mem_cons_self)) ?_
  refine .bind (undoes_pidField hfits.2.1) ?_
  exact undoes_pure entry tail

/-- Items up to the checksum, and the checksum. -/
theorem undoes_checked {α β : Type} {items : List α} {parts : α → Layout} {decoder : Decoder α}
    (hparts : ∀ item ∈ items, ∀ tail, Undoes decoder (parts item) item tail)
    (hsize : ∀ item ∈ items, 0 < (parts item).size) {crc : Nat} (hcrc : crc < 2 ^ 32)
    {value : List α → Nat → β} {b : β} (hvalue : value items crc = b) :
    Undoes (do
      let items ← repeated checksumSize decoder
      let crc ← u32
      return value items crc) (items.flatMap parts ++ [.value 32 crc]) b [] := by
  subst hvalue
  have hwhole := (undoes_repeated hparts hsize []).whole
  refine Undoes.bind_of_writes (a := items) hwhole (fun bytes hbytes => ?_) ?_
  · have hlength : (bytes ++ []).length = checksumSize := by
      have hsize := hbytes.length_eq
      rw [size_value, size_nil] at hsize
      rw [List.append_nil, checksumSize]
      omega
    rw [← hlength]
    exact undoes_repeated hparts hsize _
  · rw [← List.append_nil [_]]
    exact .bind (undoes_u32 hcrc) (undoes_pure _ [])

namespace ProgramAssociation

/-- A program association table. -/
theorem undoes_decoder {table : ProgramAssociation} (hfits : table.layout.Fits) (tail : Bytes) :
    Undoes ProgramAssociation.decoder table.layout table tail := by
  have hlayout : table.layout = [.value 8 table.head.tableId] ++
      ([flag table.head.generalLayout, .free 1, .free 2, .value 12 (table.body.size / 8)] ++
        table.body) := rfl
  rw [hlayout] at hfits ⊢
  rw [fits_append_iff, fits_append_iff] at hfits
  obtain ⟨hid, hlength, hbody⟩ := hfits
  refine .bind (undoes_u8 (hid _ List.mem_cons_self)) ?_
  refine undoes_fields_bind (by rfl) hlength fun f hf => ?_
  rw [hf.flag 0 (by decide) _ rfl, hf 3 (by decide) 12 _ rfl]
  refine undoes_within_size ?_ tail
  unfold body at hbody ⊢
  rw [List.append_assoc] at hbody ⊢
  simp only [fits_append_iff, fits_flatMap_iff] at hbody
  obtain ⟨hhead, hentries, hcrc⟩ := hbody
  refine .bind (fun _ => SectionHead.undoes_decoder hhead _) ?_
  exact undoes_checked
    (fun entry hentry => AssociationEntry.undoes_decoder (hentries entry hentry))
    (fun entry _ => entry.size_layout_pos) (hcrc _ List.mem_cons_self) (by rfl)

end ProgramAssociation

/-- A descriptor takes some bits, even without data. -/
theorem Descriptor.size_layout_pos (descriptor : Descriptor) : 0 < descriptor.layout.size := by
  rw [Descriptor.layout, List.cons_append, size_value]
  omega

/-- A descriptor is read as it was written. -/
theorem Descriptor.undoes_decoder {descriptor : Descriptor} (hfits : descriptor.layout.Fits)
    (tail : Bytes) : Undoes Descriptor.decoder descriptor.layout descriptor tail := by
  have hlayout : descriptor.layout = [.value 8 descriptor.tag] ++
      ((.value 8 descriptor.data.length :: ofBytes descriptor.data) ++ []) := by
    rw [List.append_nil]
    rfl
  rw [hlayout] at hfits ⊢
  rw [fits_append_iff, fits_append_iff] at hfits
  refine .bind (undoes_u8 (hfits.1 _ List.mem_cons_self)) ?_
  refine .bind (undoes_countedBytes (hfits.2.1 _ List.mem_cons_self)) ?_
  exact undoes_pure descriptor tail

/-- The length of information is read as it was written, whatever its reserved bits are. -/
theorem undoes_infoLength {n : Nat} (hfits : (ofInfoLength n).Fits) (tail : Bytes) :
    Undoes infoLength (ofInfoLength n) n tail := by
  rw [← List.append_nil (ofInfoLength n)]
  refine undoes_fields_bind (by rfl) hfits fun f hf => ?_
  rw [expectEq, hf 1 (by decide) 2 _ rfl, if_pos rfl, hf 2 (by decide) 10 _ rfl]
  exact undoes_pure n tail

/-- An elementary stream takes some bits, even without descriptors. -/
theorem ElementaryStream.size_layout_pos (stream : ElementaryStream) : 0 < stream.layout.size := by
  rw [ElementaryStream.layout, List.cons_append, List.cons_append, size_value]
  omega

/-- An elementary stream is read as it was written, with all of its descriptors. -/
theorem ElementaryStream.undoes_decoder {stream : ElementaryStream} (hfits : stream.layout.Fits)
    (tail : Bytes) : Undoes ElementaryStream.decoder stream.layout stream tail := by
  have hlayout : stream.layout = [.value 8 stream.type.code] ++
      ([.free 3, .value 13 stream.pid] ++
        (ofInfoLength (stream.info.size / 8) ++ (stream.info ++ []))) := by
    rw [List.append_nil]
    rfl
  rw [hlayout] at hfits ⊢
  simp only [fits_append_iff, info, fits_flatMap_iff] at hfits
  obtain ⟨htype, hpid, hlength, hinfo, _⟩ := hfits
  refine .bind (undoes_u8 (htype _ List.mem_cons_self)) ?_
  refine .bind (undoes_pidField hpid) ?_
  refine .bind (undoes_infoLength hlength) ?_
  refine .bind (undoes_within_size ?_) (undoes_pure stream tail)
  exact undoes_repeated (fun descriptor hd => descriptor.undoes_decoder (hinfo descriptor hd))
    (fun descriptor _ => descriptor.size_layout_pos) []

namespace ProgramMap

/-- A program map table. -/
theorem undoes_decoder {table : ProgramMap} (hfits : table.layout.Fits) (tail : Bytes) :
    Undoes ProgramMap.decoder table.layout table tail := by
  have hlayout : table.layout = [.value 8 table.head.tableId] ++
      ([flag table.head.generalLayout, .free 1, .free 2, .value 2 0,
        .value 10 (table.body.size / 8)] ++ table.body) := rfl
  rw [hlayout] at hfits ⊢
  rw [fits_append_iff, fits_append_iff] at hfits
  obtain ⟨hid, hlength, hbody⟩ := hfits
  refine .bind (undoes_u8 (hid _ List.mem_cons_self)) ?_
  refine undoes_fields_bind (by rfl) hlength fun f hf => ?_
  rw [expectEq, hf 3 (by decide) 2 _ rfl, if_pos rfl, hf.flag 0 (by decide) _ rfl,
    hf 4 (by decide) 10 _ rfl]
  refine undoes_within_size ?_ tail
  unfold body at hbody ⊢
  simp only [List.append_assoc] at hbody ⊢
  simp only [fits_append_iff, fits_flatMap_iff] at hbody
  obtain ⟨hhead, hclock, hinfo, _, hstreams, hcrc⟩ := hbody
  refine .bind (fun _ => SectionHead.undoes_decoder hhead _) ?_
  refine .bind (undoes_pidField hclock) ?_
  refine .bind (undoes_infoLength hinfo) ?_
  refine .bind (undoes_bytes table.programInfo) ?_
  exact undoes_checked
    (fun stream hstream => ElementaryStream.undoes_decoder (hstreams stream hstream))
    (fun stream _ => stream.size_layout_pos) (hcrc _ List.mem_cons_self) (by rfl)

end ProgramMap

namespace Section

/-- A payload points with its first byte at a section that is written in a layout. -/
def PointedAt (payload : Bytes) (layout : Layout) : Prop :=
  ∃ (pointer : UInt8) (filler bytes behind : Bytes),
    payload = pointer :: (filler ++ (bytes ++ behind)) ∧ filler.length = pointer.toNat ∧
      layout.Writes bytes

/-- Reads a section of one kind of table, from its first byte on. -/
def tableDecoder : TableKind → Decoder Section
  | .association => Section.association <$> ProgramAssociation.decoder
  | .map => Section.map <$> ProgramMap.decoder

/-- The pointer of a payload leads to what is behind the filler. -/
theorem countedBytes_pointer {pointer : UInt8} {filler : Bytes}
    (h : filler.length = pointer.toNat) (rest : Bytes) :
    countedBytes (.ofBytes (pointer :: (filler ++ rest))) = .ok filler (.ofBytes rest) := by
  have hbits : bitsToNat (Bytes.bits [pointer]) = filler.length := by
    rw [Bytes.bitsToNat_bits, h]
    simp [Bytes.toNat]
  have hlength : 8 * [pointer].length = 8 := rfl
  have hpointer : u8 (.ofBytes ([pointer] ++ (filler ++ rest))) = _ :=
    bits_ofBytes (by decide) hlength (filler ++ rest)
  rw [hbits] at hpointer
  rw [countedBytes, ← List.singleton_append, bind_of_ok hpointer, bytes_ofBytes]

/-- Behind its pointer and the filler, a payload is read by the first byte that it points at. -/
theorem decode_pointer (kind : TableKind) {pointer : UInt8} {filler : Bytes}
    (h : filler.length = pointer.toNat) (found : Bytes) :
    (Section.decoder kind).decode (pointer :: (filler ++ found)) =
      match (found.head?.map (·.toNat)).filter (· ≠ kind.id) with
      | some tableId => .ok (.other tableId)
      | none => (tableDecoder kind).decode found := by
  have hrest : rest (.ofBytes found) = .ok found (.ofBytes found) := rfl
  rw [Section.decoder, decode_bind_of_ok (countedBytes_pointer h found), decode_bind_of_ok hrest]
  dsimp only
  cases (found.head?.map (·.toNat)).filter (· ≠ kind.id) with
  | some tableId => rfl
  | none => cases kind <;> rfl

/-- A section of the expected kind of table is read as this kind. -/
theorem decode_of_head (kind : TableKind) {pointer : UInt8} {filler found : Bytes}
    (h : filler.length = pointer.toNat) (hhead : found.head?.map (·.toNat) = some kind.id) :
    (Section.decoder kind).decode (pointer :: (filler ++ found)) =
      (tableDecoder kind).decode found := by
  have hnone : (some kind.id).filter (· ≠ kind.id) = none := by simp
  rw [decode_pointer kind h, hhead, hnone]

/-- A section of another kind of table is not read any further. -/
theorem decode_of_other (kind : TableKind) {pointer : UInt8} {filler found : Bytes}
    {tableId : Nat} (h : filler.length = pointer.toNat)
    (hhead : found.head?.map (·.toNat) = some tableId) (hother : tableId ≠ kind.id) :
    (Section.decoder kind).decode (pointer :: (filler ++ found)) = .ok (.other tableId) := by
  have hsome : (some tableId).filter (· ≠ kind.id) = some tableId := by simp [hother]
  rw [decode_pointer kind h, hhead, hsome]

/-- What a payload points at is read as the expected kind of table if it is of this kind. -/
theorem decode_of_pointedAt {kind : TableKind} {layout : Layout} {payload : Bytes}
    {found : Section} (hpayload : PointedAt payload (.value 8 kind.id :: layout))
    (hfound : ∀ tail, Undoes (tableDecoder kind) (.value 8 kind.id :: layout) found tail) :
    (Section.decoder kind).decode payload = .ok found := by
  obtain ⟨pointer, filler, bytes, behind, rfl, hfiller, hbytes⟩ := hpayload
  have hid : kind.id < 2 ^ 8 := by cases kind <;> decide
  -- The first byte of the section is the kind of its table.
  have hhead : (bytes ++ behind).head?.map (·.toNat) = some kind.id := by
    have hsplit : Layout.Writes ([.value 8 kind.id] ++ layout) bytes := hbytes
    obtain ⟨_, _, rfl, hfirst, _⟩ := hsplit.split ⟨1, rfl⟩
    obtain ⟨byte, rfl, hbyte⟩ := eq_byte_of_writes hid hfirst
    simp [hbyte]
  rw [decode_of_head kind hfiller hhead]
  exact (hfound behind).decode hbytes

/-- A payload that points at a program association table gives it. -/
theorem decode_association {table : ProgramAssociation} {payload : Bytes}
    (hid : table.head.tableId = associationTableId) (hfits : table.layout.Fits)
    (hpayload : PointedAt payload table.layout) :
    (Section.decoder .association).decode payload = .ok (.association table) := by
  have hread := fun tail => (ProgramAssociation.undoes_decoder hfits tail).map Section.association
  rw [ProgramAssociation.layout, hid] at hpayload hread
  exact decode_of_pointedAt hpayload hread

/-- A payload that points at a program map table gives it. -/
theorem decode_map {table : ProgramMap} {payload : Bytes}
    (hid : table.head.tableId = mapTableId) (hfits : table.layout.Fits)
    (hpayload : PointedAt payload table.layout) :
    (Section.decoder .map).decode payload = .ok (.map table) := by
  have hread := fun tail => (ProgramMap.undoes_decoder hfits tail).map Section.map
  rw [ProgramMap.layout, hid] at hpayload hread
  exact decode_of_pointedAt hpayload hread

end Section

end TransportStream
