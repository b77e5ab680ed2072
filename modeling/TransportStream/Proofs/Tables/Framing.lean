import TransportStream.Proofs.Bits.Framing
import TransportStream.Proofs.Tables.AssociationForm
import TransportStream.Proofs.Tables.MapForm

/-!
# Sections are frames

A section tells its length behind its first byte. Whatever is in the bytes that the length counts,
the reader stands behind them afterwards, and bytes behind a section do not matter to it. So a bad
section does not keep the one behind it from being read.
-/

namespace TransportStream

open Decoder

namespace TableKind

/-- The number of bytes of a section, up to the end of those that its length counts. -/
def sizeIn : TableKind → Bytes → Nat
  | association, bytes => 3 + ProgramAssociation.lengthIn bytes
  | map, bytes => 3 + ProgramMap.lengthIn bytes

/-- Bytes begin with a complete section: those that its length counts are there. Above the length of
a program map table there are two zeros. -/
structure Complete (kind : TableKind) (bytes : Bytes) : Prop where
  /-- The bytes are there. -/
  room : kind.sizeIn bytes ≤ bytes.length
  /-- The bits above the length are zero. -/
  zeros : kind = map → bytes.number 1 3 / 2 ^ 10 % 2 ^ 2 = 0

end TableKind

/-- The bytes that the length of a program association table counts are a frame. -/
theorem ProgramAssociation.frames_decoder :
    Frames TableKind.association.Complete TableKind.association.sizeIn decoder := by
  have hlength : ∀ s, (fieldsIn [1, 1, 2, 12] s).get 3 = lengthIn s := get_length
  have hdecoder : decoder = counted [1, 1, 2, 12] (by decide) (fun _ => pure ()) (·.get 3)
      fun tableId f => bodyDecoder tableId (f.flag 0) := rfl
  rw [hdecoder]
  refine (frames_counted rfl checks_pure).congr (fun s => ?_) (fun s => ?_)
  · rw [hlength]
    exact ⟨fun h => ⟨h.1, fun hkind => nomatch hkind⟩, fun h => ⟨h.room, trivial⟩⟩
  · rw [hlength]
    rfl

/-- So are the bytes that the length of a program map table counts, if there are zeros above it. -/
theorem ProgramMap.frames_decoder :
    Frames TableKind.map.Complete TableKind.map.sizeIn decoder := by
  have hlength : ∀ s, (fieldsIn [1, 1, 2, 2, 10] s).get 4 = lengthIn s := get_length
  have hzeros : ∀ s, (fieldsIn [1, 1, 2, 2, 10] s).get 3 = s.number 1 3 / 2 ^ 10 % 2 ^ 2 :=
    fun s => Fields.get_eq _ _ _
  have hdecoder : decoder = counted [1, 1, 2, 2, 10] (by decide) (expectEq · 3 0) (·.get 4)
      fun tableId f => bodyDecoder tableId (f.flag 0) := rfl
  rw [hdecoder]
  refine (frames_counted rfl (checks_expectEq 3 0 (by decide))).congr (fun s => ?_) (fun s => ?_)
  · rw [hlength, hzeros]
    exact ⟨fun h => ⟨h.1, fun _ => h.2⟩, fun h => ⟨h.room, h.zeros rfl⟩⟩
  · rw [hlength]
    rfl

/-- A section of either kind is a frame. -/
theorem Section.frames_tableDecoder (kind : TableKind) :
    Frames kind.Complete kind.sizeIn (tableDecoder kind) := by
  cases kind with
  | association => exact ProgramAssociation.frames_decoder.map _
  | map => exact ProgramMap.frames_decoder.map _

/-- Whatever a section holds, a reader at a byte boundary stands behind it once it was read, whether
a table was decoded or an error reported, and the result is that of the section alone. Without a
complete section the result is an error, and the reader fails. So bytes behind a section do not
matter, and sections that follow each other are read one after the other, even if some of them are
bad. -/
theorem sections_are_framed :
    Frames TableKind.association.Complete TableKind.association.sizeIn ProgramAssociation.decoder ∧
    Frames TableKind.map.Complete TableKind.map.sizeIn ProgramMap.decoder ∧
    (∀ found behind, TableKind.association.Complete found →
      ProgramAssociation.decode (found ++ behind) = ProgramAssociation.decode found) ∧
    (∀ found behind, TableKind.map.Complete found →
      ProgramMap.decode (found ++ behind) = ProgramMap.decode found) ∧
    ∀ (sections : List (TableKind × Bytes)) (behind : Bytes),
      (∀ s ∈ sections, s.1.Complete s.2 ∧ s.2.length = s.1.sizeIn s.2) →
        inTurn (sections.map fun s => Section.tableDecoder s.1)
            (.ofBytes (sections.flatMap (·.2) ++ behind)) =
          (sections.map fun s => (Section.tableDecoder s.1).decode s.2, .ofBytes behind) := by
  refine ⟨ProgramAssociation.frames_decoder, ProgramMap.frames_decoder, ?_, ?_, ?_⟩
  · exact fun found behind h => ProgramAssociation.frames_decoder.decode_append h.room behind
  · exact fun found behind h => ProgramMap.frames_decoder.decode_append h.room behind
  · exact fun sections behind h => inTurn_of_frames Section.frames_tableDecoder sections h behind

/-- A section that counts too few bytes for a table does not keep the next one from being read. -/
example :
    let bad : Bytes := [0, 0xb0, 1, 0xff]
    let good : Bytes := [0, 0xb0, 9, 0, 1, 0xc1, 0, 0, 1, 2, 3, 4]
    (inTurn [ProgramAssociation.decoder, ProgramAssociation.decoder] (.ofBytes (bad ++ good))).1.map
      (·.toOption.map (·.crc)) = [none, some 0x01020304] := by
  decide +kernel

end TransportStream
