import TransportStream.Proofs.Bits.Decoding
import TransportStream.Proofs.Bits.Reading
import TransportStream.ProgramAssociation
import TransportStream.ProgramMap

/-!
# How many bits a decoder reads

A decoder that gives a value never goes back. Each item of a table takes some bits, so that there
are fewer bits ahead behind each item.
-/

namespace TransportStream

/-- Bits that are moved over are ahead no more. -/
theorem BitReader.available_advance (r : BitReader) (n : Nat) (h : n ≤ r.available) :
    (r.advance n h).available = r.available - n := by
  rw [← length_bits, bits_advance, List.length_drop, length_bits]

namespace Decoder

variable {α β : Type} {m n : Nat} {decoder : Decoder α} {next : α → Decoder β}
  {widths : List Nat}

/-- Whenever a decoder gives a value, it has read at least so many bits. -/
def Reads (n : Nat) (decoder : Decoder α) : Prop :=
  ∀ r a r', decoder r = .ok a r' → r'.available + n ≤ r.available

/-- A value can be given without reading. -/
theorem reads_pure (a : α) : Reads 0 (pure a : Decoder α) := by
  intro r b r' h
  cases h
  exact Nat.le_refl _

/-- No decoder goes back. -/
theorem Reads.zero (h : Reads n decoder) : Reads 0 decoder := by
  intro r a r' hread
  have := h r a r' hread
  omega

/-- What two decoders read adds up. -/
theorem Reads.bind (h : Reads m decoder) (hnext : ∀ a, Reads n (next a)) :
    Reads (m + n) (decoder >>= next) := by
  intro r b r'' hread
  obtain ⟨a, r', hfirst, hlater⟩ := bind_eq_ok.mp hread
  have := h r a r' hfirst
  have := hnext a r' b r'' hlater
  omega

/-- Moving over bits reads them. -/
theorem reads_consume (n : Nat) (value : BitReader → α) : Reads n (consume n value) := by
  intro r a r' h
  obtain ⟨_, hroom, _, rfl⟩ := consume_eq_ok.mp h
  rw [BitReader.available_advance]
  omega

/-- A number takes all of its bits. -/
theorem reads_bits (n : Nat) : Reads n (bits n) := by
  intro r a r' h
  unfold bits at h
  split at h
  case isTrue => cases h
  case isFalse => exact reads_consume n _ r a r' h

/-- Fields take as many bits as they have together. -/
theorem reads_fields (hpacked : PackedWidths widths) :
    Reads (totalWidth widths) (fields widths hpacked) :=
  (reads_bits _).bind fun _ => reads_pure _

/-- Bytes take eight bits each. -/
theorem reads_bytes (n : Nat) : Reads (8 * n) (bytes n) := by
  intro r a r' h
  exact reads_consume _ _ r a r' (bytes_eq_ok.mp h).2

/-- A check takes no bits of its own. -/
theorem reads_expectEq (fields : Fields widths) (i expected : Nat) (hi : i < widths.length) :
    Reads 0 (expectEq fields i expected hi) := by
  intro r a r' h
  unfold expectEq at h
  split at h
  case isTrue => exact reads_pure _ r a r' h
  case isFalse => cases h

/-- A result that is there already takes no bits. -/
theorem reads_ofExcept (result : Except DecodeError α) :
    Reads 0 (ofExcept result : Decoder α) := by
  intro r a r' h
  cases result with
  | ok b => exact reads_pure b r a r' h
  | error e => cases h

/-- A part takes its whole length, whatever is decoded from it. -/
theorem reads_within (n : Nat) (inner : Decoder α) : Reads (8 * n) (within n inner) :=
  (reads_bytes n).bind fun _ => reads_ofExcept _

/-- Counted bytes take at least their count. -/
theorem reads_countedBytes : Reads 8 countedBytes :=
  (reads_bits 8).bind fun n => (reads_bytes n).zero

section Repeated

variable {left : Nat} {r : BitReader}

/-- While enough bytes are ahead, an item is read, and then those behind it. -/
theorem repeated_of_lt (h : Reads n decoder) (hn : 0 < n) (hleft : left < r.remainingBytes) :
    repeated left decoder r = (do
      let a ← decoder
      let as ← repeated left decoder
      return a :: as) r := by
  rw [repeated, if_pos hleft]
  cases hread : decoder r with
  | ok a r' =>
    have hfewer : r'.available < r.available := by
      have := h r a r' hread
      omega
    rw [bind_of_ok hread]
    simp only [hfewer, if_true]
    cases hlater : repeated left decoder r' with
    | ok as r'' =>
      rw [bind_of_ok hlater]
      rfl
    | error e r'' => rw [bind_of_error hlater]
  | error e r' => rw [bind_of_error hread]

/-- Without more than `left` bytes ahead no item is read. -/
theorem repeated_of_not_lt (hleft : ¬ left < r.remainingBytes) :
    repeated left decoder r = .ok [] r := by
  rw [repeated, if_neg hleft]

end Repeated

end Decoder

open Decoder

/-- A PID takes two bytes, with the bits in front of it. -/
theorem reads_pidField : Reads 16 pidField := (reads_fields _).bind fun _ => reads_pure _

/-- The length of information takes two bytes, with the bits in front of it. -/
theorem reads_infoLength : Reads 16 infoLength :=
  (reads_fields _).bind fun f => (reads_expectEq f 1 0 _).bind fun _ => reads_pure _

/-- An entry takes four bytes. -/
theorem AssociationEntry.reads_decoder : Reads 32 AssociationEntry.decoder :=
  (reads_bits 16).bind fun _ => reads_pidField.bind fun _ => reads_pure _

/-- A descriptor takes at least its tag and its length. -/
theorem Descriptor.reads_decoder : Reads 16 Descriptor.decoder :=
  (reads_bits 8).bind fun _ => reads_countedBytes.bind fun _ => reads_pure _

/-- An elementary stream takes at least the five bytes in front of its descriptors. -/
theorem ElementaryStream.reads_decoder : Reads 40 ElementaryStream.decoder :=
  (reads_bits 8).bind fun _ => reads_pidField.bind fun _ => reads_infoLength.bind fun n =>
    ((reads_within n _).bind fun _ => reads_pure _).zero

end TransportStream
