import TransportStream.Layout.AdaptationField
import TransportStream.Proofs.Layout.Spelling
import TransportStream.Proofs.Layout.Undoing

/-!
# Reading written adaptation fields

An adaptation field that can be written is read off its layout, whatever its reserved bits
and its stuffing are. It can be written if its numbers fit their fields, and its length counts
its parts and any stuffing behind them.
-/

namespace TransportStream

open Layout Decoder

/-- A part that may be missing fits if it is missing or fits. -/
theorem Layout.fits_ofOption_iff {α : Type} {part : Option α} {parts : α → Layout} :
    Fits (ofOption parts part) ↔ ∀ a ∈ part, (parts a).Fits := by
  cases part <;> simp [ofOption, Fits]

/-- A part that may be missing takes its bytes if it is there. -/
theorem Layout.size_ofOption {α : Type} {part : Option α} {parts : α → Layout} (byteCount : α → Nat)
    (h : ∀ a ∈ part, (parts a).size = 8 * byteCount a) :
    (ofOption parts part).size = 8 * part.elim 0 byteCount := by
  cases part with
  | none => rfl
  | some a => exact h a rfl

/-- A part that may be missing fills whole units if it does where it is there. -/
theorem Layout.dvd_size_ofOption {α : Type} {n : Nat} {part : Option α} {parts : α → Layout}
    (h : ∀ a ∈ part, n ∣ (parts a).size) : n ∣ (ofOption parts part).size := by
  cases part with
  | none => exact Nat.dvd_zero n
  | some a => exact h a rfl

namespace Decoder

/-- A program clock reference is read as it was written, whatever its reserved bits are. -/
theorem undoes_programClock {clock : ClockReference} (hfits : Fits (ofProgramClock clock))
    (tail : Bytes) : Undoes programClock (ofProgramClock clock) clock tail := by
  unfold programClock
  refine undoes_fields (by rfl) hfits fun f hf => ?_
  rw [hf 0 (by decide) 33 clock.base rfl, hf 2 (by decide) 9 clock.extension rfl]

/-- Only its high part can keep a time stamp from fitting. -/
theorem fits_ofTimestamp_iff {t : Nat} : Fits (ofTimestamp t) ↔ t < 2 ^ 33 := by
  have hhigh : Fits (ofTimestamp t) ↔
      t / 2 ^ 30 < 2 ^ 3 ∧ t / 2 ^ 15 % 2 ^ 15 < 2 ^ 15 ∧ t % 2 ^ 15 < 2 ^ 15 := by
    simp only [ofTimestamp, fits_value_iff, fits_free_iff, fits_nil, and_true]
  rw [hhigh]
  omega

/-- A time stamp that fits is joined from its three parts. -/
theorem timestamp_of_fits {t : Nat} (hfits : Fits (ofTimestamp t)) :
    timestamp (t / 2 ^ 30) (t / 2 ^ 15 % 2 ^ 15) (t % 2 ^ 15) = t := by
  have ht := fits_ofTimestamp_iff.mp hfits
  unfold timestamp
  omega

/-- Four bits and a time stamp. -/
theorem undoes_nibbleAndTimestamp {nibble t : Nat}
    (hfits : Fits (.value 4 nibble :: ofTimestamp t)) (tail : Bytes) :
    Undoes nibbleAndTimestamp (.value 4 nibble :: ofTimestamp t) (nibble, t) tail := by
  unfold nibbleAndTimestamp
  refine undoes_fields (by rfl) hfits fun f hf => ?_
  rw [hf 0 (by decide) 4 nibble rfl, hf 1 (by decide) 3 _ rfl, hf 3 (by decide) 15 _ rfl,
    hf 5 (by decide) 15 _ rfl, timestamp_of_fits (fits_value_iff.mp hfits).2]

/-- A signed number in two's complement. -/
theorem undoes_i8 {n : Int} (hlower : -128 ≤ n) (hupper : n < 128) (tail : Bytes) :
    Undoes i8 [.value 8 (n % 256).toNat] n tail := by
  rw [← List.append_nil [_]]
  refine .bind (undoes_u8 (by omega)) ?_
  have hsigned : (Int.ofNat (n % 256).toNat).bmod 256 = n := by
    rw [Int.ofNat_eq_natCast, Int.toNat_of_nonneg (Int.emod_nonneg n (by decide)), Int.bmod_def]
    split <;> omega
  rw [hsigned]
  exact undoes_pure n tail

end Decoder

/-- A legal time window is read as it was written. -/
theorem TimeWindow.undoes_decoder {window : TimeWindow} (hfits : window.layout.Fits)
    (tail : Bytes) : Undoes TimeWindow.decoder window.layout window tail := by
  unfold TimeWindow.decoder
  refine undoes_fields (by rfl) hfits fun f hf => ?_
  rw [hf.flag 0 (by decide) window.valid rfl, hf 1 (by decide) 15 window.offset rfl]

/-- A piecewise rate is read as it was written, whatever its reserved bits are. -/
theorem undoes_piecewiseRateDecoder {rate : Nat} (hfits : Fits [.free 2, .value 22 rate])
    (tail : Bytes) : Undoes piecewiseRateDecoder [.free 2, .value 22 rate] rate tail := by
  unfold piecewiseRateDecoder
  exact undoes_fields (by rfl) hfits fun f hf => hf 1 (by decide) 22 rate rfl

/-- A seamless splice is read as it was written, whatever its markers are. -/
theorem SeamlessSplice.undoes_decoder {splice : SeamlessSplice} (hfits : splice.layout.Fits)
    (tail : Bytes) : Undoes SeamlessSplice.decoder splice.layout splice tail := by
  rw [← List.append_nil splice.layout]
  exact .bind (undoes_nibbleAndTimestamp hfits) (undoes_pure splice tail)

/-- The number of bytes that the flags and the parts of an extension take. -/
def AdaptationExtension.byteCount (e : AdaptationExtension) : Nat :=
  1 + e.timeWindow.elim 0 (fun _ => 2) + e.piecewiseRate.elim 0 (fun _ => 3) +
    e.seamlessSplice.elim 0 fun _ => 5

/-- The flags and the parts of an extension take as many bytes as are counted for them. -/
theorem AdaptationExtension.size_parts (e : AdaptationExtension) :
    e.parts.size = 8 * e.byteCount := by
  have hflags : size [flag e.timeWindow.isSome, flag e.piecewiseRate.isSome,
      flag e.seamlessSplice.isSome, .free 5] = 8 := rfl
  have hwindow := size_ofOption (fun _ => 2) fun w (_ : w ∈ e.timeWindow) =>
    (rfl : w.layout.size = _)
  have hrate := size_ofOption (fun _ => 3) fun rate (_ : rate ∈ e.piecewiseRate) =>
    (rfl : size [.free 2, .value 22 rate] = _)
  have hsplice := size_ofOption (fun _ => 5) fun s (_ : s ∈ e.seamlessSplice) =>
    (rfl : s.layout.size = _)
  rw [parts, size_append, size_append, size_append, hflags, hwindow, hrate, hsplice, byteCount]
  omega

/-- The parts of the extension of an adaptation field fill whole bytes. -/
theorem AdaptationExtension.dvd_size_parts (e : AdaptationExtension) : 8 ∣ e.parts.size :=
  ⟨_, e.size_parts⟩

/-- The extension of an adaptation field with any stuffing. -/
theorem AdaptationExtension.undoes_decoder {e : AdaptationExtension} {stuffing : Nat}
    (hfits : (e.layout stuffing).Fits) (tail : Bytes) :
    Undoes AdaptationExtension.decoder (e.layout stuffing) e tail := by
  have hlayout : e.layout stuffing =
      [.value 8 (e.parts.size / 8 + stuffing)] ++ (e.parts ++ [.free (8 * stuffing)]) := rfl
  have hwhole := e.dvd_size_parts
  have hlength : 8 * (e.parts.size / 8 + stuffing) =
      size (e.parts ++ [.free (8 * stuffing)]) := by
    simp only [size_append, size_free, size_nil]
    omega
  rw [hlayout] at hfits ⊢
  rw [fits_append_iff, fits_append_iff] at hfits
  obtain ⟨hcount, hparts, _⟩ := hfits
  refine .bind (undoes_u8 (hcount _ List.mem_cons_self)) ?_
  refine undoes_within hlength hwhole (fun bytes _ => ?_) tail
  simp only [parts, fits_append_iff, fits_ofOption_iff] at hparts
  obtain ⟨⟨⟨hflags, hwindow⟩, hrate⟩, hsplice⟩ := hparts
  rw [parts, List.append_assoc, List.append_assoc]
  refine undoes_fields_bind (by rfl) hflags fun f hf => ?_
  rw [hf.flag 0 (by decide) _ rfl, hf.flag 1 (by decide) _ rfl, hf.flag 2 (by decide) _ rfl,
    ← List.append_nil (ofOption SeamlessSplice.layout _)]
  refine .bind (fun _ => undoes_ifFlag fun w hw => w.undoes_decoder (hwindow w hw) _) ?_
  refine .bind (fun _ => undoes_ifFlag fun r hr => undoes_piecewiseRateDecoder (hrate r hr) _) ?_
  refine .bind (fun _ => undoes_ifFlag fun s hs => s.undoes_decoder (hsplice s hs) _) ?_
  exact undoes_pure e bytes

namespace AdaptationField

instance (stuffing : Nat) (a : AdaptationField) : Decidable (a.Writable stuffing) := by
  unfold Writable
  infer_instance

/-- The number of bytes that the flags and the parts of a field take, with the stuffing in its
extension. -/
def byteCount (stuffing : Nat) (a : AdaptationField) : Nat :=
  1 + a.pcr.elim 0 (fun _ => 6) + a.opcr.elim 0 (fun _ => 6) +
    a.spliceCountdown.elim 0 (fun _ => 1) + a.privateData.elim 0 (fun data => 1 + data.length) +
    a.extension.elim 0 fun e => 1 + e.byteCount + stuffing

/-- An extension takes a byte for its length, its parts and the stuffing behind them. -/
theorem size_extension (stuffing : Nat) (e : AdaptationExtension) :
    (e.layout stuffing).size = 8 * (1 + e.byteCount + stuffing) := by
  simp only [AdaptationExtension.layout, List.cons_append, size_value, size_append, size_free,
    size_nil, e.size_parts]
  omega

/-- The flags and the parts of an adaptation field take as many bytes as are counted for them. -/
theorem size_parts (stuffing : Nat) (a : AdaptationField) :
    (a.parts stuffing).size = 8 * a.byteCount stuffing := by
  have hpcr := size_ofOption (fun _ => 6) fun clock (_ : clock ∈ a.pcr) =>
    (rfl : (ofProgramClock clock).size = _)
  have hopcr := size_ofOption (fun _ => 6) fun clock (_ : clock ∈ a.opcr) =>
    (rfl : (ofProgramClock clock).size = _)
  have hcountdown := size_ofOption (fun _ => 1)
    fun countdown (_ : countdown ∈ a.spliceCountdown) =>
      (rfl : size [.value 8 (countdown % 256).toNat] = _)
  have hdata := size_ofOption (fun data => 1 + data.length)
    fun data (_ : data ∈ a.privateData) =>
      ((size_value 8 data.length (ofBytes data)).trans (by rw [size_ofBytes]; omega) :
        size (.value 8 data.length :: ofBytes data) = _)
  have hextension := size_ofOption _ fun e (_ : e ∈ a.extension) => size_extension stuffing e
  simp only [parts, size_append, hpcr, hopcr, hcountdown, hdata, hextension, byteCount, flag,
    size_value, size_nil]
  omega

/-- The parts of an adaptation field fill whole bytes. -/
theorem dvd_size_parts (stuffing : Nat) (a : AdaptationField) : 8 ∣ (a.parts stuffing).size :=
  ⟨_, a.size_parts stuffing⟩

/-- The flags and the parts of an adaptation field that counts `length` bytes. -/
theorem undoes_partsDecoder {a : AdaptationField} {stuffing : Nat}
    (hfits : (a.parts stuffing).Fits)
    (hcountdown : ∀ countdown ∈ a.spliceCountdown, -128 ≤ countdown ∧ countdown < 128)
    (tail : Bytes) : Undoes (partsDecoder a.length) (a.parts stuffing) a tail := by
  simp only [parts, fits_append_iff, fits_ofOption_iff] at hfits
  obtain ⟨⟨⟨⟨⟨hflags, hpcr⟩, hopcr⟩, -⟩, hdata⟩, hextension⟩ := hfits
  simp only [parts, List.append_assoc]
  refine undoes_fields_bind (by rfl) hflags fun f hf => ?_
  rw [hf.flag 0 (by decide) _ rfl, hf.flag 1 (by decide) _ rfl, hf.flag 2 (by decide) _ rfl,
    hf.flag 3 (by decide) _ rfl, hf.flag 4 (by decide) _ rfl, hf.flag 5 (by decide) _ rfl,
    hf.flag 6 (by decide) _ rfl, hf.flag 7 (by decide) _ rfl,
    ← List.append_nil (ofOption (AdaptationExtension.layout stuffing) _)]
  refine .bind (fun _ => undoes_ifFlag fun c hc => undoes_programClock (hpcr c hc) _) ?_
  refine .bind (fun _ => undoes_ifFlag fun c hc => undoes_programClock (hopcr c hc) _) ?_
  refine .bind (fun _ => undoes_ifFlag fun n hn =>
    undoes_i8 (hcountdown n hn).1 (hcountdown n hn).2 _) ?_
  refine .bind (fun _ => undoes_ifFlag fun data hd =>
    undoes_countedBytes (hdata data hd _ List.mem_cons_self) _) ?_
  refine .bind (fun _ => undoes_ifFlag fun e he => e.undoes_decoder (hextension e he) _) ?_
  exact undoes_pure a tail

/-- An adaptation field, from its length byte on. -/
theorem undoes_decoder {a : AdaptationField} {stuffing : Nat} (h : a.Writable stuffing)
    (tail : Bytes) : Undoes AdaptationField.decoder (a.layout stuffing) a tail := by
  obtain ⟨hfits, hcountdown, hroom⟩ := h
  unfold layout at hfits ⊢
  by_cases hlength : a.length = 0
  · rw [if_pos hlength] at hfits hroom ⊢
    rw [← List.append_nil [_]]
    refine .bind (undoes_u8 (by decide)) ?_
    rw [hroom]
    exact undoes_pure _ tail
  · have hlayout : .value 8 a.length :: a.parts stuffing ++
        [.free (8 * a.length - (a.parts stuffing).size)] = [.value 8 a.length] ++
          (a.parts stuffing ++ [.free (8 * a.length - (a.parts stuffing).size)]) := rfl
    rw [if_neg hlength, hlayout, fits_append_iff, fits_append_iff] at hfits
    rw [if_neg hlength] at hroom
    rw [if_neg hlength, hlayout]
    obtain ⟨hcount, hparts, _⟩ := hfits
    refine .bind (undoes_u8 (hcount _ List.mem_cons_self)) ?_
    rw [if_neg hlength]
    refine undoes_within ?_ (a.dvd_size_parts stuffing)
      (fun bytes _ => undoes_partsDecoder hparts hcountdown bytes) tail
    simp only [size_append, size_free, size_nil]
    omega

end AdaptationField

/-- The numbers of an extension fit their fields. -/
structure AdaptationExtension.InRange (e : AdaptationExtension) : Prop where
  /-- The offset of a time window takes 15 bits. -/
  timeWindow : ∀ window ∈ e.timeWindow, window.offset < 2 ^ 15
  /-- The rate takes 22 bits. -/
  piecewiseRate : ∀ rate ∈ e.piecewiseRate, rate < 2 ^ 22
  /-- A splice takes four bits for its type and 33 for the time behind it. -/
  seamlessSplice : ∀ splice ∈ e.seamlessSplice,
    splice.spliceType < 2 ^ 4 ∧ splice.nextDecodingTime < 2 ^ 33

/-- The parts of an extension in range fit their fields. -/
theorem AdaptationExtension.InRange.fits_parts {e : AdaptationExtension} (hrange : e.InRange) :
    e.parts.Fits := by
  simp only [parts, fits_append_iff, fits_ofOption_iff, fits_flag_iff, fits_free_iff, fits_nil,
    true_and]
  refine ⟨⟨?_, ?_⟩, ?_⟩
  · intro window hwindow
    simpa only [TimeWindow.layout, fits_flag_iff, fits_value_iff, fits_nil, and_true] using
      hrange.timeWindow window hwindow
  · intro rate hrate
    simpa only [fits_value_iff, fits_nil, and_true] using hrange.piecewiseRate rate hrate
  · intro splice hsplice
    obtain ⟨htype, htime⟩ := hrange.seamlessSplice splice hsplice
    exact fits_value_iff.mpr ⟨htype, fits_ofTimestamp_iff.mpr htime⟩

namespace AdaptationField

/-- The numbers of a field fit their fields, and its length counts its parts and any stuffing behind
them. A field that counts no bytes has no parts. -/
structure InRange (stuffing : Nat) (a : AdaptationField) : Prop where
  /-- The length takes one byte. -/
  length : a.length < 2 ^ 8
  /-- A clock reference takes 33 bits and nine further ones. -/
  pcr : ∀ clock ∈ a.pcr, clock.base < 2 ^ 33 ∧ clock.extension < 2 ^ 9
  /-- A clock reference takes 33 bits and nine further ones. -/
  opcr : ∀ clock ∈ a.opcr, clock.base < 2 ^ 33 ∧ clock.extension < 2 ^ 9
  /-- The countdown takes eight bits with its sign. -/
  spliceCountdown : ∀ countdown ∈ a.spliceCountdown, -128 ≤ countdown ∧ countdown < 128
  /-- The numbers of an extension fit, too. -/
  extension : ∀ e ∈ a.extension, e.InRange
  /-- The length has room for the parts, or counts nothing. -/
  room : a = { length := 0 } ∨ a.byteCount stuffing ≤ a.length

variable {a : AdaptationField} {stuffing : Nat}

/-- A program clock reference fits if its base has 33 bits and its extension nine. -/
theorem fits_ofProgramClock {clock : ClockReference}
    (hclock : clock.base < 2 ^ 33 ∧ clock.extension < 2 ^ 9) : Fits (ofProgramClock clock) := by
  simpa only [ofProgramClock, fits_value_iff, fits_free_iff, fits_nil, and_true] using hclock

/-- The parts fit where the length has room for them, since those that tell their own lengths are
no longer than it. -/
theorem InRange.fits_parts (hrange : a.InRange stuffing) (hroom : a.byteCount stuffing ≤ a.length) :
    (a.parts stuffing).Fits := by
  have hlength := hrange.length
  unfold byteCount at hroom
  simp only [parts, fits_append_iff, fits_ofOption_iff, fits_flag_iff, fits_nil, true_and]
  refine ⟨⟨⟨⟨?_, ?_⟩, ?_⟩, ?_⟩, ?_⟩
  · exact fun clock hclock => fits_ofProgramClock (hrange.pcr clock hclock)
  · exact fun clock hclock => fits_ofProgramClock (hrange.opcr clock hclock)
  · intro countdown _
    rw [fits_value_iff]
    exact ⟨by omega, fits_nil⟩
  · intro data hdata
    rw [Option.mem_def.mp hdata, Option.elim_some] at hroom
    exact fits_value_iff.mpr ⟨by omega, (spells_ofBytes data).fits⟩
  · intro e he
    have hsize := e.size_parts
    rw [Option.mem_def.mp he, Option.elim_some] at hroom
    refine fits_value_iff.mpr ⟨by omega, fits_append_iff.mpr ⟨?_, fits_free_iff.mpr fits_nil⟩⟩
    exact (hrange.extension e he).fits_parts

/-- A field in range can be written. -/
theorem InRange.writable (hrange : a.InRange stuffing) : a.Writable stuffing := by
  refine ⟨?_, hrange.spliceCountdown, ?_⟩
  · rcases hrange.room with rfl | hroom
    · exact fits_value_iff.mpr ⟨by decide, fits_nil⟩
    · have hpos : a.length ≠ 0 := by
        unfold byteCount at hroom
        omega
      rw [layout, if_neg hpos, List.cons_append, fits_value_iff, fits_append_iff]
      exact ⟨hrange.length, hrange.fits_parts hroom, fits_free_iff.mpr fits_nil⟩
  · rcases hrange.room with rfl | hroom
    · rw [if_pos rfl]
    · have hpos : a.length ≠ 0 := by
        unfold byteCount at hroom
        omega
      rw [if_neg hpos, a.size_parts]
      omega

/-- Every field whose numbers fit their fields can be written, with any stuffing that its length and
that of its extension count, and is read back whatever the reserved bits, the markers and the
stuffing are. The reader stands behind it then, and its clock references count 300 ticks for each
one of their base. -/
theorem field_is_read_back (hrange : a.InRange stuffing) :
    (∃ encoded, (a.layout stuffing).Writes encoded) ∧
      ∀ encoded, (a.layout stuffing).Writes encoded → ∀ tail,
        ∃ field, decoder (.ofBytes (encoded ++ tail)) = .ok field (.ofBytes tail) ∧ field = a ∧
          field.pcr.map (·.ticks) = a.pcr.map (fun clock => clock.base * 300 + clock.extension) ∧
          field.opcr.map (·.ticks) =
            a.opcr.map fun clock => clock.base * 300 + clock.extension := by
  have hwritable := hrange.writable
  constructor
  · exact exists_writes _ (undoes_decoder hwritable []).whole
  · intro encoded hencoded tail
    exact ⟨a, (undoes_decoder hwritable tail).reads encoded hencoded, rfl, rfl, rfl⟩

/-- All parts of a field, with two bytes of stuffing in the extension and six behind it. -/
theorem field_is_read_back_all_parts :
    let extension : AdaptationExtension :=
      ⟨some ⟨true, 0x1234⟩, some 0x2abcde, some ⟨9, 2 ^ 32 + 2 ^ 15 + 1⟩⟩
    let field : AdaptationField :=
      { length := 38, discontinuity := true, randomAccess := false, priority := true,
        pcr := some ⟨2 ^ 33 - 1, 299⟩, opcr := some ⟨2 ^ 32 + 5, 511⟩, spliceCountdown := some (-3),
        privateData := some [0xde, 0xad, 0xbe], extension := some extension }
    let encoded : Bytes :=
      [0x26, 0xbf, 0xff, 0xff, 0xff, 0xff, 0xb7, 0x2b, 0x80, 0, 0, 2, 0xb7, 0xff, 0xfd, 0x03, 0xde,
        0xad, 0xbe, 0x0d, 0xed, 0x92, 0x34, 0xaa, 0xbc, 0xde, 0x99, 0, 3, 0, 2, 0xdb, 0x6d, 0xb6,
        0xdb, 0x6d, 0xb6, 0xdb, 0x6d]
    ∃ found, decoder (.ofBytes (encoded ++ [0x00, 0x47])) = .ok found (.ofBytes [0x00, 0x47]) ∧
      found = field ∧ found.pcr.map (·.ticks) = some 2576980377599 ∧
      found.opcr.map (·.ticks) = some 1288490190811 := by
  intro extension field encoded
  have hextension : extension.InRange := ⟨by decide, by decide, by decide⟩
  have hrange : field.InRange 2 :=
    ⟨by decide, by decide, by decide, by decide, by rintro e ⟨⟩; exact hextension, .inr (by decide)⟩
  have hwrites : (field.layout 2).Writes encoded :=
    ⟨(List.range 86).map (· % 3 != 0), by decide, by decide +kernel⟩
  exact (field_is_read_back hrange).2 encoded hwrites [0x00, 0x47]

end AdaptationField

end TransportStream
