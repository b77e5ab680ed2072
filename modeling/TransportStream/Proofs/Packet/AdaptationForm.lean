import TransportStream.AdaptationField
import TransportStream.Proofs.Bits.Extent

/-!
# Which bytes are adaptation fields

Three bounds are nested in an adaptation field: the end of the data, the length of the field and the
length of its extension. Private data and the extension tell their lengths themselves, so that the
parts are found one behind the other. Whatever happens within the length of the field, the reader
stands behind it afterwards.
-/

namespace TransportStream

open Decoder

/-- A program clock reference takes six bytes. -/
theorem takes_programClock : Takes (fun _ => 6) programClock :=
  (makes_fields _ rfl).takes.bind fun _ => (makes_pure _).takes

/-- A signed byte takes one byte. -/
theorem takes_i8 : Takes (fun _ => 1) i8 := makes_u8.takes.bind fun _ => (makes_pure _).takes

/-- A legal time window takes two bytes. -/
theorem TimeWindow.takes_decoder : Takes (fun _ => 2) TimeWindow.decoder :=
  (makes_fields _ rfl).takes.bind fun _ => (makes_pure _).takes

/-- A piecewise rate takes three bytes. -/
theorem takes_piecewiseRateDecoder : Takes (fun _ => 3) piecewiseRateDecoder :=
  (makes_fields _ rfl).takes.bind fun _ => (makes_pure _).takes

/-- A seamless splice takes five bytes. -/
theorem SeamlessSplice.takes_decoder : Takes (fun _ => 5) SeamlessSplice.decoder :=
  ((makes_fields _ rfl).takes.bind fun _ => (makes_pure _).takes).bind fun _ => (makes_pure _).takes

namespace AdaptationExtension

/-- The number of bytes of the parts that the flags of an extension announce. -/
def partsSizeIn (flags : Nat) : Nat :=
  (if flags.testBit 7 then 2 else 0) + (if flags.testBit 6 then 3 else 0) +
    if flags.testBit 5 then 5 else 0

/-- The number of bytes that an extension tells of in its first byte. -/
def lengthIn (bytes : Bytes) : Nat := bytes.number 0 1

/-- The number of bytes up to the end of the last part of an extension. What its length counts
beyond them is stuffing. -/
def partsEndIn (bytes : Bytes) : Nat := 2 + partsSizeIn (bytes.number 1 2)

/-- Bytes begin with an extension. -/
structure HasForm (bytes : Bytes) : Prop where
  /-- The bytes that the length counts are there. -/
  room : 1 + lengthIn bytes ≤ bytes.length
  /-- They have room for the flags and the parts. -/
  parts : partsEndIn bytes ≤ 1 + lengthIn bytes

/-- Reads the parts of an extension that a number announces as its flags. -/
def flaggedDecoder (flags : Nat) : Decoder AdaptationExtension := do
  let timeWindow ← ifFlag (flags.testBit 7) TimeWindow.decoder
  let piecewiseRate ← ifFlag (flags.testBit 6) piecewiseRateDecoder
  let seamlessSplice ← ifFlag (flags.testBit 5) SeamlessSplice.decoder
  return { timeWindow, piecewiseRate, seamlessSplice }

/-- An extension is read through the byte of its flags. -/
theorem decoder_eq :
    decoder = u8 >>= fun length =>
      within length (fields [1, 1, 1, 5] >>= fun flags => flaggedDecoder flags.word) := by
  have hflags : ∀ flags : Fields [1, 1, 1, 5], flags.flag 0 = flags.word.testBit 7 ∧
      flags.flag 1 = flags.word.testBit 6 ∧ flags.flag 2 = flags.word.testBit 5 :=
    fun flags => ⟨flags.flag_eq 0 _ rfl, flags.flag_eq 1 _ rfl, flags.flag_eq 2 _ rfl⟩
  simp only [decoder, flaggedDecoder, hflags]

/-- The parts of an extension take the bytes that the flags announce. -/
theorem takes_flaggedDecoder (flags : Nat) :
    Takes (fun _ => partsSizeIn flags) (flaggedDecoder flags) := by
  have h : Takes _ (flaggedDecoder flags) :=
    (TimeWindow.takes_decoder.ifFlag _).bind fun _ => (takes_piecewiseRateDecoder.ifFlag _).bind
      fun _ => (SeamlessSplice.takes_decoder.ifFlag _).bind fun _ => (makes_pure _).takes
  simp only [Nat.add_zero] at h
  simp only [partsSizeIn, Nat.add_assoc]
  exact h

/-- The flags are the first byte that the length counts. -/
theorem flags_of_room {bytes : Bytes} (h : 1 ≤ lengthIn bytes) :
    Bytes.toNat (((bytes.drop 1).take (lengthIn bytes)).take 1) = bytes.number 1 2 := by
  rw [List.take_take, Nat.min_eq_left h]
  rfl

/-- An extension is read exactly off bytes of its form, up to the stuffing in it. -/
theorem parses_decoder :
    Parses HasForm (fun bytes => 1 + lengthIn bytes) partsEndIn decoder := by
  have hparts : Takes (fun bytes => 1 + partsSizeIn (Bytes.toNat (bytes.take 1)))
      (fields [1, 1, 1, 5] >>= fun flags => flaggedDecoder flags.word) :=
    ((makes_fields _ rfl).bind fun flags => takes_flaggedDecoder flags.word).of_iff
      fun _ => and_le_length_drop_iff
  have h := makes_u8.bind fun n => hparts.within n
  -- The byte behind the length is a flag byte only if the length counts it.
  have hpos : ∀ bytes, HasForm bytes → 1 ≤ lengthIn bytes := by
    intro bytes hform
    have hend := hform.parts
    unfold partsEndIn at hend
    omega
  rw [decoder_eq]
  refine h.congr ?_ (fun _ _ => rfl) ?_
  · intro bytes
    have hlength : Bytes.toNat (bytes.take 1) = lengthIn bytes := rfl
    simp only [hlength, List.length_take, List.length_drop]
    constructor
    · rintro ⟨hleast, hroom, hend⟩
      rw [flags_of_room (by omega)] at hend
      refine ⟨by omega, ?_⟩
      unfold partsEndIn
      omega
    · intro hform
      have hroom := hform.room
      have hend := hform.parts
      unfold partsEndIn at hend
      rw [flags_of_room (hpos bytes hform)]
      omega
  · intro bytes hform
    have hlength : Bytes.toNat (bytes.take 1) = lengthIn bytes := rfl
    rw [hlength, flags_of_room (hpos bytes hform), partsEndIn]
    omega

end AdaptationExtension

namespace AdaptationField

/-- The number of bytes of the clock references and the countdown that the flags of a field
announce. -/
def fixedSizeIn (flags : Nat) : Nat :=
  (if flags.testBit 4 then 6 else 0) + (if flags.testBit 3 then 6 else 0) +
    if flags.testBit 2 then 1 else 0

/-- The number of bytes behind the flags up to the extension. Private data, which stands in front of
it, tells its own length. -/
def frontSizeIn (flags : Nat) (parts : Bytes) : Nat :=
  fixedSizeIn flags + if flags.testBit 1 then
    1 + parts.number (fixedSizeIn flags) (fixedSizeIn flags + 1) else 0

/-- The bytes from the extension on. -/
def fromExtension (flags : Nat) (parts : Bytes) : Bytes := parts.drop (frontSizeIn flags parts)

/-- The number of bytes behind the flags up to the end of the last part, or of the last part of the
extension if there is one. What the length of the field counts beyond them is stuffing. -/
def partsEndIn (flags : Nat) (parts : Bytes) : Nat :=
  frontSizeIn flags parts + if flags.testBit 0 then
    AdaptationExtension.partsEndIn (fromExtension flags parts) else 0

/-- Behind its flags a field has the parts that they announce. -/
structure HasParts (flags : Nat) (parts : Bytes) : Prop where
  /-- The parts in front of the extension are there. -/
  front : frontSizeIn flags parts ≤ parts.length
  /-- So is the extension, if it is announced. -/
  extension : flags.testBit 0 = true → AdaptationExtension.HasForm (fromExtension flags parts)

/-- Reads the parts in front of the extension that a number announces as the flags. -/
def frontDecoder (length flags : Nat) : Decoder AdaptationField := do
  let pcr ← ifFlag (flags.testBit 4) programClock
  let opcr ← ifFlag (flags.testBit 3) programClock
  let spliceCountdown ← ifFlag (flags.testBit 2) i8
  let privateData ← ifFlag (flags.testBit 1) countedBytes
  return {
    length
    discontinuity := flags.testBit 7
    randomAccess := flags.testBit 6
    priority := flags.testBit 5
    pcr
    opcr
    spliceCountdown
    privateData }

/-- Reads the parts of a field behind its flags. -/
def flaggedDecoder (length flags : Nat) : Decoder AdaptationField := do
  let front ← frontDecoder length flags
  let extension ← ifFlag (flags.testBit 0) AdaptationExtension.decoder
  return { front with extension }

/-- The parts of a field are read through the byte of its flags. -/
theorem partsDecoder_eq (length : Nat) :
    partsDecoder length =
      fields [1, 1, 1, 1, 1, 1, 1, 1] >>= fun flags => flaggedDecoder length flags.word := by
  have hwidths : ∀ (i : Nat) (hi : i < 8), [1, 1, 1, 1, 1, 1, 1, 1][i] = 1 ∧
      totalWidth ([1, 1, 1, 1, 1, 1, 1, 1].drop (i + 1)) = 7 - i := by decide
  have hflag : ∀ (flags : Fields [1, 1, 1, 1, 1, 1, 1, 1]) (i : Nat) (hi : i < 8),
      flags.flag i hi = flags.word.testBit (7 - i) := by
    intro flags i hi
    obtain ⟨hone, hbehind⟩ := hwidths i hi
    rw [flags.flag_eq i hi hone, hbehind]
  simp only [partsDecoder, flaggedDecoder, frontDecoder, bind_assoc, pure_bind, hflag]

/-- The parts in front of the extension take the bytes that the flags and the length of the private
data announce. -/
theorem takes_frontDecoder (length flags : Nat) :
    Takes (frontSizeIn flags) (frontDecoder length flags) := by
  have h : Takes _ (frontDecoder length flags) :=
    (takes_programClock.ifFlag _).bind fun _ => (takes_programClock.ifFlag _).bind fun _ =>
      (takes_i8.ifFlag _).bind fun _ => (takes_countedBytes.ifFlag _).bind fun _ =>
        (makes_pure _).takes
  have hsize : frontSizeIn flags = _ := funext fun parts => by
    rw [frontSizeIn, Bytes.number_byte, fixedSizeIn, Nat.add_assoc, Nat.add_assoc]
  simp only [Nat.add_zero, List.drop_drop] at h
  rw [hsize]
  exact h

/-- The parts are read exactly where they are there, up to the stuffing behind them. -/
theorem parses_flaggedDecoder (length flags : Nat) :
    Parses (HasParts flags)
      (fun parts => frontSizeIn flags parts + if flags.testBit 0 then
        1 + AdaptationExtension.lengthIn (fromExtension flags parts) else 0)
      (partsEndIn flags) (flaggedDecoder length flags) := by
  have h : Parses _ _ _ (flaggedDecoder length flags) :=
    Parses.bind (takes_frontDecoder length flags) fun _ =>
      (AdaptationExtension.parses_decoder.ifFlag _).bind_pure _
  refine h.of_iff fun parts => ⟨?_, ?_⟩
  · rintro ⟨hfront, hextension⟩
    exact ⟨hfront, hextension⟩
  · rintro ⟨hfront, hextension⟩
    exact ⟨hfront, hextension⟩

/-- The number of bytes that a field tells of in its first byte. -/
def lengthIn (bytes : Bytes) : Nat := bytes.number 0 1

/-- The flags of a field that counts any bytes. -/
def flagsIn (bytes : Bytes) : Nat := bytes.number 1 2

/-- The bytes behind the flags of a field. -/
def partsIn (bytes : Bytes) : Bytes := bytes.extract 2 (1 + lengthIn bytes)

/-- The number of bytes of a field up to the stuffing. -/
def seenIn (bytes : Bytes) : Nat :=
  if lengthIn bytes = 0 then 1 else 2 + partsEndIn (flagsIn bytes) (partsIn bytes)

/-- Bytes begin with an adaptation field. -/
structure HasForm (bytes : Bytes) : Prop where
  /-- The bytes that the length counts are there. -/
  room : 1 + lengthIn bytes ≤ bytes.length
  /-- They have the parts, if there are any. -/
  parts : lengthIn bytes = 0 ∨ HasParts (flagsIn bytes) (partsIn bytes)

/-- Reads a field behind its length. -/
def countedDecoder (length : Nat) : Decoder AdaptationField :=
  if length = 0 then pure { length } else within length (partsDecoder length)

/-- A field is read behind its length as the length counts. -/
theorem decoder_eq : decoder = u8 >>= fun length => countedDecoder length := rfl

/-- Behind its length a field is read exactly if as many bytes are there and have the parts that
their flags announce. -/
theorem parses_countedDecoder (length : Nat) :
    Parses (fun counted => length ≤ counted.length ∧
        (length = 0 ∨ HasParts (counted.number 0 1) (counted.extract 1 length)))
      (fun _ => length)
      (fun counted => if length = 0 then 0 else
        1 + partsEndIn (counted.number 0 1) (counted.extract 1 length))
      (countedDecoder length) := by
  unfold countedDecoder
  by_cases hzero : length = 0
  · subst hzero
    exact (makes_pure _).takes.of_iff fun _ => (and_iff_left (.inl rfl)).symm
  · rw [if_neg hzero, partsDecoder_eq]
    have h := ((makes_fields (n := 1) (by decide) rfl).bind
      fun flags : Fields [1, 1, 1, 1, 1, 1, 1, 1] =>
        parses_flaggedDecoder length flags.word).within length
    have hflags : ∀ counted : Bytes,
        Bytes.toNat ((counted.take length).take 1) = counted.number 0 1 := by
      intro counted
      rw [List.take_take, Nat.min_eq_left (Nat.one_le_iff_ne_zero.mpr hzero)]
      rfl
    have hparts : ∀ counted : Bytes, (counted.take length).drop 1 = counted.extract 1 length :=
      fun counted => List.drop_take
    refine h.congr ?_ (fun _ _ => rfl) ?_
    · intro counted
      simp only [hflags, hparts, hzero, false_or, List.length_take]
      refine and_congr_right fun hroom => and_iff_right ?_
      omega
    · intro counted _
      simp only [hflags, hparts, if_neg hzero]

/-- An adaptation field is read exactly off bytes of its form, up to the stuffing in it. -/
theorem parses_decoder :
    Parses HasForm (fun bytes => 1 + lengthIn bytes) seenIn decoder := by
  have h := makes_u8.bind parses_countedDecoder
  have hparts : ∀ bytes : Bytes, (bytes.drop 1).extract 1 (lengthIn bytes) = partsIn bytes := by
    intro bytes
    have hcount : lengthIn bytes - 1 = 1 + lengthIn bytes - 2 := by omega
    rw [partsIn, List.extract, List.extract, List.drop_drop, hcount]
  rw [decoder_eq]
  refine h.congr ?_ (fun _ _ => rfl) ?_
  · intro bytes
    have hcounted : ∀ p, (1 ≤ bytes.length ∧ lengthIn bytes ≤ (bytes.drop 1).length ∧ p) ↔
        1 + lengthIn bytes ≤ bytes.length ∧ p := by
      intro p
      rw [← and_assoc, and_le_length_drop_iff]
    have hform : 1 + lengthIn bytes ≤ bytes.length ∧
        (lengthIn bytes = 0 ∨ HasParts (flagsIn bytes) (partsIn bytes)) ↔ HasForm bytes :=
      ⟨fun h => ⟨h.1, h.2⟩, fun h => ⟨h.room, h.parts⟩⟩
    rw [← hform, ← hcounted, ← hparts]
    rfl
  · intro bytes _
    have hlength : Bytes.toNat (bytes.take 1) = lengthIn bytes := rfl
    have hflags : Bytes.number (bytes.drop 1) 0 1 = flagsIn bytes := rfl
    simp only [hlength, hflags, hparts, seenIn]
    split <;> omega

/-- What a field is decoded to that has room for its length. -/
def resultIn (bytes : Bytes) : Except DecodeError AdaptationField :=
  if lengthIn bytes = 0 then .ok { length := 0 }
  else (partsDecoder (lengthIn bytes)).decode (bytes.extract 1 (1 + lengthIn bytes))

/-- A field that has room for its length is moved over, whatever it is decoded to. -/
theorem decoder_of_room {bytes : Bytes} (h : 1 + lengthIn bytes ≤ bytes.length) :
    decoder (.ofBytes bytes) = (ofExcept (resultIn bytes) : Decoder AdaptationField)
      (.ofBytes (bytes.drop (1 + lengthIn bytes))) := by
  have hlength : u8 (.ofBytes bytes) = .ok (lengthIn bytes) (.ofBytes (bytes.drop 1)) :=
    u8_eq_ok.mpr ⟨by omega, rfl, rfl⟩
  rw [decoder_eq, bind_of_ok hlength, countedDecoder, resultIn]
  by_cases hzero : lengthIn bytes = 0
  · rw [if_pos hzero, if_pos hzero, hzero]
    rfl
  · have hroom : lengthIn bytes ≤ (bytes.drop 1).length := by
      rw [List.length_drop]
      omega
    rw [if_neg hzero, if_neg hzero, within_of_le hroom, List.drop_drop, List.extract,
      Nat.add_sub_cancel_left]

/-- Where the data ends within a field, that is the error, and the reader has failed. -/
theorem decoder_of_short {bytes : Bytes} (h : bytes.length < 1 + lengthIn bytes) :
    ∃ needed available r,
      decoder (.ofBytes bytes) = .error (.endOfData needed available) r ∧ r.failed = true := by
  cases bytes with
  | nil => exact ⟨8, 0, _, rfl, rfl⟩
  | cons byte behind =>
    have hlength : u8 (.ofBytes (byte :: behind)) =
        .ok (lengthIn (byte :: behind)) (.ofBytes behind) :=
      u8_eq_ok.mpr ⟨Nat.le_add_left 1 _, rfl, rfl⟩
    have hshort : behind.length < lengthIn (byte :: behind) := by
      rw [List.length_cons] at h
      omega
    rw [decoder_eq, bind_of_ok hlength, countedDecoder, if_neg (by omega), within_of_short hshort]
    exact ⟨_, _, _, rfl, rfl⟩

/-- An adaptation field is decoded exactly from the bytes that have its form. If there is room for
its length, the reader stands behind it afterwards, whether it was decoded or not, and bytes behind
it do not matter. Neither does the stuffing in a field that was decoded. If there is no room, the
data has ended, and the reader has failed. -/
theorem decoding_is_framed :
    ∀ bytes,
      ((∃ field, decoder.decode bytes = .ok field) ↔ HasForm bytes) ∧
      (1 + lengthIn bytes ≤ bytes.length → ∀ others,
        others.take (1 + lengthIn bytes) = bytes.take (1 + lengthIn bytes) →
          decoder.decode others = decoder.decode bytes ∧
          decoder.readerAfter (.ofBytes others) = .ofBytes (others.drop (1 + lengthIn bytes))) ∧
      (∀ field, decoder.decode bytes = .ok field →
        ∀ others, 1 + lengthIn bytes ≤ others.length →
          others.take (seenIn bytes) = bytes.take (seenIn bytes) →
            decoder.decode others = .ok field) ∧
      (bytes.length < 1 + lengthIn bytes → ∃ needed available r,
        decoder (.ofBytes bytes) = .error (.endOfData needed available) r ∧ r.failed = true) := by
  intro bytes
  refine ⟨parses_decoder.exists_decode_iff, ?_, ?_, decoder_of_short⟩
  · intro hroom others hothers
    have hlength : lengthIn others = lengthIn bytes :=
      Bytes.number_eq_of_take hothers (Nat.le_add_right 1 _)
    have hresult : resultIn others = resultIn bytes := by
      rw [resultIn, resultIn, hlength, extract_eq_of_take hothers (Nat.le_refl _)]
    have hcounted : 1 + lengthIn others ≤ others.length := by
      rw [hlength]
      exact le_length_of_take_eq hroom hothers
    have hread := decoder_of_room hcounted
    rw [hlength, hresult] at hread
    obtain ⟨hdecode, hreader⟩ := decode_of_ofExcept hread
    exact ⟨hdecode.trans (decode_of_ofExcept (decoder_of_room hroom)).1.symm, hreader⟩
  · intro field hdecode others hroom hothers
    exact parses_decoder.decode_alike hdecode hroom hothers

/-- An extension has to hold the part that it announces, and has to end within the field. -/
example :
    let field (length : UInt8) : Bytes := [5, 0x01, length, 0x80, 0x81, 0x23, 0x47]
    [2, 3, 4].map (fun length =>
      ((decoder.decode (field length)).toOption.bind (·.extension)).bind (·.timeWindow)) =
        [none, some ⟨true, 0x123⟩, none] := by
  decide +kernel

end AdaptationField

end TransportStream
