import TransportStream.Pes
import TransportStream.Proofs.Bits.Extent

/-!
# Which bytes are PES units

Three bounds are nested in a unit: the end of the data, the length of the unit and the length of its
header. The form of a unit names the places between them. A part of the header has to end within the
length of the header, even if the bytes behind it belong to the unit.
-/

namespace TransportStream

open Decoder

/-- A time stamp takes five bytes. -/
theorem takes_timestamp : Takes (fun _ => 5) (Prod.snd <$> nibbleAndTimestamp) :=
  ((makes_fields _ rfl).takes.bind fun _ => (makes_pure _).takes).map _

/-- The clock reference of a stream takes six bytes. -/
theorem takes_streamClock : Takes (fun _ => 6) streamClock :=
  (makes_fields _ rfl).takes.bind fun _ => (makes_pure _).takes

/-- The rate of a stream takes three bytes. -/
theorem takes_streamRate : Takes (fun _ => 3) streamRate :=
  (makes_fields _ rfl).takes.bind fun _ => (makes_pure _).takes

/-- A trick mode takes one byte. -/
theorem TrickMode.takes_decoder : Takes (fun _ => 1) TrickMode.decoder :=
  (makes_fields _ rfl).takes.bind fun _ => (makes_pure _).takes

/-- Information on copying takes one byte. -/
theorem takes_copyInfo : Takes (fun _ => 1) copyInfo :=
  (makes_fields _ rfl).takes.bind fun _ => (makes_pure _).takes

namespace PesHeader

/-- The number of bytes of the parts that the second byte of a header announces. -/
def partsSizeIn (flags : Nat) : Nat :=
  (if flags.testBit 7 then 5 else 0) + (if flags.testBit 6 then 5 else 0) +
    (if flags.testBit 5 then 6 else 0) + (if flags.testBit 4 then 3 else 0) +
    (if flags.testBit 3 then 1 else 0) + (if flags.testBit 2 then 1 else 0) +
    if flags.testBit 1 then 2 else 0

/-- The number of bytes that a header tells of in its third byte. -/
def lengthIn (content : Bytes) : Nat := content.number 2 3

/-- Bytes begin with the header of a unit. -/
structure HasForm (content : Bytes) : Prop where
  /-- There is room for the flags and the length. -/
  least : 3 ≤ content.length
  /-- The first two bits are one and zero. -/
  marks : content.number 0 1 / 2 ^ 6 = 2
  /-- There is no time of decoding without one of presentation. -/
  times : content.number 1 2 / 2 ^ 6 ≠ 1
  /-- The bytes that the length counts are there. -/
  room : 3 + lengthIn content ≤ content.length
  /-- They have room for all parts. -/
  parts : partsSizeIn (content.number 1 2) ≤ lengthIn content

/-- The parts take the bytes that their flags announce, whatever the marks and the length are. -/
theorem takes_partsDecoder {flags : Fields [2, 1, 1, 1, 1, 1, 1]} (htimes : flags.get 0 ≠ 1)
    (marks : Fields [2, 2, 1, 1, 1, 1]) (length : Nat) :
    Takes (fun _ => partsSizeIn flags.word) (partsDecoder marks flags length) := by
  have hget : flags.get 0 = flags.word / 2 ^ 6 % 2 ^ 2 := flags.get_eq 0 (by decide)
  have hpts : decide (2 ≤ flags.get 0) = flags.word.testBit 7 := by
    rw [Nat.testBit_eq_decide_div_mod_eq, hget]
    apply decide_eq_decide.mpr
    omega
  have hdts : (flags.get 0 == 3) = flags.word.testBit 6 := by
    rw [Nat.testBit_eq_decide_div_mod_eq]
    apply decide_eq_decide.mpr
    omega
  rw [partsDecoder, hpts, hdts, flags.flag_eq 1 (by decide) rfl, flags.flag_eq 2 (by decide) rfl,
    flags.flag_eq 3 (by decide) rfl, flags.flag_eq 4 (by decide) rfl,
    flags.flag_eq 5 (by decide) rfl]
  simp only [partsSizeIn, Nat.add_assoc]
  exact (takes_timestamp.ifFlag _).bind fun _ => (takes_timestamp.ifFlag _).bind fun _ =>
    (takes_streamClock.ifFlag _).bind fun _ => (takes_streamRate.ifFlag _).bind fun _ =>
      (TrickMode.takes_decoder.ifFlag _).bind fun _ => (takes_copyInfo.ifFlag _).bind fun _ =>
        (makes_u16.takes.ifFlag _).bind fun _ => (makes_pure _).takes

/-- The two highest bits of a byte are its first field. -/
theorem get_two_bits {widths : List Nat} (content : Bytes) (place : Nat)
    (hwidths : totalWidth widths = 6) :
    (⟨content.number place (place + 1)⟩ : Fields (2 :: widths)).get 0 (Nat.zero_lt_succ _) =
      content.number place (place + 1) / 2 ^ 6 := by
  have hbyte := content.number_lt_of_byte place
  have hwidth : totalWidth ((2 :: widths).drop (0 + 1)) = 6 := hwidths
  have hlt : content.number place (place + 1) / 2 ^ 6 < 2 ^ 2 := by omega
  rw [Fields.get_eq, hwidth]
  exact Nat.mod_eq_of_lt hlt

/-- A header is read exactly off bytes of its form, up to the stuffing in it. The reader stands
behind its length then. -/
theorem parses_decoder :
    Parses HasForm (fun content => 3 + lengthIn content)
      (fun content => 3 + partsSizeIn (content.number 1 2)) decoder := by
  have h : Parses _ _ _ decoder :=
    (makes_fields (n := 1) _ rfl).bind fun marks =>
      (parses_expectEq marks 0 2 _).bind fun _ =>
        (makes_fields (n := 1) _ rfl).bind fun flags =>
          (parses_expectNe flags 0 1 _).bind_of fun _ _ _ hexpect =>
            makes_u8.bind fun length =>
              (takes_partsDecoder (expectNe_eq_ok.mp hexpect).1 marks length).within length
  have hmarks : ∀ content : Bytes,
      (⟨Bytes.toNat (content.take 1)⟩ : Fields [2, 2, 1, 1, 1, 1]).get 0 =
        content.number 0 1 / 2 ^ 6 :=
    fun content => get_two_bits content 0 rfl
  have hflags : ∀ content : Bytes,
      (⟨content.number 1 2⟩ : Fields [2, 1, 1, 1, 1, 1, 1]).get 0 = content.number 1 2 / 2 ^ 6 :=
    fun content => get_two_bits content 1 rfl
  have hannounced : ∀ content : Bytes,
      Bytes.toNat ((content.drop 1).take 1) = content.number 1 2 := fun _ => rfl
  have hlength : ∀ content : Bytes, Bytes.toNat ((content.drop 2).take 1) = lengthIn content :=
    fun _ => rfl
  refine h.congr ?_ ?_ ?_
  · intro content
    simp only [List.drop_drop, List.length_drop, List.length_take, Nat.add_zero, hmarks,
      hannounced, hflags, hlength]
    constructor
    · rintro ⟨_, hmark, _, htimes, hleast, hroom, hparts⟩
      exact ⟨by omega, hmark, htimes, by omega, by omega⟩
    · rintro ⟨hleast, hmark, htimes, hroom, hparts⟩
      exact ⟨by omega, hmark, by omega, htimes, by omega, by omega, by omega⟩
  · intro content _
    simp only [List.drop_drop, Nat.add_zero, hlength]
    omega
  · intro content _
    simp only [List.drop_drop, Nat.add_zero, hannounced]
    omega

end PesHeader

namespace PesUnit

/-- The stream that the fourth byte of a unit names. -/
def streamIdIn (bytes : Bytes) : StreamId := ⟨bytes.number 3 4⟩

/-- The length that a unit tells in its fifth and sixth byte. -/
def lengthIn (bytes : Bytes) : Nat := bytes.number 4 6

/-- The bytes that the length of a unit counts, or all behind it if the length is left open. -/
def contentIn (bytes : Bytes) : Bytes :=
  if lengthIn bytes = 0 then bytes.drop 6 else bytes.extract 6 (6 + lengthIn bytes)

/-- The bytes behind the header, if the stream of a unit has one. -/
def payloadIn (bytes : Bytes) : Bytes :=
  if streamIdIn bytes ∈ StreamId.headerless then contentIn bytes
  else (contentIn bytes).drop (3 + PesHeader.lengthIn (contentIn bytes))

/-- Bytes begin with a unit. -/
structure HasForm (bytes : Bytes) : Prop where
  /-- There is room for the start code, the stream and the length. -/
  least : 6 ≤ bytes.length
  /-- The unit begins with the start code. -/
  startCode : bytes.take 3 = [0, 0, 1]
  /-- The bytes that the length counts are there. -/
  room : 6 + lengthIn bytes ≤ bytes.length
  /-- They begin with a header, unless the stream has none. -/
  header : streamIdIn bytes ∈ StreamId.headerless ∨ PesHeader.HasForm (contentIn bytes)

variable {bytes : Bytes}

/-- The first three bytes write the start code if they are two zeros and a one. -/
theorem startCode_iff (h : 3 ≤ bytes.length) :
    bytes.number 0 3 = 1 ↔ bytes.take 3 = [0, 0, 1] := by
  obtain ⟨first, second, third, behind, rfl⟩ :
      ∃ first second third behind, bytes = first :: second :: third :: behind := by
    match bytes, h with
    | first :: second :: third :: behind, _ => exact ⟨first, second, third, behind, rfl⟩
  have hfirst := first.toNat_lt
  have hsecond := second.toNat_lt
  have hthird := third.toNat_lt
  have hnumber : Bytes.number (first :: second :: third :: behind) 0 3 =
      256 * (256 * (256 * 0 + first.toNat) + second.toNat) + third.toNat := rfl
  simp only [List.take_succ_cons, List.take_zero, List.cons.injEq, and_true, ← UInt8.toNat_inj]
  rw [hnumber]
  simp only [UInt8.toNat_ofNat]
  omega

/-- Makes a unit of the bytes that belong to it. -/
def ofContent (streamId : StreamId) (length : Nat) (content : Bytes) : Except DecodeError PesUnit :=
  ((contentDecoder streamId).decode content).map fun (header, payload) =>
    { streamId, length, header, payload }

/-- The bytes that belong to a unit, if the length does not reach beyond the last one. Where lengths
are taken strictly, only video may leave them open. -/
def takenContent (strictLength : Bool) (bytes : Bytes) : Except DecodeError Bytes :=
  if lengthIn bytes = 0 ∧ strictLength = true ∧ (streamIdIn bytes).isVideo = false then
    .error (.unboundedLength (streamIdIn bytes).code)
  else if 6 + lengthIn bytes ≤ bytes.length then .ok (contentIn bytes)
  else .error (.endOfData (8 * lengthIn bytes) (8 * (bytes.length - 6)))

/-- The bytes that belong to a unit are taken from behind its length. -/
theorem decode_body (strictLength : Bool) (h : 6 ≤ bytes.length) :
    (body strictLength (streamIdIn bytes) (lengthIn bytes)).decode (bytes.drop 6) =
      takenContent strictLength bytes := by
  have hbehind : (bytes.drop 6).length = bytes.length - 6 := List.length_drop
  unfold body
  by_cases hrefused : lengthIn bytes = 0 ∧ strictLength = true ∧ (streamIdIn bytes).isVideo = false
  · obtain ⟨hopen, rfl, hvideo⟩ := id hrefused
    rw [takenContent, if_pos hrefused, if_pos hopen]
    simp only [hvideo, Bool.not_false, Bool.and_self, if_true]
    rfl
  · rw [takenContent, if_neg hrefused]
    by_cases hopen : lengthIn bytes = 0
    · have hlax : (strictLength && !(streamIdIn bytes).isVideo) = false := by
        apply Bool.eq_false_iff.mpr
        intro hstrict
        rw [Bool.and_eq_true, Bool.not_eq_true'] at hstrict
        exact hrefused ⟨hopen, hstrict⟩
      have hroom : 6 + lengthIn bytes ≤ bytes.length := by omega
      rw [if_pos hroom, contentIn, if_pos hopen, if_pos hopen]
      simp only [hlax, Bool.false_eq_true, if_false]
      rfl
    · rw [if_neg hopen]
      by_cases hroom : 6 + lengthIn bytes ≤ bytes.length
      · rw [if_pos hroom, contentIn, if_neg hopen]
        refine decode_eq_ok.mpr ⟨_, bytes_eq_ok_of_bytes.mpr ⟨by omega, ?_, rfl⟩⟩
        rw [List.extract, Nat.add_sub_cancel_left]
      · rw [if_neg hroom, ← hbehind]
        exact decode_eq_error.mpr ⟨_, bytes_of_short (by omega)⟩

/-- Reads a unit up to its length. -/
def headDecoder : Decoder (StreamId × Nat) := do
  let startCode ← u24
  if startCode ≠ 1 then throw (.invalidStartCode startCode)
  let streamId : StreamId := ⟨← u8⟩
  let length ← u16
  return (streamId, length)

/-- A unit is read in three parts: what is in front of its bytes, the bytes, and what is in them. -/
theorem decoder_eq (strictLength : Bool) :
    decoder strictLength = headDecoder >>= fun (streamId, length) => do
      let content ← body strictLength streamId length
      let (header, payload) ← ofExcept ((contentDecoder streamId).decode content)
      return { streamId, length, header, payload } := by
  rw [decoder, headDecoder, bind_assoc]
  congr 1
  funext startCode
  by_cases hcode : startCode = 1
  · simp only [hcode, ne_eq, not_true_eq_false, if_false, bind_assoc, pure_bind]
  · simp only [hcode, ne_eq, not_false_eq_true, if_true]
    rfl

/-- A unit with room for its length has a stream and a length if it begins with the start code. -/
theorem headDecoder_of_room (h : 6 ≤ bytes.length) :
    headDecoder (.ofBytes bytes) =
      if bytes.number 0 3 = 1 then
        .ok (streamIdIn bytes, lengthIn bytes) (.ofBytes (bytes.drop 6))
      else .error (.invalidStartCode (bytes.number 0 3)) (.ofBytes (bytes.drop 3)) := by
  have hstart : u24 (.ofBytes bytes) = .ok (bytes.number 0 3) (.ofBytes (bytes.drop 3)) :=
    u24_eq_ok.mpr ⟨by omega, rfl, rfl⟩
  have hid : u8 (.ofBytes (bytes.drop 3)) = .ok (bytes.number 3 4) (.ofBytes (bytes.drop 4)) := by
    refine u8_eq_ok.mpr ⟨?_, rfl, by rw [List.drop_drop]⟩
    rw [List.length_drop]
    omega
  have hlength : u16 (.ofBytes (bytes.drop 4)) =
      .ok (lengthIn bytes) (.ofBytes (bytes.drop 6)) := by
    refine u16_eq_ok.mpr ⟨?_, rfl, by rw [List.drop_drop]⟩
    rw [List.length_drop]
    omega
  rw [headDecoder, bind_of_ok hstart]
  by_cases hcode : bytes.number 0 3 = 1
  · simp only [hcode, ne_eq, not_true_eq_false, if_false, if_true]
    rw [bind_of_ok hid, bind_of_ok hlength]
    rfl
  · simp only [hcode, ne_eq, not_false_eq_true, if_true, if_false]
    rfl

/-- Without room for its length a unit has none. -/
theorem exists_error_of_short (h : bytes.length < 6) :
    ∃ e r, headDecoder (.ofBytes bytes) = .error e r := by
  cases hread : headDecoder (.ofBytes bytes) with
  | error e r => exact ⟨e, r, rfl⟩
  | ok head r =>
    obtain ⟨startCode, _, hstart, hread⟩ := bind_eq_ok.mp hread
    obtain ⟨_, _, rfl⟩ := u24_eq_ok.mp hstart
    by_cases hcode : startCode = 1
    · simp only [hcode, ne_eq, not_true_eq_false, if_false] at hread
      obtain ⟨_, _, hid, hread⟩ := bind_eq_ok.mp hread
      obtain ⟨_, _, rfl⟩ := u8_eq_ok.mp hid
      obtain ⟨_, _, hlength, _⟩ := bind_eq_ok.mp hread
      obtain ⟨hroom, _, _⟩ := u16_eq_ok.mp hlength
      rw [List.length_drop, List.length_drop] at hroom
      omega
    · simp only [hcode, ne_eq, not_false_eq_true, if_true] at hread
      cases hread

/-- A unit with room for its length is made of the bytes that belong to it, if it begins with the
start code. -/
theorem decode_eq (strictLength : Bool) (h : 6 ≤ bytes.length) :
    decode strictLength bytes =
      if bytes.number 0 3 = 1 then
        takenContent strictLength bytes >>= ofContent (streamIdIn bytes) (lengthIn bytes)
      else .error (.invalidStartCode (bytes.number 0 3)) := by
  have hhead := headDecoder_of_room h
  rw [decode, Decoder.decode, decoder_eq]
  by_cases hcode : bytes.number 0 3 = 1
  · rw [if_pos hcode] at hhead
    rw [if_pos hcode, bind_of_ok hhead]
    dsimp only
    have hbody := decode_body strictLength h
    cases htaken : takenContent strictLength bytes with
    | error e =>
      obtain ⟨r, hread⟩ := decode_eq_error.mp (hbody.trans htaken)
      rw [bind_of_error hread]
      rfl
    | ok content =>
      obtain ⟨r, hread⟩ := decode_eq_ok.mp (hbody.trans htaken)
      rw [bind_of_ok hread]
      have hunit : (Except.ok content >>= ofContent (streamIdIn bytes) (lengthIn bytes)) =
        ofContent (streamIdIn bytes) (lengthIn bytes) content := rfl
      rw [hunit, ofContent]
      cases (contentDecoder (streamIdIn bytes)).decode content with
      | ok found => rfl
      | error e => rfl
  · rw [if_neg hcode] at hhead
    rw [if_neg hcode, bind_of_error hhead]

/-- Fewer bytes than those up to the content are refused, however lengths are taken. -/
theorem decode_of_short (h : bytes.length < 6) :
    ∃ e, ∀ strictLength, decode strictLength bytes = .error e := by
  obtain ⟨e, r, hhead⟩ := exists_error_of_short h
  refine ⟨e, fun strictLength => decode_eq_error.mpr ⟨r, ?_⟩⟩
  rw [decoder_eq]
  exact bind_of_error hhead _

/-- Without a header all the content is payload. -/
theorem decode_content_of_headerless {streamId : StreamId} (h : streamId ∈ StreamId.headerless)
    (content : Bytes) : (contentDecoder streamId).decode content = .ok (none, content) := by
  have hheader : streamId.hasOptionalHeader = false := by
    simpa [StreamId.hasOptionalHeader] using h
  rw [contentDecoder, hheader]
  rfl

/-- Behind a header the payload begins where the length of the header ends. -/
theorem decode_content_eq_ok {streamId : StreamId} (h : streamId ∉ StreamId.headerless)
    {content : Bytes} {found : Option PesHeader × Bytes} :
    (contentDecoder streamId).decode content = .ok found ↔
      ∃ header, PesHeader.decoder (.ofBytes content) =
          .ok header (.ofBytes (content.drop (3 + PesHeader.lengthIn content))) ∧
        found = (some header, content.drop (3 + PesHeader.lengthIn content)) := by
  have hheader : streamId.hasOptionalHeader = true := by
    simpa [StreamId.hasOptionalHeader] using h
  rw [contentDecoder, hheader]
  cases hread : PesHeader.decoder (.ofBytes content) with
  | ok header r =>
    obtain ⟨_, rfl⟩ := (PesHeader.parses_decoder.reads_iff _ _).mp ⟨header, hread⟩
    have hfirst : ifFlag true PesHeader.decoder (.ofBytes content) =
        .ok (some header) (.ofBytes (content.drop (3 + PesHeader.lengthIn content))) := by
      simp only [ifFlag, if_true, Functor.map, EStateM.map, hread]
    rw [Decoder.decode, bind_of_ok hfirst]
    constructor
    · intro hfound
      cases hfound
      exact ⟨header, rfl, rfl⟩
    · rintro ⟨_, hsame, rfl⟩
      cases hsame
      rfl
  | error e r =>
    have hfirst : ifFlag true PesHeader.decoder (.ofBytes content) = .error e r := by
      simp only [ifFlag, if_true, Functor.map, EStateM.map, hread]
    rw [Decoder.decode, bind_of_error hfirst]
    simp

/-- The content is read exactly if it begins with a header, unless the stream has none. -/
theorem exists_content_iff {streamId : StreamId} {content : Bytes} :
    (∃ found, (contentDecoder streamId).decode content = .ok found) ↔
      streamId ∈ StreamId.headerless ∨ PesHeader.HasForm content := by
  by_cases h : streamId ∈ StreamId.headerless
  · exact ⟨fun _ => .inl h, fun _ => ⟨_, decode_content_of_headerless h content⟩⟩
  · have hform : (∃ header, PesHeader.decoder (.ofBytes content) =
        .ok header (.ofBytes (content.drop (3 + PesHeader.lengthIn content)))) ↔
          PesHeader.HasForm content :=
      (PesHeader.parses_decoder.reads_iff _ _).trans (and_iff_left rfl)
    simp only [decode_content_eq_ok h, or_iff_right h, ← hform]
    constructor
    · rintro ⟨_, header, hread, _⟩
      exact ⟨header, hread⟩
    · rintro ⟨header, hread⟩
      exact ⟨_, header, hread, rfl⟩

/-- The bytes that belong to a unit are taken exactly if they are there. -/
theorem takenContent_eq_ok {content : Bytes} :
    takenContent false bytes = .ok content ↔
      6 + lengthIn bytes ≤ bytes.length ∧ content = contentIn bytes := by
  have hlax : ¬ (lengthIn bytes = 0 ∧ false = true ∧ (streamIdIn bytes).isVideo = false) := by
    simp
  rw [takenContent, if_neg hlax]
  by_cases hroom : 6 + lengthIn bytes ≤ bytes.length
  · simp [hroom, eq_comm]
  · simp [hroom]

/-- A unit is decoded exactly if its content is there and can be read. -/
theorem decode_eq_ok_iff {unit : PesUnit} :
    decode false bytes = .ok unit ↔
      6 + lengthIn bytes ≤ bytes.length ∧ bytes.take 3 = [0, 0, 1] ∧
        ofContent (streamIdIn bytes) (lengthIn bytes) (contentIn bytes) = .ok unit := by
  by_cases hleast : 6 ≤ bytes.length
  · rw [decode_eq false hleast, ← startCode_iff (by omega)]
    by_cases hcode : bytes.number 0 3 = 1
    · rw [if_pos hcode, and_iff_right hcode]
      constructor
      · intro hunit
        cases htaken : takenContent false bytes with
        | error e =>
          rw [htaken] at hunit
          cases hunit
        | ok content =>
          obtain ⟨hroom, rfl⟩ := takenContent_eq_ok.mp htaken
          rw [htaken] at hunit
          exact ⟨hroom, hunit⟩
      · rintro ⟨hroom, hunit⟩
        rw [takenContent_eq_ok.mpr ⟨hroom, rfl⟩]
        exact hunit
    · simp [hcode]
  · obtain ⟨e, herror⟩ := decode_of_short (Nat.not_le.mp hleast)
    simp only [herror, reduceCtorEq, false_iff]
    rintro ⟨hroom, _⟩
    omega

/-- Where lengths are not taken strictly, units are exactly the bytes of their form. -/
theorem exists_unit_iff : (∃ unit, decode false bytes = .ok unit) ↔ HasForm bytes := by
  have hcontent : (∃ unit, ofContent (streamIdIn bytes) (lengthIn bytes) (contentIn bytes) =
      .ok unit) ↔ ∃ found, (contentDecoder (streamIdIn bytes)).decode (contentIn bytes) =
        .ok found := by
    unfold ofContent
    cases (contentDecoder (streamIdIn bytes)).decode (contentIn bytes) with
    | error e => simp [Except.map]
    | ok found => simp [Except.map]
  simp only [decode_eq_ok_iff, exists_and_left, hcontent, exists_content_iff]
  constructor
  · rintro ⟨hroom, hcode, hheader⟩
    exact ⟨by omega, hcode, hroom, hheader⟩
  · intro h
    exact ⟨h.room, h.startCode, h.header⟩

/-- The payload is what is behind the header, whatever stands in the header. -/
theorem payload_of_decode {unit : PesUnit} (h : decode false bytes = .ok unit) :
    unit.payload = payloadIn bytes := by
  obtain ⟨_, _, hunit⟩ := decode_eq_ok_iff.mp h
  unfold ofContent at hunit
  unfold payloadIn
  cases hread : (contentDecoder (streamIdIn bytes)).decode (contentIn bytes) with
  | error e =>
    rw [hread] at hunit
    cases hunit
  | ok found =>
    rw [hread] at hunit
    cases hunit
    by_cases hheader : streamIdIn bytes ∈ StreamId.headerless
    · rw [decode_content_of_headerless hheader] at hread
      cases hread
      rw [if_pos hheader]
    · obtain ⟨header, _, rfl⟩ := (decode_content_eq_ok hheader).mp hread
      rw [if_neg hheader]

/-- Bytes behind those that a length counts do not matter. -/
theorem decode_eq_of_take {others : Bytes} (hlength : lengthIn bytes ≠ 0)
    (h : others.take (6 + lengthIn bytes) = bytes.take (6 + lengthIn bytes))
    (strictLength : Bool) : decode strictLength others = decode strictLength bytes := by
  by_cases hroom : 6 + lengthIn bytes ≤ bytes.length
  · have hothers := le_length_of_take_eq hroom h
    have hstart : others.number 0 3 = bytes.number 0 3 := Bytes.number_eq_of_take h (by omega)
    have hid : streamIdIn others = streamIdIn bytes :=
      congrArg StreamId.mk (Bytes.number_eq_of_take h (by omega))
    have hsame : lengthIn others = lengthIn bytes := Bytes.number_eq_of_take h (by omega)
    have hcontent : contentIn others = contentIn bytes := by
      rw [contentIn, contentIn, hsame, if_neg hlength, if_neg hlength]
      exact extract_eq_of_take h (Nat.le_refl _)
    have htaken : takenContent strictLength others = takenContent strictLength bytes := by
      rw [takenContent, takenContent, hsame, hid, hcontent, if_pos hothers, if_pos hroom]
    rw [decode_eq strictLength (by omega), decode_eq strictLength (by omega), hstart, htaken, hid,
      hsame]
  · rw [eq_of_take_eq (Nat.not_le.mp hroom) h]

/-- A stream is not one of video if its code is outside of 0xe0 to 0xef. -/
theorem isVideo_eq_false_iff {streamId : StreamId} :
    streamId.isVideo = false ↔ ¬ (0xe0 ≤ streamId.code ∧ streamId.code ≤ 0xef) := by
  have hbounds : streamId.isVideo = false ↔
      ¬ 0xe0 ≤ streamId.code ∨ ¬ streamId.code ≤ 0xef := by
    rw [StreamId.isVideo, Bool.and_eq_false_iff, decide_eq_false_iff_not, decide_eq_false_iff_not]
    rfl
  rw [hbounds]
  omega

/-- Where lengths are taken strictly, a length that is left open is refused for any stream but
video. That is the only difference. -/
theorem decode_strict (bytes : Bytes) :
    decode true bytes =
      if 6 ≤ bytes.length ∧ bytes.take 3 = [0, 0, 1] ∧ lengthIn bytes = 0 ∧
          ¬ (0xe0 ≤ bytes.number 3 4 ∧ bytes.number 3 4 ≤ 0xef) then
        .error (.unboundedLength (bytes.number 3 4))
      else decode false bytes := by
  by_cases hleast : 6 ≤ bytes.length
  · have hcodes := startCode_iff (Nat.le_trans (by decide) hleast)
    rw [decode_eq true hleast, decode_eq false hleast]
    by_cases hcode : bytes.number 0 3 = 1
    · rw [if_pos hcode, if_pos hcode]
      by_cases hopen : lengthIn bytes = 0 ∧ ¬ (0xe0 ≤ bytes.number 3 4 ∧ bytes.number 3 4 ≤ 0xef)
      · rw [if_pos ⟨hleast, hcodes.mp hcode, hopen⟩, takenContent,
          if_pos ⟨hopen.1, rfl, isVideo_eq_false_iff.mpr hopen.2⟩]
        rfl
      · have hstrict : ¬ (lengthIn bytes = 0 ∧ true = true ∧ (streamIdIn bytes).isVideo = false) :=
          fun h => hopen ⟨h.1, isVideo_eq_false_iff.mp h.2.2⟩
        have hlax : ¬ (lengthIn bytes = 0 ∧ false = true ∧ (streamIdIn bytes).isVideo = false) :=
          fun h => Bool.false_ne_true h.2.1
        rw [if_neg fun h => hopen h.2.2, takenContent, takenContent, if_neg hstrict, if_neg hlax]
    · rw [if_neg hcode, if_neg hcode, if_neg fun h => hcode (hcodes.mpr h.2.1)]
  · obtain ⟨e, herror⟩ := decode_of_short (Nat.not_le.mp hleast)
    rw [herror, herror, if_neg fun h => hleast h.1]

/-- A unit is decoded exactly from the bytes that have its form. Its payload is then what is behind
the header, whatever the header holds. Bytes behind a length that is not left open do not matter.
Where lengths are taken strictly, a length that is left open is refused for any stream but video,
and all else is decoded alike. -/
theorem decoding_is_bounded :
    ∀ bytes,
      ((∃ unit, decode false bytes = .ok unit) ↔ HasForm bytes) ∧
      (∀ unit, decode false bytes = .ok unit → unit.payload = payloadIn bytes) ∧
      (lengthIn bytes ≠ 0 → ∀ others,
        others.take (6 + lengthIn bytes) = bytes.take (6 + lengthIn bytes) →
          ∀ strictLength, decode strictLength others = decode strictLength bytes) ∧
      decode true bytes =
        if 6 ≤ bytes.length ∧ bytes.take 3 = [0, 0, 1] ∧ lengthIn bytes = 0 ∧
            ¬ (0xe0 ≤ bytes.number 3 4 ∧ bytes.number 3 4 ≤ 0xef) then
          .error (.unboundedLength (bytes.number 3 4))
        else decode false bytes := by
  intro bytes
  refine ⟨exists_unit_iff, ?_, ?_, decode_strict bytes⟩
  · intro unit hdecode
    exact payload_of_decode hdecode
  · intro hlength others h strictLength
    exact decode_eq_of_take hlength h strictLength

/-- The parts may fill the length of the header to its last byte, and not reach beyond it. -/
example :
    let unit (length : UInt8) : Bytes := [0, 0, 1, 0xe0, 0, 0, 0x80, 0x80, length, 0x21, 0, 1, 0, 1,
      0xff]
    [4, 5, 6, 7].map (fun length => ((decode false (unit length)).map (·.payload)).toOption) =
      [none, some [0xff], some [], none] := by
  decide +kernel

end PesUnit

end TransportStream
