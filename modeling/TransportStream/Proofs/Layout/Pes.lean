import TransportStream.Layout.Pes
import TransportStream.Proofs.Layout.AdaptationField
import TransportStream.Proofs.Layout.Spelling
import TransportStream.Proofs.Pes.Acceptance

/-!
# Reading written PES units

A PES unit that can be written is read off its layout, whatever its markers, its reserved bits and
its stuffing are. Which parts a header has decides where each of them stands: it is read where the
parts before it end.
-/

namespace TransportStream

open Layout Decoder

namespace Decoder

/-- A time stamp behind four bits that do not matter. -/
theorem undoes_timestamp {t : Nat} (hfits : Fits (.free 4 :: ofTimestamp t)) (tail : Bytes) :
    Undoes (Prod.snd <$> nibbleAndTimestamp) (.free 4 :: ofTimestamp t) t tail := by
  unfold nibbleAndTimestamp
  rw [map_bind]
  refine undoes_fields (by rfl) hfits fun f hf => ?_
  rw [hf 1 (by decide) 3 _ rfl, hf 3 (by decide) 15 _ rfl, hf 5 (by decide) 15 _ rfl]
  exact timestamp_of_fits (fits_free_iff.mp hfits)

/-- The clock reference of a stream is read as it was written, whatever its markers are. -/
theorem undoes_streamClock {clock : ClockReference} (hfits : Fits (ofStreamClock clock))
    (tail : Bytes) : Undoes streamClock (ofStreamClock clock) clock tail := by
  unfold streamClock
  refine undoes_fields (by rfl) hfits fun f hf => ?_
  have hbase : Fits (ofTimestamp clock.base) :=
    (fits_append_iff.mp (fits_free_iff.mp hfits)).1
  rw [hf 1 (by decide) 3 _ rfl, hf 3 (by decide) 15 _ rfl, hf 5 (by decide) 15 _ rfl,
    hf 7 (by decide) 9 clock.extension rfl, timestamp_of_fits hbase]

end Decoder

/-- The rate of a stream is read as it was written, whatever its markers are. -/
theorem undoes_streamRate {rate : Nat} (hfits : Fits [.free 1, .value 22 rate, .free 1])
    (tail : Bytes) : Undoes streamRate [.free 1, .value 22 rate, .free 1] rate tail := by
  unfold streamRate
  exact undoes_fields (by rfl) hfits fun f hf => hf 1 (by decide) 22 rate rfl

/-- A trick mode is read as it was written. -/
theorem TrickMode.undoes_decoder {mode : TrickMode}
    (hfits : Fits [.value 3 mode.control, .value 5 mode.data]) (tail : Bytes) :
    Undoes TrickMode.decoder [.value 3 mode.control, .value 5 mode.data] mode tail := by
  unfold TrickMode.decoder
  refine undoes_fields (by rfl) hfits fun f hf => ?_
  rw [hf 0 (by decide) 3 mode.control rfl, hf 1 (by decide) 5 mode.data rfl]

/-- Information on copying is read as it was written, whatever its marker is. -/
theorem undoes_copyInfo {info : Nat} (hfits : Fits [.free 1, .value 7 info]) (tail : Bytes) :
    Undoes copyInfo [.free 1, .value 7 info] info tail := by
  unfold copyInfo
  exact undoes_fields (by rfl) hfits fun f hf => hf 1 (by decide) 7 info rfl

namespace PesHeader

variable {h : PesHeader}

/-- The bits in front of the length of a header. -/
def marksLayout (h : PesHeader) : Layout :=
  [.value 2 2, .value 2 h.scrambling, flag h.priority, flag h.aligned, flag h.copyright,
    flag h.uncopied]

/-- The flags that announce the parts of a header. -/
def flagsLayout (h : PesHeader) : Layout :=
  [.value 2 h.timeFlags, flag h.escr.isSome, flag h.rate.isSome, flag h.trickMode.isSome,
    flag h.copyInfo.isSome, flag h.previousCrc.isSome, flag h.extended]

/-- The layout of a header has five parts: the marks, the flags, the length, the parts that the
flags announce, and the stuffing. -/
theorem layout_eq (h : PesHeader) : h.layout = h.marksLayout ++ (h.flagsLayout ++
    ([.value 8 h.length] ++ (h.parts ++ [.free (8 * h.length - h.parts.size)]))) := by
  simp only [layout, marksLayout, flagsLayout, List.append_assoc]

/-- The two bits for the times tell which of them are there. -/
theorem timeFlags_spec (htimes : h.dts.isSome → h.pts.isSome) :
    h.timeFlags ≠ 1 ∧ decide (2 ≤ h.timeFlags) = h.pts.isSome ∧
      (h.timeFlags == 3) = h.dts.isSome := by
  unfold timeFlags
  cases hpts : h.pts.isSome <;> cases hdts : h.dts.isSome
  · decide
  · rw [hpts, hdts] at htimes
    exact absurd (htimes rfl) Bool.false_ne_true
  · decide
  · decide

/-- The parts of a header fill whole bytes. -/
theorem dvd_size_parts (h : PesHeader) : 8 ∣ h.parts.size := by
  simp only [parts, size_append]
  refine Nat.dvd_add (Nat.dvd_add (Nat.dvd_add (Nat.dvd_add (Nat.dvd_add (Nat.dvd_add ?_ ?_) ?_) ?_)
    ?_) ?_) ?_
  · exact dvd_size_ofOption fun _ _ => ⟨5, rfl⟩
  · exact dvd_size_ofOption fun _ _ => ⟨5, rfl⟩
  · exact dvd_size_ofOption fun _ _ => ⟨6, rfl⟩
  · exact dvd_size_ofOption fun _ _ => ⟨3, rfl⟩
  · exact dvd_size_ofOption fun _ _ => ⟨1, rfl⟩
  · exact dvd_size_ofOption fun _ _ => ⟨1, rfl⟩
  · exact dvd_size_ofOption fun _ _ => ⟨2, rfl⟩

/-- The parts of a header are read if its flags announce them, and with the marks and the length
they make up the header. -/
theorem undoes_partsDecoder {marks : Fields [2, 2, 1, 1, 1, 1]}
    {flags : Fields [2, 1, 1, 1, 1, 1, 1]} (hmarks : marks.Agrees h.marksLayout)
    (hflags : flags.Agrees h.flagsLayout) (hfits : h.parts.Fits)
    (htimes : h.dts.isSome → h.pts.isSome) (tail : Bytes) :
    Undoes (partsDecoder marks flags h.length) h.parts h tail := by
  obtain ⟨-, hpresent, hboth⟩ := timeFlags_spec htimes
  simp only [parts, fits_append_iff, fits_ofOption_iff] at hfits
  obtain ⟨⟨⟨⟨⟨⟨hpts, hdts⟩, hescr⟩, hrate⟩, hmode⟩, hinfo⟩, hcrc⟩ := hfits
  rw [partsDecoder, hmarks 1 (by decide) 2 _ rfl, hmarks.flag 2 (by decide) _ rfl,
    hmarks.flag 3 (by decide) _ rfl, hmarks.flag 4 (by decide) _ rfl,
    hmarks.flag 5 (by decide) _ rfl, hflags 0 (by decide) 2 _ rfl, hpresent, hboth,
    hflags.flag 1 (by decide) _ rfl, hflags.flag 2 (by decide) _ rfl,
    hflags.flag 3 (by decide) _ rfl, hflags.flag 4 (by decide) _ rfl,
    hflags.flag 5 (by decide) _ rfl, hflags.flag 6 (by decide) _ rfl]
  simp only [parts, List.append_assoc]
  rw [← List.append_nil (ofOption _ h.previousCrc)]
  refine .bind (fun _ => undoes_ifFlag fun t ht => undoes_timestamp (hpts t ht) _) ?_
  refine .bind (fun _ => undoes_ifFlag fun t ht => undoes_timestamp (hdts t ht) _) ?_
  refine .bind (fun _ => undoes_ifFlag fun c hc => undoes_streamClock (hescr c hc) _) ?_
  refine .bind (fun _ => undoes_ifFlag fun r hr => undoes_streamRate (hrate r hr) _) ?_
  refine .bind (fun _ => undoes_ifFlag fun m hm => TrickMode.undoes_decoder (hmode m hm) _) ?_
  refine .bind (fun _ => undoes_ifFlag fun i hi => undoes_copyInfo (hinfo i hi) _) ?_
  refine .bind (fun _ => undoes_ifFlag fun c hc =>
    undoes_u16 (hcrc c hc _ List.mem_cons_self) _) ?_
  exact undoes_pure h tail

/-- The header of a unit with any stuffing. -/
theorem undoes_decoder (hwritable : h.Writable) (tail : Bytes) :
    Undoes decoder h.layout h tail := by
  obtain ⟨hfits, htimes, hroom⟩ := hwritable
  rw [layout_eq] at hfits ⊢
  simp only [fits_append_iff] at hfits
  obtain ⟨hmarksFit, hflagsFit, hlength, hparts, -⟩ := hfits
  refine undoes_fields_bind (by rfl) hmarksFit fun marks hmarks => ?_
  rw [expectEq, hmarks 0 (by decide) 2 2 rfl, if_pos rfl]
  refine undoes_fields_bind (by rfl) hflagsFit fun flags hflags => ?_
  rw [expectNe, hflags 0 (by decide) 2 _ rfl, if_neg (timeFlags_spec htimes).1, pure_bind]
  refine .bind (undoes_u8 (hlength _ List.mem_cons_self)) ?_
  refine undoes_within ?_ h.dvd_size_parts
    (fun bytes _ => undoes_partsDecoder hmarks hflags hparts htimes bytes) tail
  simp only [size_append, size_free, size_nil]
  omega

/-- The numbers of a header fit their fields, and its length counts its parts and any stuffing
behind them. -/
structure InRange (h : PesHeader) : Prop where
  /-- How the payload is scrambled takes two bits. -/
  scrambling : h.scrambling < 2 ^ 2
  /-- There is a time of decoding only beside one of presentation. -/
  times : h.dts.isSome → h.pts.isSome
  /-- Times take 33 bits. -/
  pts : ∀ t ∈ h.pts, t < 2 ^ 33
  /-- Times take 33 bits. -/
  dts : ∀ t ∈ h.dts, t < 2 ^ 33
  /-- The clock reference takes 33 bits and nine further ones. -/
  escr : ∀ clock ∈ h.escr, clock.base < 2 ^ 33 ∧ clock.extension < 2 ^ 9
  /-- The rate takes 22 bits. -/
  rate : ∀ rate ∈ h.rate, rate < 2 ^ 22
  /-- The trick mode takes three bits and five further ones. -/
  trickMode : ∀ mode ∈ h.trickMode, mode.control < 2 ^ 3 ∧ mode.data < 2 ^ 5
  /-- Information on copying takes seven bits. -/
  copyInfo : ∀ info ∈ h.copyInfo, info < 2 ^ 7
  /-- The checksum takes 16 bits. -/
  previousCrc : ∀ crc ∈ h.previousCrc, crc < 2 ^ 16
  /-- The length takes one byte. -/
  length : h.length < 2 ^ 8
  /-- It has room for the parts. -/
  room : h.parts.size ≤ 8 * h.length

/-- A time stamp behind four bits fits if it has 33 bits. -/
theorem fits_timestamp {t : Nat} (ht : t < 2 ^ 33) : Fits (.free 4 :: ofTimestamp t) :=
  fits_free_iff.mpr (fits_ofTimestamp_iff.mpr ht)

/-- The clock reference of a stream fits if its base has 33 bits and its extension nine. -/
theorem fits_ofStreamClock {clock : ClockReference}
    (hclock : clock.base < 2 ^ 33 ∧ clock.extension < 2 ^ 9) : Fits (ofStreamClock clock) := by
  have hbase := fits_ofTimestamp_iff.mpr hclock.1
  have hextension : Fits [.value 9 clock.extension, .free 1] := by
    simpa only [fits_value_iff, fits_free_iff, fits_nil, and_true] using hclock.2
  exact fits_free_iff.mpr (fits_append_iff.mpr ⟨hbase, hextension⟩)

/-- The parts of a header in range fit their fields. -/
theorem InRange.fits_parts (hrange : h.InRange) : h.parts.Fits := by
  simp only [parts, fits_append_iff, fits_ofOption_iff]
  refine ⟨⟨⟨⟨⟨⟨?_, ?_⟩, ?_⟩, ?_⟩, ?_⟩, ?_⟩, ?_⟩
  · exact fun t ht => fits_timestamp (hrange.pts t ht)
  · exact fun t ht => fits_timestamp (hrange.dts t ht)
  · exact fun clock hclock => fits_ofStreamClock (hrange.escr clock hclock)
  · intro rate hrate
    simpa only [fits_value_iff, fits_free_iff, fits_nil, and_true] using hrange.rate rate hrate
  · intro mode hmode
    simpa only [fits_value_iff, fits_free_iff, fits_nil, and_true] using hrange.trickMode mode hmode
  · intro info hinfo
    simpa only [fits_value_iff, fits_free_iff, fits_nil, and_true] using hrange.copyInfo info hinfo
  · intro crc hcrc
    simpa only [fits_value_iff, fits_free_iff, fits_nil, and_true] using hrange.previousCrc crc hcrc

/-- The flags of a header always fit. -/
theorem fits_flagsLayout (h : PesHeader) : h.flagsLayout.Fits := by
  have htimes : h.timeFlags < 2 ^ 2 := by
    unfold timeFlags
    cases h.pts.isSome <;> cases h.dts.isSome <;> decide
  simpa only [flagsLayout, fits_value_iff, fits_flag_iff, fits_nil, and_true] using htimes

/-- A header in range can be written. -/
theorem InRange.writable (hrange : h.InRange) : h.Writable := by
  refine ⟨?_, hrange.times, hrange.room⟩
  have hmarks : h.marksLayout.Fits := by
    simpa only [marksLayout, fits_value_iff, fits_flag_iff, fits_nil, and_true] using
      And.intro (by decide : 2 < 2 ^ 2) hrange.scrambling
  have hlength : Fits [.value 8 h.length] := by
    simpa only [fits_value_iff, fits_free_iff, fits_nil, and_true] using hrange.length
  rw [layout_eq]
  simp only [fits_append_iff]
  exact ⟨hmarks, h.fits_flagsLayout, hlength, hrange.fits_parts, fits_free_iff.mpr fits_nil⟩

/-- The header takes three bytes and those that its length counts. -/
theorem size_layout (hroom : h.parts.size ≤ 8 * h.length) :
    h.layout.size = 8 * (3 + h.length) := by
  have hmarks : h.marksLayout.size = 8 := rfl
  have hflags : h.flagsLayout.size = 8 := rfl
  rw [layout_eq]
  simp only [size_append, size_value, size_free, size_nil, hmarks, hflags]
  omega

end PesHeader

namespace PesUnit

variable {u : PesUnit} {content encoded : Bytes}

/-- What belongs to a unit is its header, if it has one, and its payload. -/
theorem decode_content_of_writes (hwritable : u.Writable) (hcontent : u.content.Writes content)
    (tail : Bytes) :
    (contentDecoder u.streamId).decode (content ++ tail) = .ok (u.header, u.payload ++ tail) := by
  obtain ⟨-, hheader, hstream, -⟩ := hwritable
  have hundoes : ∀ behind, Undoes (ifFlag u.header.isSome PesHeader.decoder)
      (ofOption PesHeader.layout u.header) u.header behind :=
    fun behind => undoes_ifFlag fun h hh => PesHeader.undoes_decoder (hheader h hh) behind
  obtain ⟨left, right, rfl, hleft, hright⟩ := hcontent.split (hundoes []).whole
  rw [bytes_eq_of_writes_ofBytes hright, List.append_assoc, Decoder.decode, contentDecoder,
    ← hstream, bind_of_ok ((hundoes (u.payload ++ tail)).reads left hleft)]
  rfl

/-- A length that is not left open keeps the bytes behind a unit off, one that is takes them in. -/
theorem body_of_writes (hwritable : u.Writable) (hcontent : u.content.Writes content)
    (tail : Bytes) :
    ∃ r, body false u.streamId u.length (.ofBytes (content ++ tail)) =
      .ok (content ++ if u.length = 0 then tail else []) r := by
  obtain ⟨-, -, -, hlength⟩ := hwritable
  unfold body
  by_cases hopen : u.length = 0
  · rw [if_pos hopen, if_pos hopen]
    exact ⟨_, rfl⟩
  · have hsize : u.length = content.length := by
      have hcounted := hcontent.length_eq
      omega
    rw [if_neg hopen, if_neg hopen, List.append_nil, hsize]
    exact ⟨_, bytes_ofBytes content tail⟩

/-- A written unit is read. Whatever follows belongs to the payload if the length is left open, and
does not matter otherwise. -/
theorem decode_of_writes (hwritable : u.Writable) (hencoded : u.layout.Writes encoded)
    (tail : Bytes) :
    decode false (encoded ++ tail) =
      .ok { u with payload := u.payload ++ if u.length = 0 then tail else [] } := by
  have hlayout : u.layout = [.value 24 1] ++ ([.value 8 u.streamId.code] ++
      ([.value 16 u.length] ++ u.content)) := rfl
  have hfits := hwritable.1
  rw [hlayout] at hfits hencoded
  rw [fits_append_iff, fits_append_iff, fits_append_iff] at hfits
  obtain ⟨hcode, hid, hlength, -⟩ := hfits
  obtain ⟨first, _, rfl, hfirst, hencoded⟩ := hencoded.split ⟨3, rfl⟩
  obtain ⟨second, _, rfl, hsecond, hencoded⟩ := hencoded.split ⟨1, rfl⟩
  obtain ⟨third, content, rfl, hthird, hcontent⟩ := hencoded.split ⟨2, rfl⟩
  simp only [List.append_assoc]
  have hstart : u24 (.ofBytes (first ++ (second ++ (third ++ (content ++ tail))))) = _ :=
    (undoes_bits (by decide) (by decide) (hcode _ List.mem_cons_self) _).reads first hfirst
  have hstream := (undoes_u8 (hid _ List.mem_cons_self) (third ++ (content ++ tail))).reads
    second hsecond
  have hcount := (undoes_u16 (hlength _ List.mem_cons_self) (content ++ tail)).reads third hthird
  obtain ⟨r, hbody⟩ := body_of_writes hwritable hcontent tail
  have hread := decode_content_of_writes hwritable hcontent (if u.length = 0 then tail else [])
  rw [decode, Decoder.decode, decoder, bind_of_ok hstart]
  simp only [ne_eq, not_true_eq_false, if_false]
  rw [bind_of_ok hstream, bind_of_ok hcount, bind_of_ok hbody, hread]
  rfl

/-- Header and payload take the bytes that the length counts. -/
theorem size_content {streamId : StreamId} {header : PesHeader} {payload : Bytes} {length : Nat}
    (hheader : header.InRange) :
    (PesUnit.content ⟨streamId, length, some header, payload⟩).size =
      8 * (3 + header.length + payload.length) := by
  have hparts : PesUnit.content ⟨streamId, length, some header, payload⟩ =
    header.layout ++ ofBytes payload := rfl
  rw [hparts, size_append, size_ofBytes, PesHeader.size_layout hheader.room]
  omega

/-- A unit whose stream demands a header can be written with any header in range, if the length is
left open or counts the header and the payload. -/
theorem writable_of_inRange {streamId : StreamId} {header : PesHeader} {payload : Bytes}
    {length : Nat} (hid : streamId.code < 2 ^ 8) (hstream : streamId ∉ StreamId.headerless)
    (hheader : header.InRange) (hlength : length < 2 ^ 16)
    (hcounted : length = 0 ∨ length = 3 + header.length + payload.length) :
    Writable ⟨streamId, length, some header, payload⟩ := by
  have hwritable := hheader.writable
  refine ⟨?_, ?_, ?_, ?_⟩
  · have hnumbers : Fits [.value 24 1, .value 8 streamId.code, .value 16 length] := by
      simpa only [fits_value_iff, fits_nil, and_true] using
        And.intro (by decide : 1 < 2 ^ 24) (And.intro hid hlength)
    exact fits_append_iff.mpr ⟨hnumbers, fits_append_iff.mpr
      ⟨hwritable.1, (spells_ofBytes payload).1⟩⟩
  · rintro h ⟨⟩
    exact hwritable
  · simpa [StreamId.hasOptionalHeader] using hstream
  · rw [size_content hheader]
    exact hcounted.imp_right (congrArg (8 * ·))

/-- Every header whose numbers fit their fields can be written into a unit, and is read back with
its payload, whatever the markers, the reserved bits and the stuffing are. If the length is left
open, all bytes behind the unit belong to the payload. If not, they do not matter. -/
theorem header_is_read_back {streamId : StreamId} {header : PesHeader} {payload : Bytes}
    {length : Nat} (hid : streamId.code < 2 ^ 8) (hstream : streamId ∉ StreamId.headerless)
    (hheader : header.InRange) (hlength : length < 2 ^ 16)
    (hcounted : length = 0 ∨ length = 3 + header.length + payload.length) :
    (∃ encoded, (layout ⟨streamId, length, some header, payload⟩).Writes encoded) ∧
      ∀ encoded, (layout ⟨streamId, length, some header, payload⟩).Writes encoded →
        ∀ tail, ∃ unit, decode false (encoded ++ tail) = .ok unit ∧
          unit.streamId = streamId ∧ unit.length = length ∧ unit.header = some header ∧
          unit.payload = (if length = 0 then payload ++ tail else payload) ∧
          unit.pts = header.pts ∧ unit.dts = header.dts ∧
          (unit.header.bind (·.escr)).map (·.ticks) =
            header.escr.map fun clock => clock.base * 300 + clock.extension := by
  have hwritable := writable_of_inRange hid hstream hheader hlength hcounted
  constructor
  · apply exists_writes
    rw [layout, size_append, size_content hheader]
    exact Nat.dvd_add ⟨6, rfl⟩ (Nat.dvd_mul_right _ _)
  · intro encoded hencoded tail
    refine ⟨_, decode_of_writes hwritable hencoded tail, rfl, rfl, rfl, ?_, rfl, rfl, rfl⟩
    by_cases hopen : length = 0
    · simp only [if_pos hopen]
    · simp only [if_neg hopen, List.append_nil]

/-- All parts of a header with three bytes of stuffing behind them, and bytes behind the unit. -/
theorem header_is_read_back_all_parts :
    let header : PesHeader :=
      { scrambling := 1, priority := false, aligned := false, copyright := true, uncopied := true,
        extended := true, length := 26, pts := some (2 ^ 33 - 1),
        dts := some (2 ^ 32 + 2 ^ 15 + 1), escr := some ⟨123456, 77⟩, rate := some 0x800,
        trickMode := some ⟨1, 0x15⟩, copyInfo := some 0x2a, previousCrc := some 0xbeef }
    let encoded : Bytes :=
      [0, 0, 1, 0xbd, 0, 0x1f, 0x93, 0xff, 0x1a, 0x6f, 0xff, 0xff, 0xff, 0xfe, 0xd9, 0, 2, 0, 3,
        0x84, 0, 0x1f, 0x12, 0, 0x9b, 0x80, 0x10, 0, 0x35, 0xaa, 0xbe, 0xef, 0xb6, 0xdb, 0x6d, 0xaa,
        0xbb]
    ∃ unit, decode false (encoded ++ [0xde, 0xad]) = .ok unit ∧ unit.header = some header ∧
      unit.payload = [0xaa, 0xbb] ∧ unit.pts = some 8589934591 ∧ unit.dts = some 4295000065 ∧
      (unit.header.bind (·.escr)).map (·.ticks) = some 37036877 := by
  intro header encoded
  have hheader : header.InRange :=
    ⟨by decide, by decide, by decide, by decide, by decide, by decide, by decide, by decide,
      by decide, by decide, by decide⟩
  have hwrites : (layout ⟨⟨0xbd⟩, 31, some header, [0xaa, 0xbb]⟩).Writes encoded :=
    ⟨(List.range 47).map (· % 3 != 0), by decide, by decide +kernel⟩
  obtain ⟨unit, hdecode, -, -, hfound, hpayload, hpts, hdts, hescr⟩ :=
    (header_is_read_back (by decide) (by decide) hheader (by decide) (.inr rfl)).2 encoded hwrites
      [0xde, 0xad]
  exact ⟨unit, hdecode, hfound, hpayload, hpts, hdts, hescr⟩

end PesUnit

end TransportStream
