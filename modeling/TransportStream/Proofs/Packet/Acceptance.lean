import TransportStream.Layout.Packet
import TransportStream.Proofs.Bits.Values
import TransportStream.Proofs.Packet.AdaptationForm
import TransportStream.Proofs.Tables.Places

/-!
# Which bytes are packets

Bytes are a packet on four conditions: on their number, on the sync byte, on the bit that tells of
damage, and on the adaptation field if one is announced. The first one that is violated is the
error. A packet that was decoded accounts for all its bytes, since the payload begins where the
adaptation field ends.
-/

namespace TransportStream

open Decoder Layout

namespace AdaptationField

variable {bytes : Bytes} {field : AdaptationField}

/-- A field keeps the length that it was counted with. -/
theorem gives_countedDecoder (length : Nat) :
    Gives (·.length = length) (countedDecoder length) := by
  unfold countedDecoder
  split
  case isTrue => exact gives_pure rfl
  case isFalse =>
    have hparts : Gives (·.length = length) (partsDecoder length) :=
      gives_bind fun _ => gives_bind fun _ => gives_bind fun _ => gives_bind fun _ =>
        gives_bind fun _ => gives_bind fun _ => gives_pure rfl
    exact hparts.within length

/-- A field that is decoded has the length that its first byte tells. -/
theorem length_of_decode (h : decoder.decode bytes = .ok field) :
    field.length = lengthIn bytes := by
  obtain ⟨r, hread⟩ := decode_eq_ok.mp h
  obtain ⟨length, r', hlength, hcounted⟩ := bind_eq_ok.mp hread
  obtain ⟨_, rfl, rfl⟩ := u8_eq_ok.mp hlength
  exact gives_countedDecoder _ _ _ _ hcounted

/-- A field that is decoded is moved over. -/
theorem decoder_of_decode (h : decoder.decode bytes = .ok field) :
    1 + field.length ≤ bytes.length ∧
      decoder (.ofBytes bytes) = .ok field (.ofBytes (bytes.drop (1 + field.length))) := by
  obtain ⟨r, hread⟩ := decode_eq_ok.mp h
  obtain ⟨hform, rfl⟩ := (parses_decoder.reads_iff bytes r).mp ⟨field, hread⟩
  rw [length_of_decode h]
  exact ⟨hform.room, hread⟩

end AdaptationField

namespace Packet

/-- The fields in the head of a packet, behind its sync byte. -/
def headIn (bytes : Bytes) : Fields [1, 1, 1, 13, 2, 2, 4] := ⟨bytes.number 1 4⟩

/-- What the adaptation field is decoded to, if the head announces one. -/
def adaptationIn (bytes : Bytes) : Except DecodeError (Option AdaptationField) :=
  if (bytes.number 3 4).testBit 5 then (AdaptationField.decoder.decode (bytes.drop 4)).map some
  else .ok none

/-- The number of bytes in front of the payload. -/
def payloadPlace (adaptation : Option AdaptationField) : Nat :=
  4 + adaptation.elim 0 (1 + ·.length)

/-- The packet with a given adaptation field, of which all else is at its place: the flags and
numbers in the three bytes behind the sync byte, the payload at the end. -/
def atPlaces (bytes : Bytes) (adaptation : Option AdaptationField) : Packet where
  unitStart := (bytes.number 1 4).testBit 22
  priority := (bytes.number 1 4).testBit 21
  pid := bytes.number 1 4 / 2 ^ 8 % 2 ^ 13
  scrambling := bytes.number 1 4 / 2 ^ 6 % 2 ^ 2
  counter := bytes.number 1 4 % 2 ^ 4
  adaptation
  payload :=
    if (bytes.number 3 4).testBit 4 then some (bytes.drop (payloadPlace adaptation)) else none

/-- Bytes are a packet. -/
structure HasForm (bytes : Bytes) : Prop where
  /-- They are as many as a packet has. -/
  size : bytes.length = packetSize
  /-- The first one is the sync byte. -/
  sync : bytes.head? = some syncByte
  /-- The top bit of the second one does not tell of damage. -/
  intact : (bytes.number 1 2).testBit 7 = false
  /-- If a bit of the fourth one announces an adaptation field, the bytes behind begin with one. -/
  adaptation : (bytes.number 3 4).testBit 5 = true →
    ∃ field, AdaptationField.decoder.decode (bytes.drop 4) = .ok field

variable {bytes : Bytes}

/-- Each flag in the head is a bit of the byte that it stands in. -/
theorem flags_headIn (h : 4 ≤ bytes.length) :
    (headIn bytes).flag 0 = (bytes.number 1 2).testBit 7 ∧
      ((headIn bytes).get 5).testBit 1 = (bytes.number 3 4).testBit 5 ∧
      ((headIn bytes).get 5).testBit 0 = (bytes.number 3 4).testBit 4 := by
  have hdamage : (bytes.number 1 4).testBit (8 * (4 - (1 + 1)) + 7) =
      (bytes.number 1 2).testBit 7 :=
    Bytes.testBit_number (by decide) (by decide) h (by decide)
  have hadaptation : (bytes.number 1 4).testBit (8 * (4 - (3 + 1)) + 5) =
      (bytes.number 3 4).testBit 5 :=
    Bytes.testBit_number (by decide) (by decide) h (by decide)
  have hpayload : (bytes.number 1 4).testBit (8 * (4 - (3 + 1)) + 4) =
      (bytes.number 3 4).testBit 4 :=
    Bytes.testBit_number (by decide) (by decide) h (by decide)
  refine ⟨(Fields.flag_eq _ _ _ rfl).trans hdamage, ?_, ?_⟩
  · rw [Fields.get_eq, ← hadaptation, Nat.testBit_mod_two_pow, Nat.testBit_div_two_pow]
    rfl
  · rw [Fields.get_eq, ← hpayload, Nat.testBit_mod_two_pow, Nat.testBit_div_two_pow]
    rfl

/-- The other fields in the head are at their places. -/
theorem get_headIn (bytes : Bytes) (adaptation : Option AdaptationField) :
    (headIn bytes).flag 1 = (atPlaces bytes adaptation).unitStart ∧
      (headIn bytes).flag 2 = (atPlaces bytes adaptation).priority ∧
      (headIn bytes).get 3 = (atPlaces bytes adaptation).pid ∧
      (headIn bytes).get 4 = (atPlaces bytes adaptation).scrambling ∧
      (headIn bytes).get 6 = (atPlaces bytes adaptation).counter := by
  refine ⟨Fields.flag_eq _ _ _ rfl, Fields.flag_eq _ _ _ rfl, Fields.get_eq _ _ _,
    Fields.get_eq _ _ _, ?_⟩
  rw [Fields.get_eq]
  exact congrArg (· % 2 ^ 4) (Nat.div_one _)

/-- Reads the payload if there is one, and makes a packet with it. -/
def payloadDecoder (announced : Bool) (packet : Option Bytes → Packet) : Decoder Packet := do
  let payload ← ifFlag announced rest
  return packet payload

/-- A packet is read in four parts: the sync byte, the head, the adaptation field and the
payload. -/
theorem decoder_eq : decoder = u8 >>= fun sync =>
    if sync ≠ syncByte.toNat then throw (.invalidSyncByte sync)
    else fields [1, 1, 1, 13, 2, 2, 4] >>= fun head =>
      if head.flag 0 then throw .transportError
      else ifFlag ((head.get 5).testBit 1) AdaptationField.decoder >>= fun adaptation =>
        payloadDecoder ((head.get 5).testBit 0) fun payload =>
          ⟨head.flag 1, head.flag 2, head.get 3, head.get 4, head.get 6, adaptation, payload⟩ := by
  rfl

/-- Where the payload begins, the rest of the packet is read without fail. -/
theorem payloadDecoder_eq (bytes : Bytes) (adaptation : Option AdaptationField) :
    payloadDecoder ((bytes.number 3 4).testBit 4)
        (fun payload => { atPlaces bytes adaptation with payload })
        (.ofBytes (bytes.drop (payloadPlace adaptation))) =
      .ok (atPlaces bytes adaptation) (.ofBytes (bytes.drop (payloadPlace adaptation))) := by
  rw [payloadDecoder, atPlaces]
  cases (bytes.number 3 4).testBit 4 with
  | false => rfl
  | true => rfl

/-- Behind the head the adaptation field decides what is decoded, if it is announced. -/
theorem decode_behindHead (bytes : Bytes) :
    (ifFlag ((bytes.number 3 4).testBit 5) AdaptationField.decoder >>= fun adaptation =>
      payloadDecoder ((bytes.number 3 4).testBit 4) fun payload =>
        { atPlaces bytes adaptation with payload }).decode (bytes.drop 4) =
          (adaptationIn bytes).map (atPlaces bytes) := by
  rw [adaptationIn]
  cases (bytes.number 3 4).testBit 5 with
  | false => exact decode_eq_ok.mpr ⟨_, payloadDecoder_eq bytes none⟩
  | true =>
    simp only [ifFlag, if_true, map_eq_pure_bind, bind_assoc, pure_bind]
    cases hfield : AdaptationField.decoder.decode (bytes.drop 4) with
    | ok field =>
      obtain ⟨-, hread⟩ := AdaptationField.decoder_of_decode hfield
      rw [List.drop_drop] at hread
      rw [decode_bind_of_ok hread]
      exact decode_eq_ok.mpr ⟨_, payloadDecoder_eq bytes (some field)⟩
    | error e =>
      obtain ⟨r, hread⟩ := decode_eq_error.mp hfield
      exact decode_eq_error.mpr ⟨r, bind_of_error hread _⟩

/-- A packet is decoded from its places, unless a condition is violated. -/
theorem decode_eq (bytes : Bytes) :
    decode bytes =
      if bytes.length ≠ packetSize then .error (.invalidPacketSize bytes.length)
      else if bytes.number 0 1 ≠ syncByte.toNat then .error (.invalidSyncByte (bytes.number 0 1))
      else if (bytes.number 1 2).testBit 7 then .error .transportError
      else (adaptationIn bytes).map (atPlaces bytes) := by
  by_cases hsize : bytes.length = packetSize
  case neg => rw [decode, if_neg hsize, if_pos hsize]
  have hroom : 4 ≤ bytes.length := by
    rw [hsize]
    decide
  have hsync : u8 (.ofBytes bytes) = .ok (bytes.number 0 1) (.ofBytes (bytes.drop 1)) :=
    u8_eq_ok.mpr ⟨by omega, rfl, rfl⟩
  have hhead : fields [1, 1, 1, 13, 2, 2, 4] (by decide) (.ofBytes (bytes.drop 1)) =
      .ok (headIn bytes) (.ofBytes (bytes.drop 4)) :=
    (fields_eq_ok (k := 3) rfl).mpr ⟨by rw [List.length_drop]; omega, rfl, by rw [List.drop_drop]⟩
  obtain ⟨hdamage, hadaptation, hpayload⟩ := flags_headIn hroom
  have hparts : ∀ adaptation payload, (⟨(headIn bytes).flag 1, (headIn bytes).flag 2,
      (headIn bytes).get 3, (headIn bytes).get 4, (headIn bytes).get 6, adaptation, payload⟩ :
        Packet) = { atPlaces bytes adaptation with payload } := by
    intro adaptation payload
    obtain ⟨hstart, hpriority, hpid, hscrambling, hcounter⟩ := get_headIn bytes adaptation
    rw [hstart, hpriority, hpid, hscrambling, hcounter]
    rfl
  rw [decode, if_pos hsize, if_neg (not_not_intro hsize), decoder_eq, decode_bind_of_ok hsync]
  by_cases hbyte : bytes.number 0 1 = syncByte.toNat
  case neg =>
    rw [if_pos hbyte, if_pos hbyte]
    rfl
  rw [if_neg (not_not_intro hbyte), if_neg (not_not_intro hbyte), decode_bind_of_ok hhead, hdamage]
  cases (bytes.number 1 2).testBit 7 with
  | true => rfl
  | false =>
    simp only [hadaptation, hpayload, hparts]
    exact decode_behindHead bytes

/-- An adaptation field is there exactly if it is announced, and is what its bytes are decoded
to. -/
theorem adaptationIn_eq_ok {adaptation : Option AdaptationField} :
    adaptationIn bytes = .ok adaptation ↔
      adaptation.isSome = (bytes.number 3 4).testBit 5 ∧
        ∀ field ∈ adaptation, AdaptationField.decoder.decode (bytes.drop 4) = .ok field := by
  unfold adaptationIn
  cases (bytes.number 3 4).testBit 5 with
  | false => cases adaptation <;> simp
  | true =>
    cases AdaptationField.decoder.decode (bytes.drop 4) with
    | ok field => cases adaptation <;> simp [Except.map]
    | error e => cases adaptation <;> simp [Except.map]

/-- Bytes of the form of a packet have an adaptation field that can be decoded, if one is
announced. -/
theorem HasForm.exists_adaptation (h : HasForm bytes) :
    ∃ adaptation, adaptationIn bytes = .ok adaptation := by
  cases hset : (bytes.number 3 4).testBit 5 with
  | false => exact ⟨none, adaptationIn_eq_ok.mpr ⟨hset.symm, by simp⟩⟩
  | true =>
    obtain ⟨field, hfield⟩ := h.adaptation hset
    refine ⟨some field, adaptationIn_eq_ok.mpr ⟨hset.symm, ?_⟩⟩
    rintro _ ⟨⟩
    exact hfield

/-- The number of the first byte tells whether it is the sync byte. -/
theorem number_eq_syncByte_iff (h : bytes.length = packetSize) :
    bytes.number 0 1 = syncByte.toNat ↔ bytes.head? = some syncByte := by
  cases bytes with
  | nil => cases h
  | cons byte behind =>
    have hnumber : Bytes.number (byte :: behind) 0 1 = byte.toNat := by
      simp [Bytes.number, Bytes.toNat]
    rw [hnumber, UInt8.toNat_inj, List.head?_cons, Option.some.injEq]

/-- Bytes are decoded exactly if they are a packet, and then from their places. -/
theorem decode_eq_ok_iff {packet : Packet} : decode bytes = .ok packet ↔
    HasForm bytes ∧ ∃ adaptation, adaptationIn bytes = .ok adaptation ∧
      packet = atPlaces bytes adaptation := by
  rw [decode_eq]
  constructor
  · intro h
    split at h
    case isTrue => cases h
    case isFalse hsize =>
    split at h
    case isTrue => cases h
    case isFalse hbyte =>
    split at h
    case isTrue => cases h
    case isFalse hintact =>
    cases hread : adaptationIn bytes with
    | error e =>
      rw [hread] at h
      cases h
    | ok adaptation =>
      rw [hread] at h
      cases h
      have hsize := Decidable.not_not.mp hsize
      have hsync := (number_eq_syncByte_iff hsize).mp (Decidable.not_not.mp hbyte)
      obtain ⟨hannounced, hfield⟩ := adaptationIn_eq_ok.mp hread
      refine ⟨⟨hsize, hsync, Bool.eq_false_iff.mpr hintact, fun hset => ?_⟩, adaptation, rfl,
        rfl⟩
      rw [← hannounced] at hset
      obtain ⟨field, rfl⟩ := Option.isSome_iff_exists.mp hset
      exact ⟨field, hfield field rfl⟩
  · rintro ⟨hform, adaptation, hread, rfl⟩
    have hbyte := (number_eq_syncByte_iff hform.size).mpr hform.sync
    rw [if_neg (not_not_intro hform.size), if_neg (not_not_intro hbyte), hform.intact,
      if_neg Bool.false_ne_true, hread]
    rfl

/-- A number of two bits is made of these. -/
theorem eq_of_two_bits {n : Nat} (h : n < 4) :
    n = 2 * (n.testBit 1).toNat + (n.testBit 0).toNat := by
  rw [toNat_testBit, toNat_testBit]
  omega

/-- There is a payload exactly if the head announces one. -/
theorem isSome_payload (bytes : Bytes) (adaptation : Option AdaptationField) :
    (atPlaces bytes adaptation).payload.isSome = (bytes.number 3 4).testBit 4 := by
  rw [atPlaces]
  cases (bytes.number 3 4).testBit 4 <;> rfl

/-- The control field is what the adaptation field and the payload make it. -/
theorem control_atPlaces {adaptation : Option AdaptationField} (h : 4 ≤ bytes.length)
    (hread : adaptationIn bytes = .ok adaptation) :
    (atPlaces bytes adaptation).control = (headIn bytes).get 5 := by
  obtain ⟨-, hadaptation, hpayload⟩ := flags_headIn h
  obtain ⟨hannounced, -⟩ := adaptationIn_eq_ok.mp hread
  have hadapted : (atPlaces bytes adaptation).adaptation.isSome = (bytes.number 3 4).testBit 5 :=
    hannounced
  rw [eq_of_two_bits ((headIn bytes).get_lt 5 (by decide)), control, isSome_payload, hadapted,
    hadaptation, hpayload]

/-- The head of a packet is written as it is read. -/
theorem spells_headLayout {adaptation : Option AdaptationField} (hform : HasForm bytes)
    (hread : adaptationIn bytes = .ok adaptation) :
    (atPlaces bytes adaptation).headLayout.Spells (bytes.take 4) := by
  have hroom : 4 ≤ bytes.length := by
    rw [hform.size]
    decide
  have hsplit : bytes.take 4 = bytes.extract 0 1 ++ bytes.extract 1 4 :=
    (extract_append_extract bytes (by decide : 0 ≤ 1) (by decide : 1 ≤ 4)).symm
  have hsync : Spells [.value 8 syncByte.toNat] (bytes.extract 0 1) := by
    rw [← (number_eq_syncByte_iff hform.size).mpr hform.sync]
    exact spells_number_at (by omega) rfl
  obtain ⟨hdamage, -, -⟩ := flags_headIn hroom
  obtain ⟨hstart, hpriority, hpid, hscrambling, hcounter⟩ := get_headIn bytes adaptation
  have hcontrol := control_atPlaces hroom hread
  rw [hform.intact] at hdamage
  rw [hsplit]
  generalize atPlaces bytes adaptation = packet at *
  refine hsync.append (spells_of_agrees ?_ ?_)
  · rw [length_extract hroom]
    rfl
  · rintro (_ | _ | _ | _ | _ | _ | _ | i) hi width n hpiece
    · cases hpiece
      rw [← hdamage]
      exact (headIn bytes).get_of_flag 0 (by decide) rfl
    · cases hpiece
      rw [← hstart]
      exact (headIn bytes).get_of_flag 1 (by decide) rfl
    · cases hpiece
      rw [← hpriority]
      exact (headIn bytes).get_of_flag 2 (by decide) rfl
    · cases hpiece
      exact hpid
    · cases hpiece
      exact hscrambling
    · cases hpiece
      exact hcontrol.symm
    · cases hpiece
      exact hcounter
    · simp at hpiece

/-- The payload is all that stands behind the adaptation field. -/
theorem eq_drop_of_mem_payload {adaptation : Option AdaptationField} {payload : Bytes}
    (h : payload ∈ (atPlaces bytes adaptation).payload) :
    payload = bytes.drop (payloadPlace adaptation) := by
  rw [atPlaces] at h
  cases hset : (bytes.number 3 4).testBit 4 with
  | false =>
    rw [hset] at h
    cases h
  | true =>
    rw [hset] at h
    cases h
    rfl

/-- The adaptation field of a packet ends within it. -/
theorem payloadPlace_le {adaptation : Option AdaptationField} (hform : HasForm bytes)
    (hread : adaptationIn bytes = .ok adaptation) : payloadPlace adaptation ≤ packetSize := by
  cases adaptation with
  | none => decide
  | some field =>
    obtain ⟨-, hfield⟩ := adaptationIn_eq_ok.mp hread
    obtain ⟨hroom, -⟩ := AdaptationField.decoder_of_decode (hfield field rfl)
    rw [List.length_drop, hform.size] at hroom
    have hsize : packetSize = 188 := rfl
    rw [payloadPlace, Option.elim_some]
    omega

/-- Bytes are decoded to a packet exactly if they are as many as it has, begin with the sync byte,
do not tell of damage, and have an adaptation field behind the head if it announces one. The first
of these conditions that they violate decides the error. A packet that was decoded accounts for all
of them: its head is written in the first four, its adaptation field is decoded behind these, and
its payload is what follows up to the end. -/
theorem decoding_accounts_for_every_byte :
    ∀ bytes : Bytes,
      ((∃ packet, decode bytes = .ok packet) ↔ HasForm bytes) ∧
      (decode bytes =
        if bytes.length ≠ packetSize then .error (.invalidPacketSize bytes.length)
        else if bytes.number 0 1 ≠ syncByte.toNat then .error (.invalidSyncByte (bytes.number 0 1))
        else if (bytes.number 1 2).testBit 7 then .error .transportError
        else (adaptationIn bytes).map (atPlaces bytes)) ∧
      ∀ packet, decode bytes = .ok packet →
        packet.headLayout.Fits ∧ Bytes.bits (bytes.take 4) = packet.headLayout.write [] ∧
        packet.adaptation.isSome = (bytes.number 3 4).testBit 5 ∧
        (∀ field ∈ packet.adaptation, AdaptationField.decoder.decode (bytes.drop 4) = .ok field) ∧
        packet.payload.isSome = (bytes.number 3 4).testBit 4 ∧
        ∀ payload ∈ packet.payload,
          4 + packet.adaptation.elim 0 (1 + ·.length) + payload.length = packetSize ∧
            payload = bytes.drop (packetSize - payload.length) := by
  intro bytes
  refine ⟨⟨?_, ?_⟩, decode_eq bytes, ?_⟩
  · rintro ⟨packet, hdecode⟩
    exact (decode_eq_ok_iff.mp hdecode).1
  · intro hform
    obtain ⟨adaptation, hread⟩ := hform.exists_adaptation
    exact ⟨_, decode_eq_ok_iff.mpr ⟨hform, adaptation, hread, rfl⟩⟩
  · intro packet hdecode
    obtain ⟨hform, adaptation, hread, rfl⟩ := decode_eq_ok_iff.mp hdecode
    obtain ⟨hannounced, hfield⟩ := adaptationIn_eq_ok.mp hread
    obtain ⟨hfits, fill, hfill, hbits⟩ := spells_headLayout hform hread
    cases List.eq_nil_of_length_eq_zero hfill
    refine ⟨hfits, hbits, hannounced, hfield, isSome_payload _ _, ?_⟩
    intro payload hpayload
    have hplace := payloadPlace_le hform hread
    have hlength : payload.length = packetSize - payloadPlace adaptation := by
      rw [eq_drop_of_mem_payload hpayload, List.length_drop, hform.size]
    rw [hlength, Nat.sub_sub_self hplace]
    exact ⟨Nat.add_sub_cancel' hplace, eq_drop_of_mem_payload hpayload⟩

/-- An adaptation field may leave no byte to the payload, but may not leave the packet. -/
example :
    let packet (length : UInt8) : Bytes := [0x47, 0, 0, 0x30, length] ++ List.replicate 183 0
    [182, 183, 184].map (fun length => ((decode (packet length)).toOption.bind (·.payload))) =
      [some [0], some [], none] := by
  decide +kernel

end Packet

end TransportStream
