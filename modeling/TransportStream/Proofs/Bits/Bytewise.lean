import TransportStream.Proofs.Bits.Decoding
import TransportStream.Proofs.Bits.Progress

/-!
# Reading whole bytes

At a byte boundary a decoder of whole bytes gives a value exactly if enough bytes are ahead. The
value is then made of these bytes, and the reader stands behind them. Items that are read again and
again tile the bytes that they are read off.
-/

namespace TransportStream

/-- Bytes are tiled by items of a form: one begins where the one before ends. -/
inductive Tiled {α : Type} (form : Bytes → α → Prop) : Bytes → List α → Prop
  /-- No bytes are left. -/
  | nil : Tiled form [] []
  /-- The bytes begin with an item, and are tiled behind it. -/
  | cons {item rest : Bytes} {a : α} {as : List α} (h : form item a) (hrest : Tiled form rest as) :
      Tiled form (item ++ rest) (a :: as)

namespace Decoder

variable {α : Type} {s : Bytes} {r : BitReader} {k n : Nat} {a : α} {widths : List Nat}

/-- Whole bytes are moved over exactly if they are ahead. -/
theorem consume_eq_ok_of_bytes {value : BitReader → α} :
    consume (8 * k) value (.ofBytes s) = .ok a r ↔
      k ≤ s.length ∧ a = value (.ofBytes s) ∧ r = .ofBytes (s.drop k) := by
  have havailable : (BitReader.ofBytes s).available = 8 * s.length := rfl
  have hadvance : ∀ h : 8 * k ≤ (BitReader.ofBytes s).available,
      (BitReader.ofBytes s).advance (8 * k) h = .ofBytes (s.drop k) := by
    intro h
    simp [BitReader.advance, BitReader.ofBytes]
  rw [consume_eq_ok]
  constructor
  · rintro ⟨_, hroom, rfl, rfl⟩
    exact ⟨by omega, rfl, hadvance hroom⟩
  · rintro ⟨hroom, rfl, rfl⟩
    exact ⟨rfl, by omega, rfl, (hadvance _).symm⟩

/-- A number of whole bytes is given exactly if these are ahead. It is the one that they write. -/
theorem bits_eq_ok (hk : 8 * k ≤ 64) : bits (8 * k) (.ofBytes s) = .ok n r ↔
    k ≤ s.length ∧ n = Bytes.toNat (s.take k) ∧ r = .ofBytes (s.drop k) := by
  rw [bits, if_neg (Nat.not_lt.mpr hk), consume_eq_ok_of_bytes]
  refine and_congr_right fun hroom => ?_
  have hpeek : (BitReader.ofBytes s).peek (8 * k) = Bytes.toNat (s.take k) := by
    have havailable : 8 * k ≤ (BitReader.ofBytes s).available := Nat.mul_le_mul_left 8 hroom
    rw [BitReader.peek_eq _ _ havailable, BitReader.bits_ofBytes, ← Bytes.bits_take,
      Bytes.bitsToNat_bits]
  rw [hpeek]

/-- A number of eight bits takes one byte. -/
theorem u8_eq_ok : u8 (.ofBytes s) = .ok n r ↔
    1 ≤ s.length ∧ n = Bytes.toNat (s.take 1) ∧ r = .ofBytes (s.drop 1) :=
  bits_eq_ok (k := 1) (by decide)

/-- A number of eight bits is that of the first byte. -/
theorem u8_cons (byte : UInt8) (behind : Bytes) :
    u8 (.ofBytes (byte :: behind)) = .ok byte.toNat (.ofBytes behind) :=
  u8_eq_ok.mpr ⟨by simp, by simp [Bytes.toNat], rfl⟩

/-- If a number of eight bits is read, there is a first byte, and the number is that byte. -/
theorem exists_of_u8 (h : u8 (.ofBytes s) = .ok n r) :
    ∃ (byte : UInt8) (behind : Bytes), s = byte :: behind ∧ n = byte.toNat ∧
      r = .ofBytes behind := by
  cases s with
  | nil => cases h
  | cons byte behind =>
    rw [u8_cons] at h
    cases h
    exact ⟨byte, behind, rfl, rfl, rfl⟩

/-- A number of 16 bits takes two bytes. -/
theorem u16_eq_ok : u16 (.ofBytes s) = .ok n r ↔
    2 ≤ s.length ∧ n = Bytes.toNat (s.take 2) ∧ r = .ofBytes (s.drop 2) :=
  bits_eq_ok (k := 2) (by decide)

/-- A number of 24 bits takes three bytes. -/
theorem u24_eq_ok : u24 (.ofBytes s) = .ok n r ↔
    3 ≤ s.length ∧ n = Bytes.toNat (s.take 3) ∧ r = .ofBytes (s.drop 3) :=
  bits_eq_ok (k := 3) (by decide)

/-- A number of 32 bits takes four bytes. -/
theorem u32_eq_ok : u32 (.ofBytes s) = .ok n r ↔
    4 ≤ s.length ∧ n = Bytes.toNat (s.take 4) ∧ r = .ofBytes (s.drop 4) :=
  bits_eq_ok (k := 4) (by decide)

/-- Fields are those of the number that their bytes write. -/
theorem fields_eq_ok {hpacked : PackedWidths widths} {f : Fields widths}
    (hk : totalWidth widths = 8 * k) : fields widths hpacked (.ofBytes s) = .ok f r ↔
      k ≤ s.length ∧ f = ⟨Bytes.toNat (s.take k)⟩ ∧ r = .ofBytes (s.drop k) := by
  rw [fields, bind_eq_ok, hk]
  have hroom : 8 * k ≤ 64 := hk ▸ hpacked.2
  constructor
  · rintro ⟨n, r', hbits, hf⟩
    cases hf
    obtain ⟨hlength, rfl, rfl⟩ := (bits_eq_ok hroom).mp hbits
    exact ⟨hlength, rfl, rfl⟩
  · rintro ⟨hlength, rfl, rfl⟩
    exact ⟨_, _, (bits_eq_ok hroom).mpr ⟨hlength, rfl, rfl⟩, rfl⟩

/-- Bytes are given exactly if so many are ahead, and they are the first ones. -/
theorem bytes_eq_ok_of_bytes {found : Bytes} : bytes k (.ofBytes s) = .ok found r ↔
    k ≤ s.length ∧ found = s.take k ∧ r = .ofBytes (s.drop k) := by
  rw [bytes_eq_ok, consume_eq_ok_of_bytes]
  exact and_iff_right rfl

/-- Where too few bytes are ahead, the error tells how many bits there are. -/
theorem consume_of_short {value : BitReader → α} (h : s.length < k) :
    consume (8 * k) value (.ofBytes s) =
      .error (.endOfData (8 * k) (8 * s.length)) (BitReader.ofBytes s).fail := by
  have havailable : (BitReader.ofBytes s).available = 8 * s.length := rfl
  have hfailed : ¬ (BitReader.ofBytes s).failed = true := Bool.false_ne_true
  rw [consume, if_neg hfailed, dif_neg (by omega), havailable]

/-- Too few bytes ahead are not given in part: the reader fails. -/
theorem bytes_of_short (h : s.length < k) :
    bytes k (.ofBytes s) =
      .error (.endOfData (8 * k) (8 * s.length)) (BitReader.ofBytes s).fail := by
  rw [bytes_of_aligned rfl]
  exact consume_of_short h

/-- A number whose bytes are not all ahead is an error, which asks for all of its bits. -/
theorem bits_of_short (hk : 8 * k ≤ 64) (h : s.length < k) :
    bits (8 * k) (.ofBytes s) =
      .error (.endOfData (8 * k) (8 * s.length)) (BitReader.ofBytes s).fail := by
  rw [bits, if_neg (Nat.not_lt.mpr hk)]
  exact consume_of_short h

/-- Fields ask for all of their bits at once. -/
theorem fields_of_short {hpacked : PackedWidths widths} (hk : totalWidth widths = 8 * k)
    (h : s.length < k) : fields widths hpacked (.ofBytes s) =
      .error (.endOfData (8 * k) (8 * s.length)) (BitReader.ofBytes s).fail := by
  rw [fields, hk, bind_of_error (bits_of_short (hk ▸ hpacked.2) h)]

/-- A part that is not ahead as a whole is an error, before anything of it is decoded. -/
theorem within_of_short {inner : Decoder α} (h : s.length < k) :
    within k inner (.ofBytes s) =
      .error (.endOfData (8 * k) (8 * s.length)) (BitReader.ofBytes s).fail := by
  rw [within, bind_of_error (bytes_of_short h)]

/-- A part that is ahead as a whole is moved over, whatever it is decoded to. -/
theorem within_of_le {inner : Decoder α} (h : k ≤ s.length) :
    within k inner (.ofBytes s) =
      (ofExcept (inner.decode (s.take k)) : Decoder α) (.ofBytes (s.drop k)) := by
  rw [within, bind_of_ok (bytes_eq_ok_of_bytes.mpr ⟨h, rfl, rfl⟩)]

/-- A part is read exactly if it is ahead as a whole and can be decoded by itself. -/
theorem within_eq_ok {inner : Decoder α} : within k inner (.ofBytes s) = .ok a r ↔
    k ≤ s.length ∧ inner.decode (s.take k) = .ok a ∧ r = .ofBytes (s.drop k) := by
  rw [within, bind_eq_ok]
  constructor
  · rintro ⟨found, r', hbytes, hread⟩
    obtain ⟨hroom, rfl, rfl⟩ := bytes_eq_ok_of_bytes.mp hbytes
    cases hdecode : inner.decode (s.take k) with
    | ok b =>
      rw [hdecode] at hread
      cases hread
      exact ⟨hroom, rfl, rfl⟩
    | error e =>
      rw [hdecode] at hread
      cases hread
  · rintro ⟨hroom, hdecode, rfl⟩
    refine ⟨_, _, bytes_eq_ok_of_bytes.mpr ⟨hroom, rfl, rfl⟩, ?_⟩
    rw [hdecode]
    rfl

/-- A check for one value succeeds exactly on that value, and reads nothing. -/
theorem expectEq_eq_ok {f : Fields widths} {i expected : Nat} {hi : i < widths.length} {u : Unit}
    {r' : BitReader} :
    expectEq f i expected hi r = .ok u r' ↔ f.get i hi = expected ∧ r' = r := by
  unfold expectEq
  split
  case isTrue hget =>
    constructor
    · intro h
      cases h
      exact ⟨hget, rfl⟩
    · rintro ⟨_, rfl⟩
      rfl
  case isFalse hget => simp [hget, fail]

/-- A check against one value succeeds exactly on all others, and reads nothing. -/
theorem expectNe_eq_ok {f : Fields widths} {i forbidden : Nat} {hi : i < widths.length} {u : Unit}
    {r' : BitReader} :
    expectNe f i forbidden hi r = .ok u r' ↔ f.get i hi ≠ forbidden ∧ r' = r := by
  unfold expectNe
  split
  case isTrue hget => simp [hget, fail]
  case isFalse hget =>
    constructor
    · intro h
      cases h
      exact ⟨hget, rfl⟩
    · rintro ⟨_, rfl⟩
      rfl

/-- A decoder reads an item of a form off the front, and stands behind it. -/
def Finds (form : Bytes → α → Prop) (decoder : Decoder α) : Prop :=
  ∀ s a r, decoder (.ofBytes s) = .ok a r →
    ∃ item behind, s = item ++ behind ∧ form item a ∧ r = .ofBytes behind

/-- Items that are read while more than some bytes are ahead tile the bytes in front of those where
the last one ends. -/
theorem Finds.tiled {form : Bytes → α → Prop} {item : Decoder α} (h : Finds form item)
    (hreads : Reads n item) (hn : 0 < n) {left : Nat} {as : List α}
    (hread : repeated left item (.ofBytes s) = .ok as r) :
    ∃ region behind, s = region ++ behind ∧ Tiled form region as ∧ behind.length ≤ left ∧
      r = .ofBytes behind := by
  have hremaining : ∀ s, (BitReader.ofBytes s).remainingBytes = s.length := by
    intro s
    simp [BitReader.remainingBytes, BitReader.available, BitReader.ofBytes]
  induction as generalizing s with
  | nil =>
    by_cases hleft : left < s.length
    · rw [repeated_of_lt hreads hn (by rwa [hremaining])] at hread
      obtain ⟨a, r', _, hlater⟩ := bind_eq_ok.mp hread
      obtain ⟨as, r'', _, hnil⟩ := bind_eq_ok.mp hlater
      cases hnil
    · rw [repeated_of_not_lt (by rwa [hremaining])] at hread
      cases hread
      exact ⟨[], s, rfl, .nil, Nat.not_lt.mp hleft, rfl⟩
  | cons a as ih =>
    by_cases hleft : left < s.length
    · rw [repeated_of_lt hreads hn (by rwa [hremaining])] at hread
      obtain ⟨_, r', hfirst, hlater⟩ := bind_eq_ok.mp hread
      obtain ⟨_, r'', hrest, hcons⟩ := bind_eq_ok.mp hlater
      cases hcons
      obtain ⟨front, behind, rfl, hform, rfl⟩ := h s a r' hfirst
      obtain ⟨region, last, rfl, htiled, hlast, hr⟩ := ih hrest
      exact ⟨front ++ region, last, (List.append_assoc _ _ _).symm, .cons hform htiled, hlast, hr⟩
    · rw [repeated_of_not_lt (by rwa [hremaining])] at hread
      cases hread

end Decoder

end TransportStream
