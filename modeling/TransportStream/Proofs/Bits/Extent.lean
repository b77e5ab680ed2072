import TransportStream.Proofs.Bits.Bytewise
import TransportStream.Proofs.Bytes.Places

/-!
# How many bytes a decoder takes

A decoder that stands at a byte boundary parses a form if it gives a value exactly for bytes of this
form. It moves over so many bytes then, and its value is made of the first ones of them. The bytes
that it moves over but does not see are stuffing. Many decoders fail only for want of bytes. These
see all the bytes that they take.
-/

namespace TransportStream.Decoder

variable {α β : Type} {form later : Bytes → Prop} {j k size seen : Bytes → Nat}
  {decoder : Decoder α} {next : α → Decoder β} {s t : Bytes} {r : BitReader} {a : α} {n : Nat}
  {widths : List Nat}

/-- A decoder gives a value exactly for bytes of a form, moves over so many of them, and sees the
first ones only. -/
structure Parses (form : Bytes → Prop) (size seen : Bytes → Nat) (decoder : Decoder α) : Prop where
  /-- The bytes that are moved over are there. -/
  fits : ∀ s, form s → size s ≤ s.length
  /-- A value is given exactly for the form. -/
  reads_iff : ∀ s r, (∃ a, decoder (.ofBytes s) = .ok a r) ↔
    form s ∧ r = .ofBytes (s.drop (size s))
  /-- Where the same bytes are seen and as many are there, the same value is given. -/
  alike : ∀ s a r, decoder (.ofBytes s) = .ok a r → ∀ t, size s ≤ t.length →
    t.take (seen s) = s.take (seen s) → decoder (.ofBytes t) = .ok a (.ofBytes (t.drop (size s)))

/-- A decoder gives a value if so many bytes are there, whatever they are. -/
abbrev Takes (size : Bytes → Nat) (decoder : Decoder α) : Prop :=
  Parses (fun s => size s ≤ s.length) size size decoder

/-- What is moved over and what is seen may be told otherwise for bytes of the form. -/
theorem Parses.congr {form' : Bytes → Prop} {size' seen' : Bytes → Nat}
    (h : Parses form size seen decoder) (hform : ∀ s, form s ↔ form' s)
    (hsize : ∀ s, form' s → size s = size' s) (hseen : ∀ s, form' s → seen s = seen' s) :
    Parses form' size' seen' decoder where
  fits := by
    intro s hs
    rw [← hsize s hs]
    exact h.fits s ((hform s).mpr hs)
  reads_iff := by
    intro s r
    rw [h.reads_iff, hform]
    exact and_congr_right fun hs => by rw [hsize s hs]
  alike := by
    intro s a r hread
    have hs := (hform s).mp ((h.reads_iff s r).mp ⟨a, hread⟩).1
    rw [← hsize s hs, ← hseen s hs]
    exact h.alike s a r hread

/-- The form may be told otherwise. -/
theorem Parses.of_iff {form' : Bytes → Prop} (h : Parses form size seen decoder)
    (hform : ∀ s, form s ↔ form' s) : Parses form' size seen decoder :=
  h.congr hform (fun _ _ => rfl) fun _ _ => rfl

/-- A decoder by itself gives a value exactly for its form. -/
theorem Parses.exists_decode_iff (h : Parses form size seen decoder) :
    (∃ a, decoder.decode s = .ok a) ↔ form s := by
  simp only [decode_eq_ok]
  constructor
  · rintro ⟨a, r, hread⟩
    exact ((h.reads_iff s r).mp ⟨a, hread⟩).1
  · intro hform
    obtain ⟨a, hread⟩ := (h.reads_iff s _).mpr ⟨hform, rfl⟩
    exact ⟨a, _, hread⟩

/-- What a decoder by itself gives is told by the bytes that it sees. -/
theorem Parses.decode_alike (h : Parses form size seen decoder) (hs : decoder.decode s = .ok a)
    (hroom : size s ≤ t.length) (ht : t.take (seen s) = s.take (seen s)) :
    decoder.decode t = .ok a := by
  obtain ⟨r, hread⟩ := decode_eq_ok.mp hs
  exact decode_eq_ok.mpr ⟨_, h.alike s a r hread t hroom ht⟩

/-- A value is made of some bytes, and given exactly if these are there. -/
def Makes (n : Nat) (value : Bytes → α) (decoder : Decoder α) : Prop :=
  ∀ s a r, decoder (.ofBytes s) = .ok a r ↔
    n ≤ s.length ∧ a = value (s.take n) ∧ r = .ofBytes (s.drop n)

/-- A number of whole bytes is made of these bytes. -/
theorem makes_bits (hn : 8 * n ≤ 64) : Makes n Bytes.toNat (bits (8 * n)) :=
  fun _ _ _ => bits_eq_ok hn

/-- A number of eight bits is made of one byte. -/
theorem makes_u8 : Makes 1 Bytes.toNat u8 := makes_bits (n := 1) (by decide)

/-- A number of 16 bits is made of two bytes. -/
theorem makes_u16 : Makes 2 Bytes.toNat u16 := makes_bits (n := 2) (by decide)

/-- Bytes that are read are made of themselves. -/
theorem makes_bytes (n : Nat) : Makes n id (bytes n) := fun _ _ _ => bytes_eq_ok_of_bytes

/-- Fields that fill whole bytes are made of these bytes. -/
theorem makes_fields (hpacked : PackedWidths widths) (hn : totalWidth widths = 8 * n) :
    Makes n (fun bytes => ⟨bytes.toNat⟩) (fields widths hpacked) :=
  fun _ _ _ => fields_eq_ok hn

/-- A value that is there without reading is made of no bytes. -/
theorem makes_pure (a : α) : Makes 0 (fun _ => a) (pure a) := by
  intro s b r
  constructor
  · intro h
    cases h
    exact ⟨Nat.zero_le _, rfl, rfl⟩
  · rintro ⟨_, rfl, rfl⟩
    rfl

/-- What is made of some bytes takes them all. -/
theorem Makes.takes {value : Bytes → α} (h : Makes n value decoder) :
    Takes (fun _ => n) decoder where
  fits := fun _ hroom => hroom
  reads_iff := by
    intro s r
    constructor
    · rintro ⟨a, hread⟩
      obtain ⟨hroom, _, hr⟩ := (h s a r).mp hread
      exact ⟨hroom, hr⟩
    · rintro ⟨hroom, hr⟩
      exact ⟨value (s.take n), (h s _ r).mpr ⟨hroom, rfl, hr⟩⟩
  alike := by
    intro s a r hread t hroom ht
    obtain ⟨_, ha, _⟩ := (h s a r).mp hread
    exact (h t a _).mpr ⟨hroom, ht ▸ ha, rfl⟩

/-- A check reads nothing, and succeeds where its condition holds. -/
theorem parses_of_condition {p : Prop} {check : Decoder Unit}
    (h : ∀ u r r', check r = .ok u r' ↔ p ∧ r' = r) :
    Parses (fun _ => p) (fun _ => 0) (fun _ => 0) check where
  fits := fun _ _ => Nat.zero_le _
  reads_iff := by
    intro s r
    constructor
    · rintro ⟨u, hread⟩
      exact (h u _ r).mp hread
    · intro hcheck
      exact ⟨(), (h () _ r).mpr hcheck⟩
  alike := by
    intro s u r hread t _ _
    exact (h u _ _).mpr ⟨((h u _ r).mp hread).1, rfl⟩

/-- A check for one value reads nothing, and its form is that the value is there. -/
theorem parses_expectEq (f : Fields widths) (i expected : Nat) (hi : i < widths.length) :
    Parses (fun _ => f.get i hi = expected) (fun _ => 0) (fun _ => 0) (expectEq f i expected hi) :=
  parses_of_condition fun _ _ _ => expectEq_eq_ok

/-- A check against one value reads nothing, and its form is that another value is there. -/
theorem parses_expectNe (f : Fields widths) (i forbidden : Nat) (hi : i < widths.length) :
    Parses (fun _ => f.get i hi ≠ forbidden) (fun _ => 0) (fun _ => 0)
      (expectNe f i forbidden hi) :=
  parses_of_condition fun _ _ _ => expectNe_eq_ok

/-- Behind a decoder that sees all its bytes another one goes on. Its form may depend on what the
first one was read off. -/
theorem Parses.bind_of {later : Bytes → Bytes → Prop} {size seen : Bytes → Bytes → Nat}
    (h : Parses form j j decoder)
    (hnext : ∀ s a r, decoder (.ofBytes s) = .ok a r →
      Parses (later s) (size s) (seen s) (next a)) :
    Parses (fun s => form s ∧ later s (s.drop (j s))) (fun s => j s + size s (s.drop (j s)))
      (fun s => j s + seen s (s.drop (j s))) (decoder >>= next) where
  fits := by
    rintro s ⟨hform, hlater⟩
    obtain ⟨a, hread⟩ := (h.reads_iff s _).mpr ⟨hform, rfl⟩
    have hfirst := h.fits s hform
    have hbehind := (hnext s a _ hread).fits _ hlater
    rw [List.length_drop] at hbehind
    omega
  reads_iff := by
    intro s r
    constructor
    · rintro ⟨b, hread⟩
      obtain ⟨a, r', hfirst, hbehind⟩ := bind_eq_ok.mp hread
      obtain ⟨hform, rfl⟩ := (h.reads_iff s r').mp ⟨a, hfirst⟩
      obtain ⟨hlater, rfl⟩ := ((hnext s a _ hfirst).reads_iff _ r).mp ⟨b, hbehind⟩
      rw [List.drop_drop]
      exact ⟨⟨hform, hlater⟩, rfl⟩
    · rintro ⟨⟨hform, hlater⟩, rfl⟩
      obtain ⟨a, hfirst⟩ := (h.reads_iff s _).mpr ⟨hform, rfl⟩
      obtain ⟨b, hbehind⟩ := ((hnext s a _ hfirst).reads_iff _ _).mpr ⟨hlater, rfl⟩
      rw [List.drop_drop] at hbehind
      exact ⟨b, bind_eq_ok.mpr ⟨a, _, hfirst, hbehind⟩⟩
  alike := by
    intro s b r hread t hroom ht
    obtain ⟨a, r', hfirst, hbehind⟩ := bind_eq_ok.mp hread
    obtain ⟨_, rfl⟩ := (h.reads_iff s r').mp ⟨a, hfirst⟩
    have hnear : t.take (j s) = s.take (j s) := by
      have htake := congrArg (List.take (j s)) ht
      rwa [List.take_take, List.take_take, Nat.min_eq_left (Nat.le_add_right _ _)] at htake
    have hfar : (t.drop (j s)).take (seen s (s.drop (j s))) =
        (s.drop (j s)).take (seen s (s.drop (j s))) := by
      have hdrop := congrArg (List.drop (j s)) ht
      rwa [List.drop_take, List.drop_take, Nat.add_sub_cancel_left] at hdrop
    have hleft : size s (s.drop (j s)) ≤ (t.drop (j s)).length := by
      rw [List.length_drop]
      omega
    have hsame := (hnext s a _ hfirst).alike _ b r hbehind (t.drop (j s)) hleft hfar
    rw [List.drop_drop] at hsame
    exact bind_eq_ok.mpr ⟨a, _, h.alike s a _ hfirst t (by omega) hnear, hsame⟩

/-- Behind a decoder that sees all its bytes another one goes on, whose form is always the same. -/
theorem Parses.bind (h : Parses form j j decoder) (hnext : ∀ a, Parses later size seen (next a)) :
    Parses (fun s => form s ∧ later (s.drop (j s))) (fun s => j s + size (s.drop (j s)))
      (fun s => j s + seen (s.drop (j s))) (decoder >>= next) :=
  h.bind_of fun _ a _ _ => hnext a

/-- Behind a value that is made of some bytes a decoder goes on, whose form depends on it. -/
theorem Makes.bind {value : Bytes → α} {later : α → Bytes → Prop} {size seen : α → Bytes → Nat}
    (h : Makes n value decoder) (hnext : ∀ a, Parses (later a) (size a) (seen a) (next a)) :
    Parses (fun s => n ≤ s.length ∧ later (value (s.take n)) (s.drop n))
      (fun s => n + size (value (s.take n)) (s.drop n))
      (fun s => n + seen (value (s.take n)) (s.drop n)) (decoder >>= next) := by
  refine h.takes.bind_of ?_
  intro s a r hread
  obtain ⟨_, rfl, _⟩ := (h s a r).mp hread
  exact hnext _

/-- Some bytes and others behind them are there exactly if both together are. -/
theorem and_le_length_drop_iff {m : Nat} :
    n ≤ s.length ∧ m ≤ (s.drop n).length ↔ n + m ≤ s.length := by
  rw [List.length_drop]
  omega

/-- What is read next is taken from behind what was read first. -/
theorem Takes.bind (h : Takes j decoder) (hnext : ∀ a, Takes k (next a)) :
    Takes (fun s => j s + k (s.drop (j s))) (decoder >>= next) :=
  (Parses.bind h hnext).of_iff fun _ => and_le_length_drop_iff

/-- A value that is made of another one is seen in the same bytes. -/
theorem Parses.bind_pure (h : Parses form size seen decoder) (f : α → β) :
    Parses form size seen (decoder >>= fun a => pure (f a)) where
  fits := h.fits
  reads_iff := by
    intro s r
    rw [← h.reads_iff s r]
    constructor
    · rintro ⟨_, hread⟩
      obtain ⟨a, r', hfirst, hpure⟩ := bind_eq_ok.mp hread
      cases hpure
      exact ⟨a, hfirst⟩
    · rintro ⟨a, hfirst⟩
      exact ⟨f a, bind_eq_ok.mpr ⟨a, r, hfirst, rfl⟩⟩
  alike := by
    intro s b r hread t hroom ht
    obtain ⟨a, r', hfirst, hpure⟩ := bind_eq_ok.mp hread
    cases hpure
    exact bind_eq_ok.mpr ⟨a, _, h.alike s a _ hfirst t hroom ht, rfl⟩

/-- The form is that of the value that something else is made of. -/
theorem Parses.map (h : Parses form size seen decoder) (f : α → β) :
    Parses form size seen (f <$> decoder) := by
  rw [map_eq_pure_bind]
  exact h.bind_pure f

/-- A part behind a flag that tells of it. -/
theorem Parses.ifFlag (h : Parses form size seen decoder) (flag : Bool) :
    Parses (fun s => flag = true → form s) (fun s => if flag then size s else 0)
      (fun s => if flag then seen s else 0) (ifFlag flag decoder) := by
  cases flag with
  | false => exact (makes_pure none).takes.of_iff fun s => by simp
  | true => exact (h.map some).of_iff fun s => by simp

/-- A part that may be missing takes its bytes only if it is announced. -/
theorem Takes.ifFlag (h : Takes k decoder) (flag : Bool) :
    Takes (fun s => if flag then k s else 0) (ifFlag flag decoder) :=
  (Parses.ifFlag h flag).of_iff fun s => by cases flag <;> simp

/-- A number of bytes and these bytes. -/
theorem takes_countedBytes : Takes (fun s => 1 + Bytes.toNat (s.take 1)) countedBytes :=
  (makes_u8.bind fun n => (makes_bytes n).takes).of_iff fun _ => and_le_length_drop_iff

/-- A bounded part has the form of what is read in it. Its last bytes are stuffing. -/
theorem Parses.within (h : Parses form size seen decoder) (n : Nat) :
    Parses (fun s => n ≤ s.length ∧ form (s.take n)) (fun _ => n) (fun s => seen (s.take n))
      (within n decoder) where
  fits := fun _ hform => hform.1
  reads_iff := by
    intro s r
    simp only [within_eq_ok, exists_and_left, exists_and_right, h.exists_decode_iff, and_assoc]
  alike := by
    intro s a r hread t hroom ht
    obtain ⟨hleast, hdecode, _⟩ := within_eq_ok.mp hread
    -- Cutting off the stuffing and cutting off what is not seen commute.
    have hcut : (t.take n).take (seen (s.take n)) = (s.take n).take (seen (s.take n)) := by
      rw [List.take_take, List.take_take, Nat.min_comm, ← List.take_take, ← List.take_take, ht]
    have hsize : size (s.take n) ≤ (t.take n).length := by
      have hfits := h.fits _ (h.exists_decode_iff.mp ⟨a, hdecode⟩)
      rw [List.length_take_of_le hleast] at hfits
      rwa [List.length_take_of_le hroom]
    exact within_eq_ok.mpr ⟨hroom, h.decode_alike hdecode hsize hcut, rfl⟩

end TransportStream.Decoder
