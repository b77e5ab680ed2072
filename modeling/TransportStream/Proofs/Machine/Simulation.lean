import TransportStream.Proofs.Bits.Progress
import TransportStream.Proofs.Machine.Cursor

/-!
# A cursor follows a bit reader

A cursor follows a bit reader if what is ahead of it in its buffer is what the reader still has.
Whatever is read with the reader is then read with the cursor, and no step of that is a fault:
the cursor stays inside of its buffer.
-/

namespace TransportStream.Machine

variable {α β : Type}

namespace Reader

variable {reader : Reader α} {next : α → Reader β} {c c' : Cursor}

/-- A computation goes on where the one before it has left the cursor, unless that one has reported
an error. -/
theorem runOn_bind (reader : Reader α) (next : α → Reader β) (c : Cursor) :
    (reader >>= next).runOn c = (reader.runOn c >>= fun x =>
      match x.1 with
      | .ok a => (next a).runOn x.2
      | .error e => pure (.error e, x.2)) := by
  simp only [runOn, ExceptT.run_bind, StateT.run_bind]
  congr 1
  funext x
  rcases x with ⟨_ | _, c'⟩ <;> rfl

/-- Behind a computation that gives a value the next one goes on. -/
theorem runOn_bind_of_ok {a : α} (h : reader.runOn c = pure (.ok a, c')) (next : α → Reader β) :
    (reader >>= next).runOn c = (next a).runOn c' := by
  rw [runOn_bind, h, pure_bind]

/-- Behind an error nothing follows. -/
theorem runOn_bind_of_error {e : DecodeError} (h : reader.runOn c = pure (.error e, c'))
    (next : α → Reader β) : (reader >>= next).runOn c = pure (.error e, c') := by
  rw [runOn_bind, h, pure_bind]

/-- A step without a fault leaves the cursor where it is. -/
theorem lift_bind {x : Checked α} {a : α} (h : x = pure a) (next : α → Reader β) :
    (liftM x : Reader α) >>= next = next a := by
  simp [h]

/-- A step without a fault gives its value and leaves the cursor where it is. -/
theorem runOn_lift {x : Checked α} {a : α} (h : x = pure a) (c : Cursor) :
    (liftM x : Reader α).runOn c = pure (.ok a, c) := by
  subst h
  rfl

/-- Asking for the cursor leaves it where it is. -/
theorem runOn_get_bind (next : Cursor → Reader β) (c : Cursor) :
    (get >>= next).runOn c = (next c).runOn c := by
  have hget : (get : Reader Cursor).runOn c = pure (.ok c, c) := rfl
  exact runOn_bind_of_ok hget next

/-- A value that is there without reading leaves the cursor where it is. -/
theorem runOn_pure (a : α) (c : Cursor) : (pure a : Reader α).runOn c = pure (.ok a, c) := rfl

/-- An error by itself leaves the cursor as it is. -/
theorem runOn_throw (e : DecodeError) (c : Cursor) :
    (throw e : Reader α).runOn c = pure (.error e, c) := rfl

/-- A failure is noted in the cursor, which stays where it is. -/
theorem runOn_fail (e : DecodeError) (c : Cursor) :
    (fail e : Reader α).runOn c = pure (.error e, { c with failed := true }) := rfl

/-- A cursor can be put in the place of another. -/
theorem runOn_set (c c' : Cursor) : (set c' : Reader PUnit).runOn c = pure (.ok ⟨⟩, c') := rfl

end Reader

/-- The cursor `n` bits further on. -/
def Cursor.advance (c : Cursor) (n : Nat) : Cursor :=
  { c with
    byteOffset := c.byteOffset + (c.bitOffset + n) / 8
    bitOffset := (c.bitOffset + n) % 8 }

/-- The number of bytes that every buffer stays below. -/
def bufferLimit : Nat := 2 ^ 60

/-- What is ahead of a cursor is what a bit reader still has. -/
structure Follows (c : Cursor) (r : BitReader) : Prop where
  /-- The buffer keeps to the limit. -/
  small : c.data.length < bufferLimit
  /-- The cursor stands inside of its buffer. -/
  inside : c.byteOffset ≤ c.data.length
  /-- The bytes ahead are the same. -/
  rest : r.rest = c.data.drop c.byteOffset
  /-- So many bits of the first of them have been read. -/
  used : r.used = c.bitOffset
  /-- Failures are noted alike. -/
  failed : r.failed = c.failed

namespace Follows

open Reader

variable {c : Cursor} {r : BitReader}

/-- A cursor at the start of a buffer follows a reader of its bytes. -/
theorem ofBytes {bytes : Bytes} (h : bytes.length < bufferLimit) :
    Follows { data := bytes } (.ofBytes bytes) where
  small := h
  inside := Nat.zero_le _
  rest := rfl
  used := rfl
  failed := rfl

/-- A failed cursor follows a failed reader. -/
theorem fail (h : Follows c r) : Follows { c with failed := true } r.fail where
  small := h.small
  inside := h.inside
  rest := h.rest
  used := h.used
  failed := rfl

/-- The reader still has the bytes from the place of the cursor on. -/
theorem length_rest (h : Follows c r) : r.rest.length = c.data.length - c.byteOffset := by
  rw [h.rest, List.length_drop]

/-- Moved on by the same number of bits, the cursor still follows the reader. -/
theorem advance (h : Follows c r) {n : Nat} (hn : n ≤ r.available) :
    Follows (c.advance n) (r.advance n hn) where
  small := h.small
  inside := by
    have hinside := h.inside
    have hused := r.used_le
    simp only [BitReader.available, h.length_rest, h.used] at hn hused
    simp only [Cursor.advance]
    omega
  rest := by
    simp only [BitReader.advance, Cursor.advance, h.rest, h.used, List.drop_drop]
  used := by simp only [BitReader.advance, Cursor.advance, h.used]
  failed := h.failed

/-- The cursor counts the bits ahead without a fault. -/
theorem runOn_availableBits (h : Follows c r) :
    availableBits.runOn c = pure (.ok r.available, c) := by
  have hsmall := h.small
  have hused := r.used_le
  rw [h.length_rest, h.used] at hused
  have havailable : r.available = (c.data.length - c.byteOffset) * 8 - c.bitOffset := by
    rw [BitReader.available, h.length_rest, h.used, Nat.mul_comm]
  have hbits : (c.data.length - c.byteOffset) * 8 < 2 ^ 64 := by
    rw [bufferLimit] at hsmall
    omega
  rw [availableBits, runOn_get_bind, lift_bind (sub_eq h.inside), lift_bind (mul_eq hbits),
    runOn_lift (sub_eq (by omega)), havailable]

/-- The cursor counts the whole bytes ahead without a fault. -/
theorem runOn_remainingBytes (h : Follows c r) :
    remainingBytes.runOn c = pure (.ok r.remainingBytes, c) := by
  rw [remainingBytes, runOn_bind_of_ok h.runOn_availableBits]
  rfl

/-- A failed cursor refuses every number of bits, even none. -/
theorem runOn_ensureBits_of_failed (h : Follows c r) (hfailed : r.failed = true) (n : Nat) :
    (ensureBits n).runOn c = pure (.error .readerFailed, c) := by
  rw [ensureBits, runOn_get_bind, ← h.failed, if_pos hfailed, runOn_throw]

/-- Bits that are ahead are ensured, and the cursor stays. -/
theorem runOn_ensureBits (h : Follows c r) (hfailed : r.failed = false) {n : Nat}
    (hn : n ≤ r.available) : (ensureBits n).runOn c = pure (.ok (), c) := by
  rw [ensureBits, runOn_get_bind, ← h.failed, if_neg (by simp [hfailed]),
    runOn_bind_of_ok h.runOn_availableBits, if_neg (Nat.not_lt.mpr hn), runOn_pure]

/-- Bits that are not ahead are an error, which the cursor notes. -/
theorem runOn_ensureBits_of_short (h : Follows c r) (hfailed : r.failed = false) {n : Nat}
    (hn : ¬ n ≤ r.available) : (ensureBits n).runOn c =
      pure (.error (.endOfData n r.available), { c with failed := true }) := by
  rw [ensureBits, runOn_get_bind, ← h.failed, if_neg (by simp [hfailed]),
    runOn_bind_of_ok h.runOn_availableBits, if_pos (Nat.lt_of_not_le hn), runOn_fail]

/-- The bit at the cursor is the next one. -/
theorem runOn_peekBit (h : Follows c r) (hroom : 1 ≤ r.available) :
    peekBit.runOn c = pure (.ok (bitsToNat (r.bits.take 1)), c) := by
  have hused := r.used_lt
  rw [h.used] at hused
  rw [BitReader.available, h.length_rest] at hroom
  have hbyte : c.byteOffset < c.data.length := by omega
  have hplace : 7 - c.bitOffset < 8 := by omega
  have hbits : r.bits.take 1 = [c.data[c.byteOffset].toNat.testBit (7 - c.bitOffset)] := by
    have hdrop : c.bitOffset < (bitsOfNat 8 c.data[c.byteOffset].toNat).length := by
      rwa [length_bitsOfNat]
    rw [BitReader.bits, h.rest, h.used, List.drop_eq_getElem_cons hbyte, Bytes.bits_cons,
      List.drop_append_of_le_length (Nat.le_of_lt hdrop), List.drop_eq_getElem_cons hdrop]
    simp [bitsOfNat]
  have hbit : bitsToNat (r.bits.take 1) =
      c.data[c.byteOffset].toNat >>> (7 - c.bitOffset) &&& 1 := by
    rw [hbits, Nat.and_one_is_mod, Nat.shiftRight_eq_div_pow, ← Nat.toNat_testBit]
    simp [bitsToNat]
  rw [peekBit, runOn_get_bind, lift_bind (index_eq (List.getElem?_eq_getElem hbyte)),
    lift_bind (sub_eq (by omega)), lift_bind (shiftRight_eq hplace), runOn_pure, hbit]

/-- The cursor moves on by one bit, to the next byte if it was the last one of its byte. -/
theorem runOn_stepBit (h : Follows c r) : stepBit.runOn c = pure (.ok ⟨⟩, c.advance 1) := by
  have hused := r.used_lt
  have hsmall := h.small
  have hinside := h.inside
  rw [bufferLimit] at hsmall
  rw [h.used] at hused
  rw [stepBit, runOn_get_bind, lift_bind (add_eq (by omega))]
  by_cases hlast : c.bitOffset + 1 = 8
  · rw [if_pos hlast, lift_bind (add_eq (by omega)), runOn_set]
    simp [Cursor.advance, hlast]
  · have hdiv : (c.bitOffset + 1) / 8 = 0 := Nat.div_eq_of_lt (by omega)
    have hmod : (c.bitOffset + 1) % 8 = c.bitOffset + 1 := Nat.mod_eq_of_lt (by omega)
    rw [if_neg hlast, runOn_set]
    simp [Cursor.advance, hdiv, hmod]

end Follows

/-- Moving on twice is moving on by both. -/
theorem Cursor.advance_advance (c : Cursor) (m n : Nat) :
    (c.advance m).advance n = c.advance (m + n) := by
  simp only [Cursor.advance, Cursor.mk.injEq, true_and, and_true]
  omega

/-- Moving on by nothing leaves the cursor where it is. -/
theorem Cursor.advance_zero {c : Cursor} (h : c.bitOffset < 8) : c.advance 0 = c := by
  simp [Cursor.advance, Nat.div_eq_of_lt h, Nat.mod_eq_of_lt h]

/-- The bits read one by one write the number that the reader sees ahead, below the number read
so far. -/
theorem Follows.runOn_nextBits {c : Cursor} {r : BitReader} (h : Follows c r) {n value : Nat}
    (hn : n ≤ 64) (hroom : n ≤ r.available) (hvalue : value < 2 ^ (64 - n)) :
    (Reader.nextBits n value).runOn c =
      pure (.ok (value * 2 ^ n + bitsToNat (r.bits.take n)), c.advance n) := by
  induction n generalizing c r value with
  | zero =>
    have hused := r.used_lt
    rw [h.used] at hused
    rw [Reader.nextBits, Reader.runOn_pure, Cursor.advance_zero hused]
    simp [bitsToNat]
  | succ n ih =>
    have hone : 1 ≤ r.available := by omega
    have hlater : n ≤ (r.advance 1 hone).available := by
      rw [BitReader.available_advance]
      omega
    have hbit : bitsToNat (r.bits.take 1) < 2 ^ 1 := by
      have hlt := bitsToNat_lt (r.bits.take 1)
      rwa [List.length_take, BitReader.length_bits, Nat.min_eq_left hone] at hlt
    have hdouble : 2 ^ (64 - n) = 2 * 2 ^ (64 - (n + 1)) := by
      rw [← Nat.pow_succ']
      congr 1
      omega
    have hword : 2 ^ (64 - n) ≤ 2 ^ 64 := Nat.pow_le_pow_right (by decide) (by omega)
    have hshift : value <<< 1 = value * 2 ^ 1 := Nat.shiftLeft_eq _ _
    have hnext : value <<< 1 ||| bitsToNat (r.bits.take 1) =
        value * 2 + bitsToNat (r.bits.take 1) := by
      rw [← Nat.shiftLeft_add_eq_or_of_lt hbit, hshift, Nat.pow_one]
    -- The next bit is the highest of those ahead.
    have hsplit : bitsToNat (r.bits.take (n + 1)) =
        bitsToNat (r.bits.take 1) * 2 ^ n + bitsToNat ((r.bits.drop 1).take n) := by
      rw [Nat.add_comm n 1, List.take_add, bitsToNat_append, List.length_take, List.length_drop,
        BitReader.length_bits, Nat.min_eq_left (by omega)]
    rw [Reader.nextBits, Reader.runOn_bind_of_ok (h.runOn_peekBit hone),
      Reader.lift_bind (shiftLeft_eq (by decide) (by rw [hshift]; omega)),
      Reader.runOn_bind_of_ok h.runOn_stepBit, hnext,
      ih (h.advance hone) (by omega) hlater (by omega), Cursor.advance_advance,
      BitReader.bits_advance, hsplit, Nat.add_comm 1 n]
    congr 3
    rw [Nat.pow_succ', Nat.add_mul, Nat.mul_assoc, Nat.add_assoc]

variable {γ : Type}

/-- A run with a cursor ends where a decoder does, with the same error or a view of the same value,
and without a fault. The value has some property. -/
def EndsAs (view : α → γ) (P : α → Prop) (run : Checked (Except DecodeError γ × Cursor)) :
    EStateM.Result DecodeError BitReader α → Prop
  | .ok a r => P a ∧ ∃ c, run = pure (.ok (view a), c) ∧ Follows c r
  | .error e r => ∃ c, run = pure (.error e, c) ∧ Follows c r

/-- Wherever a cursor follows a bit reader, a computation does with the cursor what a decoder does
with the reader, and gives a view of the value. The value has some property. -/
def SimulatesAs (view : α → γ) (P : α → Prop) (reader : Reader γ) (decoder : Decoder α) : Prop :=
  ∀ c r, Follows c r → EndsAs view P (reader.runOn c) (decoder r)

/-- The computation gives the value itself. -/
abbrev SimulatesWith (P : α → Prop) (reader : Reader α) (decoder : Decoder α) : Prop :=
  SimulatesAs id P reader decoder

/-- Nothing is said of the value. -/
abbrev Simulates (reader : Reader α) (decoder : Decoder α) : Prop :=
  SimulatesWith (fun _ => True) reader decoder

namespace SimulatesAs

variable {view : α → γ} {P : α → Prop} {reader : Reader γ} {decoder : Decoder α} {c : Cursor}
  {r r' : BitReader}

/-- Where a decoder gives a value, the computation gives the view of it. -/
theorem of_ok {a : α} (h : SimulatesAs view P reader decoder) (hfollows : Follows c r)
    (hread : decoder r = .ok a r') :
    P a ∧ ∃ c', reader.runOn c = pure (.ok (view a), c') ∧ Follows c' r' := by
  have hends := h c r hfollows
  rwa [hread] at hends

/-- Where a decoder reports an error, so does the computation. -/
theorem of_error {e : DecodeError} (h : SimulatesAs view P reader decoder) (hfollows : Follows c r)
    (hread : decoder r = .error e r') :
    ∃ c', reader.runOn c = pure (.error e, c') ∧ Follows c' r' := by
  have hends := h c r hfollows
  rwa [hread] at hends

end SimulatesAs

/-- A read asks for enough bits, and then reads them unasked. -/
theorem EndsAs.consume {view : α → γ} {P : α → Prop} {reader : Reader γ} {n : Nat}
    {value : BitReader → α} {c : Cursor} {r : BitReader} (hfollows : Follows c r)
    (h : r.failed = false → n ≤ r.available →
      P (value r) ∧ reader.runOn c = pure (.ok (view (value r)), c.advance n)) :
    EndsAs view P ((Reader.ensureBits n >>= fun _ => reader).runOn c)
      (Decoder.consume n value r) := by
  rw [Decoder.consume]
  cases hfailed : r.failed with
  | true =>
    have hrun := hfollows.runOn_ensureBits_of_failed hfailed n
    exact ⟨c, Reader.runOn_bind_of_error hrun _, hfollows⟩
  | false =>
    rw [if_neg (by simp)]
    by_cases hroom : n ≤ r.available
    · obtain ⟨hvalue, hread⟩ := h hfailed hroom
      rw [dif_pos hroom]
      refine ⟨hvalue, c.advance n, ?_, hfollows.advance hroom⟩
      rw [Reader.runOn_bind_of_ok (hfollows.runOn_ensureBits hfailed hroom), hread]
    · rw [dif_neg hroom]
      have hrun := hfollows.runOn_ensureBits_of_short hfailed hroom
      exact ⟨_, Reader.runOn_bind_of_error hrun _, hfollows.fail⟩

/-- What follows a run ends as what follows the decoder. -/
theorem EndsAs.bind {view : α → γ} {P : α → Prop} {Q : β → Prop} {reader : Reader γ}
    {decoder : Decoder α} {next : γ → Reader β} {next' : α → Decoder β} {c : Cursor}
    {r : BitReader} (h : EndsAs view P (reader.runOn c) (decoder r))
    (hnext : ∀ a c' r', decoder r = .ok a r' → P a → Follows c' r' →
      EndsAs id Q ((next (view a)).runOn c') (next' a r')) :
    EndsAs id Q ((reader >>= next).runOn c) ((decoder >>= next') r) := by
  cases hread : decoder r with
  | ok a r' =>
    rw [hread] at h
    obtain ⟨ha, c', hrun, hfollows⟩ := h
    rw [Reader.runOn_bind_of_ok hrun, Decoder.bind_of_ok hread]
    exact hnext a c' r' hread ha hfollows
  | error e r' =>
    rw [hread] at h
    obtain ⟨c', hrun, hfollows⟩ := h
    rw [Reader.runOn_bind_of_error hrun, Decoder.bind_of_error hread]
    exact ⟨c', rfl, hfollows⟩

/-- One computation after the other simulates one decoder after the other. -/
theorem SimulatesAs.bind {view : α → γ} {P : α → Prop} {Q : β → Prop} {reader : Reader γ}
    {decoder : Decoder α} {next : γ → Reader β} {next' : α → Decoder β}
    (h : SimulatesAs view P reader decoder)
    (hnext : ∀ a, P a → SimulatesWith Q (next (view a)) (next' a)) :
    SimulatesWith Q (reader >>= next) (decoder >>= next') := by
  intro c r hfollows
  refine (h c r hfollows).bind fun a c' r' _ ha hfollows' => ?_
  exact hnext a ha c' r' hfollows'

namespace SimulatesWith

open Reader

variable {P : α → Prop} {reader : Reader α} {decoder : Decoder α}

/-- A value that is there without reading simulates itself. -/
theorem pure {a : α} (h : P a) : SimulatesWith P (pure a) (pure a) := by
  intro c r hfollows
  exact ⟨h, c, rfl, hfollows⟩

/-- Of the value less may be said than is known. -/
theorem mono {P' : α → Prop} (h : SimulatesWith P reader decoder) (hP : ∀ a, P a → P' a) :
    SimulatesWith P' reader decoder := by
  intro c r hfollows
  have hends := h c r hfollows
  cases hread : decoder r with
  | ok a r' =>
    rw [hread] at hends
    exact ⟨hP a hends.1, hends.2⟩
  | error e r' => rwa [hread] at hends

/-- Nothing need be said of the value. -/
theorem simulates (h : SimulatesWith P reader decoder) : Simulates reader decoder :=
  h.mono fun _ _ => trivial

/-- An error simulates itself. -/
theorem throw (e : DecodeError) : SimulatesWith P (throw e) (throw e) := by
  intro c r hfollows
  exact ⟨c, rfl, hfollows⟩

/-- A failure simulates itself. -/
theorem fail (e : DecodeError) : SimulatesWith P (Reader.fail e) (Decoder.fail e) := by
  intro c r hfollows
  exact ⟨_, rfl, hfollows.fail⟩

/-- Cases simulate cases if each of them does where it is taken. -/
theorem ite {p : Prop} [Decidable p] {reader₂ : Reader α} {decoder₂ : Decoder α}
    (h : p → SimulatesWith P reader decoder) (h₂ : ¬ p → SimulatesWith P reader₂ decoder₂) :
    SimulatesWith P (if p then reader else reader₂) (if p then decoder else decoder₂) := by
  split
  case isTrue hp => exact h hp
  case isFalse hp => exact h₂ hp

/-- A number is read bit by bit. -/
theorem readBits {n : Nat} (hn : n ≤ 64) :
    SimulatesWith (· < 2 ^ n) (Reader.readBits n) (Decoder.bits n) := by
  rw [Reader.readBits, Decoder.bits, if_neg (Nat.not_lt.mpr hn), if_neg (Nat.not_lt.mpr hn)]
  intro c r hfollows
  refine EndsAs.consume hfollows fun _ hroom => ?_
  have hlt := bitsToNat_lt (r.bits.take n)
  rw [List.length_take, BitReader.length_bits, Nat.min_eq_left hroom] at hlt
  rw [hfollows.runOn_nextBits hn hroom (Nat.two_pow_pos _), BitReader.peek_eq r n hroom,
    Nat.zero_mul, Nat.zero_add]
  exact ⟨hlt, rfl⟩

/-- A number that has so many bits fits into a number of this width or a greater one. -/
theorem readNarrow {n width : Nat} (hn : n ≤ 64) (hwidth : n ≤ width) :
    SimulatesWith (· < 2 ^ n) (do narrow width (← Reader.readBits n)) (Decoder.bits n) := by
  rw [← bind_pure (Decoder.bits n)]
  refine (readBits hn).bind fun a ha => ?_
  have hfits : a < 2 ^ width := Nat.lt_of_lt_of_le ha (Nat.pow_le_pow_right (by decide) hwidth)
  rw [id, narrow_eq hfits, liftM_pure]
  exact pure ha

/-- A number of eight bits is read with a cursor as it is decoded. -/
theorem readU8 : SimulatesWith (· < 2 ^ 8) Reader.readU8 Decoder.u8 :=
  readNarrow (by decide) (by decide)

/-- A number of 16 bits is read with a cursor as it is decoded. -/
theorem readU16 : SimulatesWith (· < 2 ^ 16) Reader.readU16 Decoder.u16 :=
  readNarrow (by decide) (by decide)

/-- A number of 24 bits is read with a cursor as it is decoded. -/
theorem readU24 : SimulatesWith (· < 2 ^ 24) Reader.readU24 Decoder.u24 :=
  readNarrow (by decide) (by decide)

/-- A number of 32 bits is read with a cursor as it is decoded. -/
theorem readU32 : SimulatesWith (· < 2 ^ 32) Reader.readU32 Decoder.u32 :=
  readNarrow (by decide) (by decide)

end SimulatesWith

end TransportStream.Machine
