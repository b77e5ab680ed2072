import TransportStream.Bits.Fields
import TransportStream.Bits.Reader
import TransportStream.Proofs.Bytes.Numbers

/-!
# Bits and what is read of them

A bit reader moves over the bits of its bytes, and looking ahead gives the number that the
next ones write. In a packed number, each field is the number that its own bits write.
-/

namespace TransportStream

/-- No fields have no bits. -/
@[simp] theorem totalWidth_nil : totalWidth [] = 0 := rfl

/-- One more field adds its bits. -/
@[simp] theorem totalWidth_cons (width : Nat) (widths : List Nat) :
    totalWidth (width :: widths) = width + totalWidth widths := rfl

/-- Fields behind others add their bits. -/
@[simp] theorem totalWidth_append (first later : List Nat) :
    totalWidth (first ++ later) = totalWidth first + totalWidth later := by
  induction first with
  | nil => simp
  | cons width first ih =>
    rw [List.cons_append, totalWidth_cons, totalWidth_cons, ih, Nat.add_assoc]

namespace Fields

variable {widths : List Nat}

/-- A field is what is left of the number between the fields before it and those after it. -/
theorem get_eq (fields : Fields widths) (i : Nat) (hi : i < widths.length) :
    fields.get i hi = fields.word / 2 ^ totalWidth (widths.drop (i + 1)) % 2 ^ widths[i] := by
  rw [get, Nat.shiftRight_eq_div_pow, Nat.one_shiftLeft]

/-- A flag is a bit of the number. -/
theorem flag_eq (fields : Fields widths) (i : Nat) (hi : i < widths.length) (hone : widths[i] = 1) :
    fields.flag i hi = fields.word.testBit (totalWidth (widths.drop (i + 1))) := by
  rw [flag, get_eq, hone, Nat.testBit_eq_decide_div_mod_eq]
  rcases Nat.mod_two_eq_zero_or_one (fields.word / 2 ^ totalWidth (widths.drop (i + 1))) with h | h
  · simp [h]
  · simp [h]

/-- A field is a number of so many bits as it is wide. -/
theorem get_lt (fields : Fields widths) (i : Nat) (hi : i < widths.length) :
    fields.get i hi < 2 ^ widths[i] := by
  rw [get, Nat.one_shiftLeft]
  exact Nat.mod_lt _ (Nat.two_pow_pos _)

/-- A field of one bit is its flag. -/
theorem get_of_flag (fields : Fields widths) (i : Nat) (hi : i < widths.length)
    (hone : widths[i] = 1) : fields.get i hi = (fields.flag i hi).toNat := by
  have hlt := fields.get_lt i hi
  rw [hone] at hlt
  obtain hzero | hset : fields.get i hi = 0 ∨ fields.get i hi = 1 := by omega
  · rw [flag, hzero]
    rfl
  · rw [flag, hset]
    rfl

/-- A field is the number that its own bits write. -/
theorem get_bitsToNat (bits : List Bool) (h : bits.length = totalWidth widths) (i : Nat)
    (hi : i < widths.length) :
    (⟨bitsToNat bits⟩ : Fields widths).get i hi =
      bitsToNat ((bits.drop (totalWidth (widths.take i))).take widths[i]) := by
  have htotal : totalWidth (widths.take i) + widths[i] + totalWidth (widths.drop (i + 1)) =
      totalWidth widths := by
    rw [Nat.add_assoc, ← totalWidth_cons, List.getElem_cons_drop, ← totalWidth_append,
      List.take_append_drop]
  have hlen : (bits.take (totalWidth (widths.take i) + widths[i])).length =
      totalWidth (widths.take i) + widths[i] := by
    rw [List.length_take]
    omega
  have htail : totalWidth (widths.drop (i + 1)) =
      bits.length - (totalWidth (widths.take i) + widths[i]) := by omega
  have hown : (bits.drop (totalWidth (widths.take i))).take widths[i] =
      (bits.take (totalWidth (widths.take i) + widths[i])).drop (totalWidth (widths.take i)) := by
    rw [List.drop_take, Nat.add_sub_cancel_left]
  rw [get, Nat.shiftRight_eq_div_pow, Nat.one_shiftLeft, htail, ← bitsToNat_take, hown,
    bitsToNat_drop, hlen, Nat.add_sub_cancel_left]

end Fields

namespace BitReader

/-- All bits of the bytes are ahead of a new reader. -/
@[simp] theorem bits_ofBytes (bytes : Bytes) : (ofBytes bytes).bits = bytes.bits := rfl

/-- A failure moves over no bits. -/
@[simp] theorem bits_fail (r : BitReader) : r.fail.bits = r.bits := rfl

/-- The bits ahead are as many as the reader counts. -/
@[simp] theorem length_bits (r : BitReader) : r.bits.length = r.available := by
  simp [bits, available]

/-- Moving on takes bits off the front. -/
theorem bits_advance (r : BitReader) (n : Nat) (h : n ≤ r.available) :
    (r.advance n h).bits = r.bits.drop n := by
  rw [bits, bits, List.drop_drop]
  simp only [advance]
  rw [Bytes.bits_drop, List.drop_drop, Nat.div_add_mod]

/-- Aligning takes the rest of a byte that was read in part off the front. -/
theorem bits_align (r : BitReader) : r.align.bits = r.bits.drop ((8 - r.used) % 8) := by
  have hused := r.used_lt
  by_cases h : r.used = 0
  · simp [align, aligned, h]
  · have hmod : (8 - r.used) % 8 = 8 - r.used := Nat.mod_eq_of_lt (by omega)
    simp only [align, aligned, beq_iff_eq, h, if_false, bits, hmod]
    rw [Bytes.bits_drop, List.drop_zero, List.drop_drop]
    congr 1
    omega

/-- Going on to the next byte boundary neither makes nor mends a failure. -/
@[simp] theorem failed_align (r : BitReader) : r.align.failed = r.failed := by
  rw [align]
  split <;> rfl

/-- Looking ahead gives the number that the next bits write. -/
theorem peek_eq (r : BitReader) (n : Nat) (h : n ≤ r.available) :
    r.peek n = bitsToNat (r.bits.take n) := by
  have hlen : (r.rest.take ((r.used + n + 7) / 8)).length = (r.used + n + 7) / 8 := by
    rw [List.length_take]
    have := r.used_le
    simp only [available] at h
    omega
  have hwindow : (Bytes.bits (r.rest.take ((r.used + n + 7) / 8))).take (r.used + n) =
      r.rest.bits.take (r.used + n) := by
    rw [Bytes.bits_take, List.take_take]
    congr 1
    omega
  have htake : r.bits.take n = (r.rest.bits.take (r.used + n)).drop r.used := by
    rw [bits, List.drop_take]
    congr 1
    omega
  have hrest : n = (r.rest.bits.take (r.used + n)).length - r.used := by
    simp only [available] at h
    rw [List.length_take, Bytes.length_bits]
    omega
  rw [peek, Nat.shiftRight_eq_div_pow, Nat.one_shiftLeft, ← Bytes.bitsToNat_bits,
    ← Bytes.length_bits, ← bitsToNat_take, hwindow, htake, bitsToNat_drop, ← hrest]

end BitReader

end TransportStream
