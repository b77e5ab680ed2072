import Mathlib.Algebra.Group.Nat.Defs
import TransportStream.Bytes

/-!
# Bits, bytes and the numbers they write

Bits in front are the higher digits of a number. A byte string writes the same number
byte by byte and bit by bit, and its first bytes have its first bits.
-/

namespace TransportStream

/-- A number is written in as many bits as it is given. -/
@[simp] theorem length_bitsOfNat (width n : Nat) : (bitsOfNat width n).length = width := by
  simp [bitsOfNat]

/-- Reading on continues the number read so far. -/
theorem foldl_bit (bits : List Bool) (n : Nat) :
    bits.foldl (fun n bit => 2 * n + bit.toNat) n = n * 2 ^ bits.length + bitsToNat bits := by
  induction bits generalizing n with
  | nil => simp [bitsToNat]
  | cons bit bits ih =>
    simp only [List.foldl_cons, List.length_cons, bitsToNat]
    rw [ih, ih (2 * 0 + bit.toNat), Nat.add_mul, Nat.add_mul, Nat.pow_succ]
    rw [Nat.mul_zero, Nat.zero_mul, Nat.mul_comm 2 n, Nat.mul_assoc, Nat.mul_comm 2]
    omega

/-- Appended bits are the lower digits. -/
theorem bitsToNat_append (left right : List Bool) :
    bitsToNat (left ++ right) = bitsToNat left * 2 ^ right.length + bitsToNat right := by
  rw [bitsToNat, List.foldl_append, foldl_bit]
  rfl

/-- The first bit counts more than all the others together. -/
theorem bitsToNat_cons (bit : Bool) (bits : List Bool) :
    bitsToNat (bit :: bits) = bit.toNat * 2 ^ bits.length + bitsToNat bits := by
  have h := bitsToNat_append [bit] bits
  have hbit : bitsToNat [bit] = bit.toNat := by cases bit <;> rfl
  rwa [hbit, List.singleton_append] at h

/-- So many bits write a number below that power of two. -/
theorem bitsToNat_lt (bits : List Bool) : bitsToNat bits < 2 ^ bits.length := by
  induction bits with
  | nil => simp [bitsToNat]
  | cons bit bits ih =>
    have hbit := Nat.mul_le_mul_right (2 ^ bits.length) bit.toNat_le
    rw [bitsToNat_cons, List.length_cons, Nat.pow_succ]
    omega

/-- The lowest `width` bits of a number write its remainder. -/
theorem bitsToNat_bitsOfNat (width n : Nat) : bitsToNat (bitsOfNat width n) = n % 2 ^ width := by
  induction width generalizing n with
  | zero => simp [bitsOfNat, bitsToNat, Nat.mod_one]
  | succ width ih =>
    have hsplit : bitsOfNat (width + 1) n = n.testBit width :: bitsOfNat width n := by
      simp only [bitsOfNat, List.range_succ_eq_map, List.map_cons, List.map_map]
      congr 1
      apply List.map_congr_left
      intro i _
      simp only [Function.comp_apply]
      congr 1
      omega
    have hbit : bitsToNat [n.testBit width] = n / 2 ^ width % 2 := by
      rw [Nat.testBit_eq_decide_div_mod_eq]
      rcases Nat.mod_two_eq_zero_or_one (n / 2 ^ width) with h | h <;> simp [bitsToNat, h]
    rw [hsplit, ← List.singleton_append, bitsToNat_append, ih, length_bitsOfNat,
      Nat.mod_pow_succ, hbit, Nat.mul_comm, Nat.add_comm]

/-- Bits are told by how many they are and the number that they write. -/
theorem bits_eq_of_bitsToNat {left right : List Bool} (hlength : left.length = right.length)
    (h : bitsToNat left = bitsToNat right) : left = right := by
  induction left generalizing right with
  | nil => exact (List.eq_nil_of_length_eq_zero hlength.symm).symm
  | cons bit left ih =>
    cases right with
    | nil => cases hlength
    | cons other right =>
      have hbehind : left.length = right.length := Nat.succ.inj hlength
      have hleft := bitsToNat_lt left
      have hright := bitsToNat_lt right
      rw [bitsToNat_cons, bitsToNat_cons, hbehind] at h
      rw [hbehind] at hleft
      -- Both numbers are below the power of two that the first bit stands for.
      have hfirst : bit = other ∧ bitsToNat left = bitsToNat right := by
        cases bit <;> cases other <;> simp only [Bool.toNat_true, Bool.toNat_false] at h <;>
          simp <;> omega
      rw [hfirst.1, ih hbehind hfirst.2]

/-- Bits are told by the number that they write and by how many they are. -/
theorem bitsOfNat_bitsToNat (bits : List Bool) : bitsOfNat bits.length (bitsToNat bits) = bits := by
  refine bits_eq_of_bitsToNat (length_bitsOfNat _ _) ?_
  rw [bitsToNat_bitsOfNat, Nat.mod_eq_of_lt (bitsToNat_lt bits)]

/-- The number of the bits in front of the last ones. -/
theorem bitsToNat_take (bits : List Bool) (n : Nat) :
    bitsToNat (bits.take n) = bitsToNat bits / 2 ^ (bits.length - n) := by
  have h := bitsToNat_append (bits.take n) (bits.drop n)
  have hlt := bitsToNat_lt (bits.drop n)
  rw [List.take_append_drop, List.length_drop] at h
  rw [List.length_drop] at hlt
  rw [h, Nat.mul_comm, Nat.mul_add_div (Nat.two_pow_pos _), Nat.div_eq_of_lt hlt, Nat.add_zero]

/-- The number of the bits behind the first ones. -/
theorem bitsToNat_drop (bits : List Bool) (n : Nat) :
    bitsToNat (bits.drop n) = bitsToNat bits % 2 ^ (bits.length - n) := by
  have h := bitsToNat_append (bits.take n) (bits.drop n)
  have hlt := bitsToNat_lt (bits.drop n)
  rw [List.take_append_drop, List.length_drop] at h
  rw [List.length_drop] at hlt
  rw [h, Nat.mul_comm, Nat.mul_add_mod, Nat.mod_eq_of_lt hlt]

namespace Bytes

/-- No bytes have no bits. -/
@[simp] theorem bits_nil : bits [] = [] := rfl

/-- The bits of the first byte come first. -/
theorem bits_cons (byte : UInt8) (bytes : Bytes) :
    bits (byte :: bytes) = bitsOfNat 8 byte.toNat ++ bits bytes := rfl

/-- The bits of bytes behind others come behind theirs. -/
@[simp] theorem bits_append (left right : Bytes) :
    bits (left ++ right) = left.bits ++ right.bits := by
  simp [bits]

/-- Each byte has eight bits. -/
@[simp] theorem length_bits (bytes : Bytes) : bytes.bits.length = 8 * bytes.length := by
  induction bytes with
  | nil => rfl
  | cons byte bytes ih =>
    rw [bits_cons, List.length_append, length_bitsOfNat, ih, List.length_cons]
    omega

/-- The first bytes have the first bits. -/
theorem bits_take (bytes : Bytes) (n : Nat) : bits (bytes.take n) = bytes.bits.take (8 * n) := by
  induction bytes generalizing n with
  | nil => simp
  | cons byte bytes ih =>
    cases n with
    | zero => rfl
    | succ n =>
      have hn : 8 * (n + 1) = (bitsOfNat 8 byte.toNat).length + 8 * n := by simp; omega
      rw [List.take_succ_cons, bits_cons, bits_cons, ih, hn, List.take_length_add_append]

/-- The bytes behind the first ones have the bits behind the first ones. -/
theorem bits_drop (bytes : Bytes) (n : Nat) : bits (bytes.drop n) = bytes.bits.drop (8 * n) := by
  induction bytes generalizing n with
  | nil => simp
  | cons byte bytes ih =>
    cases n with
    | zero => rfl
    | succ n =>
      have hn : 8 * (n + 1) = (bitsOfNat 8 byte.toNat).length + 8 * n := by simp; omega
      rw [List.drop_succ_cons, bits_cons, ih, hn, List.drop_length_add_append]

/-- A byte string writes the same number byte by byte and bit by bit. -/
theorem bitsToNat_bits (bytes : Bytes) : bitsToNat bytes.bits = bytes.toNat := by
  have h : ∀ n, bytes.foldl (fun n byte => 256 * n + byte.toNat) n =
      n * 2 ^ (8 * bytes.length) + bitsToNat bytes.bits := by
    induction bytes with
    | nil => simp [bitsToNat]
    | cons byte bytes ih =>
      intro n
      rw [List.foldl_cons, ih, bits_cons, bitsToNat_append, bitsToNat_bitsOfNat, length_bits,
        Nat.mod_eq_of_lt byte.toNat_lt, List.length_cons, Nat.mul_add, Nat.pow_add, Nat.add_mul]
      rw [Nat.mul_comm 256, Nat.mul_assoc, Nat.mul_comm 256, Nat.add_assoc]
  rw [Bytes.toNat, h, Nat.zero_mul, Nat.zero_add]

/-- Appended bytes are the lower digits. -/
theorem toNat_append (left right : Bytes) :
    toNat (left ++ right) = toNat left * 2 ^ (8 * right.length) + toNat right := by
  rw [← bitsToNat_bits, bits_append, bitsToNat_append, bitsToNat_bits, bitsToNat_bits, length_bits]

/-- So many bytes write a number below that power of 256. -/
theorem toNat_lt (bytes : Bytes) : bytes.toNat < 2 ^ (8 * bytes.length) := by
  have hlt := bitsToNat_lt bytes.bits
  rwa [length_bits, bitsToNat_bits] at hlt

/-- Bits that fill whole bytes are those of some bytes. -/
theorem exists_bits {bits : List Bool} (h : 8 ∣ bits.length) :
    ∃ bytes : Bytes, bytes.bits = bits := by
  obtain ⟨count, hcount⟩ := h
  induction count generalizing bits with
  | zero => exact ⟨[], (List.eq_nil_of_length_eq_zero hcount).symm⟩
  | succ count ih =>
    have hbehind : (bits.drop 8).length = 8 * count := by
      rw [List.length_drop]
      omega
    obtain ⟨bytes, hbytes⟩ := ih hbehind
    have height : (bits.take 8).length = 8 := List.length_take_of_le (by omega)
    have hlt := bitsToNat_lt (bits.take 8)
    have hown := bitsOfNat_bitsToNat (bits.take 8)
    rw [height] at hlt hown
    refine ⟨UInt8.ofNat (bitsToNat (bits.take 8)) :: bytes, ?_⟩
    rw [bits_cons, UInt8.toNat_ofNat', Nat.mod_eq_of_lt hlt, hown, hbytes, List.take_append_drop]

end Bytes

end TransportStream
