import TransportStream.Proofs.Bytes.Numbers

/-!
# Places in byte strings

The bytes from one place up to another write a number. Bytes that were cut out have the same
numbers at the places that were theirs before.
-/

namespace TransportStream

/-- The number that the bytes from one place up to another write. -/
def Bytes.number (bytes : Bytes) (start stop : Nat) : Nat := Bytes.toNat (bytes.extract start stop)

variable {bytes : Bytes}

/-- Between two places within the bytes there are as many bytes as the places are apart. -/
theorem length_extract {start stop : Nat} (hstop : stop ≤ bytes.length) :
    (bytes.extract start stop).length = stop - start := by
  rw [List.length_take, List.length_drop]
  omega

/-- Bytes up to a place, and from there on. -/
theorem extract_append_extract (bytes : Bytes) {start middle stop : Nat} (hstart : start ≤ middle)
    (hstop : middle ≤ stop) :
    bytes.extract start middle ++ bytes.extract middle stop = bytes.extract start stop := by
  obtain ⟨front, rfl⟩ := Nat.exists_eq_add_of_le hstart
  obtain ⟨behind, rfl⟩ := Nat.exists_eq_add_of_le hstop
  rw [List.extract, List.extract, List.extract, ← List.drop_drop, Nat.add_assoc start,
    Nat.add_sub_cancel_left, Nat.add_sub_cancel_left, ← Nat.add_assoc, Nat.add_sub_cancel_left,
    List.take_add]

/-- Bytes from a place on end with the last bytes of all. -/
theorem extract_of_drop {start : Nat} {front behind : Bytes} (hstart : start ≤ bytes.length)
    (h : bytes.drop start = front ++ behind) :
    front = bytes.extract start (bytes.length - behind.length) ∧
      behind = bytes.extract (bytes.length - behind.length) bytes.length := by
  have hlength := congrArg List.length h
  rw [List.length_drop, List.length_append] at hlength
  have hfront : bytes.length - behind.length - start = front.length := by omega
  have hbehind : bytes.length - (bytes.length - behind.length) = behind.length := by omega
  have hplace : bytes.length - behind.length = start + front.length := by omega
  constructor
  · rw [List.extract, hfront, h, List.take_left]
  · rw [List.extract, hbehind, hplace, ← List.drop_drop, h, List.drop_left, List.take_length]

/-- The number that one byte writes is that of the first byte from its place on. -/
theorem Bytes.number_byte (bytes : Bytes) (place : Nat) :
    bytes.number place (place + 1) = toNat ((bytes.drop place).take 1) := by
  rw [number, List.extract, Nat.add_sub_cancel_left]

/-- One byte writes a number of eight bits. -/
theorem Bytes.number_lt_of_byte (bytes : Bytes) (place : Nat) :
    bytes.number place (place + 1) < 2 ^ 8 := by
  have hlength : (bytes.extract place (place + 1)).length ≤ 1 := by
    rw [List.length_take]
    omega
  calc bytes.number place (place + 1)
      < 2 ^ (8 * (bytes.extract place (place + 1)).length) := toNat_lt _
    _ ≤ 2 ^ 8 := Nat.pow_le_pow_right (by decide) (by omega)

/-- The bytes up to a place are the higher digits, those from there on the lower ones. -/
theorem Bytes.number_append {start middle stop : Nat} (hstart : start ≤ middle)
    (hmiddle : middle ≤ stop) (hstop : stop ≤ bytes.length) :
    bytes.number start stop =
      bytes.number start middle * 2 ^ (8 * (stop - middle)) + bytes.number middle stop := by
  rw [number, ← extract_append_extract bytes hstart hmiddle, toNat_append, length_extract hstop]
  rfl

/-- A bit of a number is one of the byte that it stands in. -/
theorem Bytes.testBit_number {start place stop i : Nat} (hstart : start ≤ place)
    (hplace : place < stop) (hstop : stop ≤ bytes.length) (hi : i < 8) :
    (bytes.number start stop).testBit (8 * (stop - (place + 1)) + i) =
      (bytes.number place (place + 1)).testBit i := by
  have hlower : bytes.number (place + 1) stop < 2 ^ (8 * (stop - (place + 1))) := by
    rw [← length_extract hstop]
    exact toNat_lt _
  have hone : 8 * (place + 1 - place) = 8 := by omega
  rw [number_append (Nat.le_succ_of_le hstart) hplace hstop, Nat.mul_comm,
    Nat.testBit_two_pow_mul_add _ hlower, if_neg (by omega), Nat.add_sub_cancel_left,
    number_append hstart (Nat.le_succ place) (Nat.le_trans hplace hstop), hone, Nat.mul_comm,
    Nat.testBit_two_pow_mul_add _ (number_lt_of_byte bytes place), if_pos hi]

/-- Numbers in bytes that were cut out are those at their places before. -/
theorem Bytes.number_extract (bytes : Bytes) (start : Nat) {stop first last : Nat}
    (h : start + last ≤ stop) :
    number (bytes.extract start stop) first last = bytes.number (start + first) (start + last) := by
  have hcut : (bytes.extract start stop).extract first last =
      bytes.extract (start + first) (start + last) := by
    rw [List.extract, List.extract, List.extract, List.drop_take, List.drop_drop, List.take_take]
    congr 1
    omega
  rw [number, number, hcut]

/-- Bytes that begin alike are the same up to a place where they still are. -/
theorem extract_eq_of_take {left right : Bytes} {n start stop : Nat}
    (h : left.take n = right.take n) (hstop : stop ≤ n) :
    left.extract start stop = right.extract start stop := by
  have hcut : ∀ bytes : Bytes,
      bytes.extract start stop = ((bytes.take n).take stop).drop start := by
    intro bytes
    rw [List.extract, List.take_take, Nat.min_eq_left hstop, List.drop_take]
  rw [hcut, hcut, h]

/-- A number is told by the bytes in front of its end. -/
theorem Bytes.number_eq_of_take {left right : Bytes} {n start stop : Nat}
    (h : left.take n = right.take n) (hstop : stop ≤ n) :
    left.number start stop = right.number start stop :=
  congrArg toNat (extract_eq_of_take h hstop)

/-- Bytes of which the first ones are those of others are as many as these. -/
theorem le_length_of_take_eq {left right : Bytes} {n : Nat} (hroom : n ≤ right.length)
    (h : left.take n = right.take n) : n ≤ left.length := by
  have hlength := congrArg List.length h
  rw [List.length_take, List.length_take] at hlength
  omega

/-- Bytes that are the same up to a place behind their end are the same. -/
theorem eq_of_take_eq {left right : Bytes} {n : Nat} (hshort : right.length < n)
    (h : left.take n = right.take n) : left = right := by
  rw [List.take_of_length_le (Nat.le_of_lt hshort)] at h
  have hlength := congrArg List.length h
  rw [List.length_take] at hlength
  rwa [List.take_of_length_le (by omega)] at h

end TransportStream
