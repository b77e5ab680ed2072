import TransportStream.Layout.Basic
import TransportStream.Proofs.Bits.Reading

/-!
# Bytes that are written in a layout

A layout is written piece by piece, so that bytes in two layouts, one after the other, can
be cut where the second one begins. Each number in a layout can be read off the bits.
-/

namespace TransportStream.Layout

variable {first second layout : Layout} {bytes : Bytes}

/-- The empty layout takes no bits. -/
@[simp] theorem size_nil : size [] = 0 := rfl

/-- A number takes the bits of its width. -/
@[simp] theorem size_value (width n : Nat) (layout : Layout) :
    size (.value width n :: layout) = width + layout.size := by
  simp [size, Piece.width]

/-- Bits that may be anything are bits all the same. -/
@[simp] theorem size_free (width : Nat) (layout : Layout) :
    size (.free width :: layout) = width + layout.size := by
  simp [size, Piece.width]

/-- Layouts one after the other take their bits together. -/
@[simp] theorem size_append (first second : Layout) :
    (first ++ second).size = first.size + second.size := by
  simp [size]

/-- Bytes take eight bits each. -/
@[simp] theorem size_ofBytes (data : Bytes) : size (ofBytes data) = 8 * data.length := by
  induction data with
  | nil => rfl
  | cons byte data ih =>
    have hcons : ofBytes (byte :: data) = .value 8 byte.toNat :: ofBytes data := rfl
    rw [hcons, size_value, ih, List.length_cons]
    omega

/-- No bit of a number may be anything. -/
@[simp] theorem freeSize_value (width n : Nat) (layout : Layout) :
    freeSize (.value width n :: layout) = layout.freeSize := by
  simp [freeSize, Piece.freeWidth]

/-- Free pieces add their bits to those that may be anything. -/
@[simp] theorem freeSize_free (width : Nat) (layout : Layout) :
    freeSize (.free width :: layout) = width + layout.freeSize := by
  simp [freeSize, Piece.freeWidth]

/-- In layouts one after the other, the bits that may be anything are those of both. -/
@[simp] theorem freeSize_append (first second : Layout) :
    (first ++ second).freeSize = first.freeSize + second.freeSize := by
  simp [freeSize]

/-- In the empty layout nothing has to fit. -/
@[simp] theorem fits_nil : Fits [] := by
  intro piece hpiece
  cases hpiece

/-- A number fits if it is below the power of two of its width. -/
@[simp] theorem fits_value_iff {width n : Nat} :
    Fits (.value width n :: layout) ↔ n < 2 ^ width ∧ layout.Fits :=
  List.forall_mem_cons

/-- Bits that may be anything always fit. -/
@[simp] theorem fits_free_iff {width : Nat} : Fits (.free width :: layout) ↔ layout.Fits :=
  List.forall_mem_cons.trans (and_iff_right trivial)

/-- A flag always fits its bit. -/
@[simp] theorem fits_flag_iff {b : Bool} : Fits (flag b :: layout) ↔ layout.Fits :=
  fits_value_iff.trans (and_iff_right b.toNat_lt)

/-- Layouts one after the other fit if both do. -/
@[simp] theorem fits_append_iff : (first ++ second).Fits ↔ first.Fits ∧ second.Fits := by
  simp [Fits, or_imp, forall_and]

/-- The layouts of some items fit together if each of them does. -/
theorem fits_flatMap_iff {α : Type} {items : List α} {part : α → Layout} :
    Fits (items.flatMap part) ↔ ∀ item ∈ items, (part item).Fits := by
  simp only [Fits, List.mem_flatMap]
  constructor
  · intro h item hitem piece hpiece
    exact h piece ⟨item, hitem, hpiece⟩
  · rintro h piece ⟨item, hitem, hpiece⟩
    exact h item hitem piece hpiece

/-- Pieces take their bits from the front of those that may be anything. -/
theorem write_append (first second : Layout) (fill : List Bool) :
    (first ++ second).write fill = first.write fill ++ second.write (fill.drop first.freeSize) := by
  induction first generalizing fill with
  | nil => simp [write, freeSize]
  | cons piece first ih =>
    cases piece with
    | value width n =>
      rw [List.cons_append, write, write, ih, List.append_assoc, freeSize_value]
    | free width =>
      rw [List.cons_append, write, write, ih, List.append_assoc, List.drop_drop, freeSize_free]

/-- Only as many bits are taken as may be anything. -/
theorem write_take (layout : Layout) (fill : List Bool) :
    layout.write (fill.take layout.freeSize) = layout.write fill := by
  induction layout generalizing fill with
  | nil => rfl
  | cons piece layout ih =>
    cases piece with
    | value width n =>
      rw [write, write, freeSize_value, ih]
    | free width =>
      rw [write, write, freeSize_free, List.take_take, Nat.min_eq_left (Nat.le_add_right _ _),
        List.drop_take, Nat.add_sub_cancel_left, ih]

/-- With enough bits to fill in, a layout is written in as many bits as it takes. -/
theorem length_write {fill : List Bool} (h : layout.freeSize ≤ fill.length) :
    (layout.write fill).length = layout.size := by
  induction layout generalizing fill with
  | nil => rfl
  | cons piece layout ih =>
    cases piece with
    | value width n =>
      rw [freeSize_value] at h
      rw [write, List.length_append, length_bitsOfNat, ih h, size_value]
    | free width =>
      rw [freeSize_free] at h
      rw [write, List.length_append, List.length_take, ih (by rw [List.length_drop]; omega),
        size_free, Nat.min_eq_left (by omega)]

/-- Bytes have the size of the layout that they are written in. -/
theorem Writes.length_eq (h : layout.Writes bytes) : 8 * bytes.length = layout.size := by
  obtain ⟨fill, hfill, hbits⟩ := h
  rw [← Bytes.length_bits, hbits, length_write (Nat.le_of_eq hfill.symm)]

/-- What is written in two layouts is cut where the second one begins. -/
theorem Writes.split (h : (first ++ second).Writes bytes) (hwhole : 8 ∣ first.size) :
    ∃ left right, bytes = left ++ right ∧ first.Writes left ∧ second.Writes right := by
  obtain ⟨n, hn⟩ := hwhole
  obtain ⟨fill, hfill, hbits⟩ := h
  rw [freeSize_append] at hfill
  rw [write_append] at hbits
  have hlength : (first.write fill).length = 8 * n := by
    rw [← hn]
    exact length_write (by omega)
  refine ⟨bytes.take n, bytes.drop n, (List.take_append_drop n bytes).symm, ?_, ?_⟩
  · refine ⟨fill.take first.freeSize, by rw [List.length_take]; omega, ?_⟩
    rw [Bytes.bits_take, hbits, write_take, List.take_left' hlength]
  · refine ⟨fill.drop first.freeSize, by rw [List.length_drop]; omega, ?_⟩
    rw [Bytes.bits_drop, hbits, List.drop_left' hlength]

/-- A number in a layout is written by the bits in its place. -/
theorem bitsToNat_write {i width n : Nat} (hpiece : layout[i]? = some (.value width n))
    (hfits : layout.Fits) {fill : List Bool} (hfill : layout.freeSize ≤ fill.length) :
    bitsToNat (((layout.write fill).drop (size (layout.take i))).take width) = n := by
  obtain ⟨hi, hget⟩ := List.getElem?_eq_some_iff.mp hpiece
  have hfree : freeSize (layout.take i) ≤ fill.length := by
    have h := freeSize_append (layout.take i) (layout.drop i)
    rw [List.take_append_drop] at h
    omega
  have hsplit : layout.write fill = write (layout.take i) fill ++
      (bitsOfNat width n ++
        write (layout.drop (i + 1)) (fill.drop (freeSize (layout.take i)))) := by
    have h := write_append (layout.take i) (layout.drop i) fill
    rwa [List.take_append_drop, List.drop_eq_getElem_cons hi, hget, write] at h
  have hn : n < 2 ^ width := hfits _ (List.mem_of_getElem? hpiece)
  rw [hsplit, List.drop_left' (length_write hfree), List.take_left' (length_bitsOfNat _ _),
    bitsToNat_bitsOfNat, Nat.mod_eq_of_lt hn]

/-- A number of eight bits is written in one byte. -/
theorem eq_byte_of_writes {n : Nat} (hn : n < 2 ^ 8) (h : Writes [.value 8 n] bytes) :
    ∃ byte : UInt8, bytes = [byte] ∧ byte.toNat = n := by
  have hlength := h.length_eq
  rw [size_value, size_nil] at hlength
  obtain ⟨byte, rfl⟩ : ∃ byte, bytes = [byte] := List.length_eq_one_iff.mp (by omega)
  obtain ⟨fill, _, hbits⟩ := h
  have hnat : Bytes.toNat [byte] = n := by
    rw [← Bytes.bitsToNat_bits, hbits, write, write, List.append_nil, bitsToNat_bitsOfNat,
      Nat.mod_eq_of_lt hn]
  exact ⟨byte, rfl, by simpa [Bytes.toNat] using hnat⟩

/-- Bytes are written as they are, and nothing else is written so. -/
theorem bytes_eq_of_writes_ofBytes {data : Bytes} (h : (ofBytes data).Writes bytes) :
    bytes = data := by
  induction data generalizing bytes with
  | nil =>
    have hlength := h.length_eq
    rw [size_ofBytes] at hlength
    rw [List.length_nil] at hlength
    exact List.eq_nil_of_length_eq_zero (by omega)
  | cons byte data ih =>
    have hsplit : ofBytes (byte :: data) = [.value 8 byte.toNat] ++ ofBytes data := rfl
    rw [hsplit] at h
    obtain ⟨left, right, rfl, hleft, hright⟩ := h.split (by simp)
    obtain ⟨b, rfl, hb⟩ := eq_byte_of_writes byte.toNat_lt hleft
    rw [ih hright, UInt8.toNat_inj.mp hb, List.singleton_append]

end TransportStream.Layout
