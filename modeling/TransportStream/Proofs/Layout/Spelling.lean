import TransportStream.Proofs.Layout.Undoing

/-!
# Which bytes are written in a layout

Bytes are written in a layout whose numbers fit if they have its size, and the bits in the place of
each number write it. What is between the numbers may be anything. So the fields of given bytes are
the numbers of a layout in which the bytes are written.
-/

namespace TransportStream.Layout

/-- The numbers of a layout fit their widths, and bytes are written in it. -/
structure Spells (layout : Layout) (bytes : Bytes) : Prop where
  /-- Every number can be written in its width. -/
  fits : layout.Fits
  /-- The bytes are the numbers, with some bits between them. -/
  writes : layout.Writes bytes

variable {layout first second : Layout} {bytes left right : Bytes}

/-- No bytes are written in the empty layout. -/
theorem spells_nil : Spells [] [] where
  fits := by simp [Fits]
  writes := ⟨[], rfl, rfl⟩

/-- What is written in two layouts, one after the other, is written in both together. -/
theorem Writes.append (hleft : first.Writes left) (hright : second.Writes right) :
    (first ++ second).Writes (left ++ right) := by
  obtain ⟨fill, hfill, hbits⟩ := hleft
  obtain ⟨later, hlater, hbehind⟩ := hright
  refine ⟨fill ++ later, ?_, ?_⟩
  · rw [freeSize_append, List.length_append, hfill, hlater]
  · rw [write_append, ← write_take, ← hfill, List.take_left, List.drop_left, Bytes.bits_append,
      hbits, hbehind]

/-- Bytes behind others spell the layout behind theirs. -/
theorem Spells.append (hleft : first.Spells left) (hright : second.Spells right) :
    (first ++ second).Spells (left ++ right) where
  fits := fits_append_iff.mpr ⟨hleft.fits, hright.fits⟩
  writes := hleft.writes.append hright.writes

/-- Bits of the size of a layout are written in it if those in the place of each number write
it. -/
theorem exists_fill {bits : List Bool} (hlength : bits.length = layout.size)
    (h : ∀ i width n, layout[i]? = some (.value width n) →
      bitsToNat ((bits.drop (size (layout.take i))).take width) = n) :
    layout.Fits ∧ ∃ fill, fill.length = layout.freeSize ∧ bits = layout.write fill := by
  induction layout generalizing bits with
  | nil => exact ⟨spells_nil.fits, [], rfl, List.eq_nil_of_length_eq_zero hlength⟩
  | cons piece layout ih =>
    have hsize : ∀ pieces : Layout, size (piece :: pieces) = piece.width + pieces.size :=
      fun pieces => rfl
    rw [hsize] at hlength
    have hfirst : (bits.take piece.width).length = piece.width :=
      List.length_take_of_le (by omega)
    -- Behind the first piece each number is as far from it as before.
    have hbehind : ∀ i width n, layout[i]? = some (.value width n) →
        bitsToNat (((bits.drop piece.width).drop (size (layout.take i))).take width) = n := by
      intro i width n hpiece
      have hplace := h (i + 1) width n hpiece
      rwa [List.take_succ_cons, hsize, ← List.drop_drop] at hplace
    obtain ⟨hfits, fill, hfill, hwrite⟩ := ih (by rw [List.length_drop]; omega) hbehind
    cases piece with
    | value width n =>
      rw [Piece.width] at hfirst hwrite
      have hn : bitsToNat (bits.take width) = n := h 0 width n rfl
      have hlt := bitsToNat_lt (bits.take width)
      have hown := bitsOfNat_bitsToNat (bits.take width)
      rw [hfirst] at hlt hown
      rw [hn] at hlt hown
      refine ⟨List.forall_mem_cons.mpr ⟨hlt, hfits⟩, fill, by rw [hfill, freeSize_value], ?_⟩
      rw [write, hown, ← hwrite, List.take_append_drop]
    | free width =>
      rw [Piece.width] at hfirst hwrite
      refine ⟨List.forall_mem_cons.mpr ⟨trivial, hfits⟩, bits.take width ++ fill, ?_, ?_⟩
      · rw [List.length_append, hfirst, hfill, freeSize_free]
      · rw [write, List.take_left' hfirst, List.drop_left' hfirst, ← hwrite,
          List.take_append_drop]

/-- Bytes are written in a layout of their size if the fields of their number are its numbers. -/
theorem spells_of_agrees (hlength : 8 * bytes.length = layout.size)
    (h : (⟨bytes.toNat⟩ : Fields (layout.map Piece.width)).Agrees layout) :
    layout.Spells bytes := by
  rw [← Bytes.length_bits] at hlength
  obtain ⟨hfits, fill, hfill, hbits⟩ := exists_fill hlength (by
    intro i width n hpiece
    obtain ⟨hlt, _⟩ := List.getElem?_eq_some_iff.mp hpiece
    have hi : i < (layout.map Piece.width).length := by rwa [List.length_map]
    rw [← Fields.get_of_piece hlength hpiece hi, Bytes.bitsToNat_bits]
    exact h i hi width n hpiece)
  exact ⟨hfits, fill, hfill, hbits⟩

/-- Bytes are written as one number. -/
theorem spells_number (bytes : Bytes) : Spells [.value (8 * bytes.length) bytes.toNat] bytes := by
  have hlt := bitsToNat_lt bytes.bits
  have hown := bitsOfNat_bitsToNat bytes.bits
  rw [Bytes.length_bits, Bytes.bitsToNat_bits] at hlt hown
  refine ⟨List.forall_mem_singleton.mpr hlt, [], rfl, ?_⟩
  rw [write, write, List.append_nil, hown]

/-- A byte spells its own number. -/
theorem spells_byte (byte : UInt8) : Spells [.value 8 byte.toNat] [byte] := by
  have hnumber : Bytes.toNat [byte] = byte.toNat := by simp [Bytes.toNat]
  rw [← hnumber]
  exact spells_number [byte]

/-- Bytes are written as they are. -/
theorem spells_ofBytes (data : Bytes) : (ofBytes data).Spells data := by
  induction data with
  | nil => exact spells_nil
  | cons byte data ih => exact (spells_byte byte).append ih

/-- A layout of whole bytes can be written. -/
theorem exists_writes (layout : Layout) (hwhole : 8 ∣ layout.size) :
    ∃ bytes, layout.Writes bytes := by
  let zeros := List.replicate layout.freeSize false
  have hzeros : zeros.length = layout.freeSize := List.length_replicate
  obtain ⟨bytes, hbytes⟩ := Bytes.exists_bits (length_write (Nat.le_of_eq hzeros.symm) ▸ hwhole)
  exact ⟨bytes, zeros, hzeros, hbytes⟩

end TransportStream.Layout
