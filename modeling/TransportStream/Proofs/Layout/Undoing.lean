import TransportStream.Proofs.Bits.Decoding
import TransportStream.Proofs.Layout.Writing

/-!
# Decoders that undo layouts

A decoder undoes a layout if it reads, off bytes that are written in it, the value that
was written, and reads exactly these bytes. What it gives may depend on how many bytes
follow, so that the bytes behind are part of the notion. A decoder that is built from
others undoes the layout that is built from theirs.
-/

namespace TransportStream

/-- Fields hold the numbers that stand in their places in a layout. -/
def Fields.Agrees {widths : List Nat} (fields : Fields widths) (layout : Layout) : Prop :=
  ∀ (i : Nat) (hi : i < widths.length) (width n : Nat),
    layout[i]? = some (.value width n) → fields.get i hi = n

/-- Where a layout has a number, the field is the number that the bits in this place write. -/
theorem Fields.get_of_piece {layout : Layout} {bits : List Bool} (hbits : bits.length = layout.size)
    {i width n : Nat} (hpiece : layout[i]? = some (.value width n))
    (hi : i < (layout.map Piece.width).length) :
    (⟨bitsToNat bits⟩ : Fields (layout.map Piece.width)).get i hi =
      bitsToNat ((bits.drop (Layout.size (layout.take i))).take width) := by
  have hplace : totalWidth ((layout.map Piece.width).take i) = Layout.size (layout.take i) := by
    rw [← List.map_take]
    rfl
  have hwidth : (layout.map Piece.width)[i] = width := by
    rw [List.getElem_map, (List.getElem?_eq_some_iff.mp hpiece).2, Piece.width]
  rw [get_bitsToNat _ hbits, hplace, hwidth]

/-- The number that the bits of a layout write has the numbers of the layout as its fields. -/
theorem Fields.agrees_write {widths : List Nat} {layout : Layout}
    (hwidths : layout.map Piece.width = widths) (hfits : layout.Fits) {fill : List Bool}
    (hfill : fill.length = layout.freeSize) :
    (⟨bitsToNat (layout.write fill)⟩ : Fields widths).Agrees layout := by
  subst hwidths
  intro i hi width n hpiece
  have hfree : layout.freeSize ≤ fill.length := Nat.le_of_eq hfill.symm
  rw [get_of_piece (Layout.length_write hfree) hpiece, Layout.bitsToNat_write hpiece hfits hfree]

/-- Where a layout has a flag, the field is that flag. -/
theorem Fields.Agrees.flag {widths : List Nat} {fields : Fields widths} {layout : Layout}
    (h : fields.Agrees layout) (i : Nat) (hi : i < widths.length) (b : Bool)
    (hpiece : layout[i]? = some (Layout.flag b)) : fields.flag i hi = b := by
  rw [Fields.flag, h i hi 1 b.toNat hpiece]
  cases b <;> rfl

namespace Decoder

/-- With some bytes behind them, bytes in a layout are read exactly, and give a value. -/
structure Undoes {α : Type} (decoder : Decoder α) (layout : Layout) (a : α) (tail : Bytes) :
    Prop where
  /-- The layout fills whole bytes. -/
  whole : 8 ∣ layout.size
  /-- The value is read. -/
  reads : ∀ bytes, layout.Writes bytes →
    decoder (.ofBytes (bytes ++ tail)) = .ok a (.ofBytes tail)

variable {α β : Type} {a : α} {b : β} {decoder : Decoder α} {layout first second : Layout}
  {tail bytes : Bytes} {widths : List Nat}

/-- Bytes in the layout are decoded, with those behind them. -/
theorem Undoes.decode (h : Undoes decoder layout a tail) (hwrites : layout.Writes bytes) :
    decoder.decode (bytes ++ tail) = .ok a :=
  decode_eq_ok.mpr ⟨_, h.reads bytes hwrites⟩

/-- Bytes are decoded if their first ones are in the layout. -/
theorem Undoes.decode_of_take {n : Nat} (h : Undoes decoder layout a (bytes.drop n))
    (hwrites : layout.Writes (bytes.take n)) : decoder.decode bytes = .ok a := by
  have hdecode := h.decode hwrites
  rwa [List.take_append_drop] at hdecode

/-- With others behind them, all of some bytes are ahead. -/
theorem le_available_ofBytes (bytes tail : Bytes) :
    8 * bytes.length ≤ (BitReader.ofBytes (bytes ++ tail)).available := by
  have havailable :
      (BitReader.ofBytes (bytes ++ tail)).available = 8 * (bytes ++ tail).length := rfl
  rw [havailable, List.length_append]
  omega

/-- A reader can move over all of some bytes to those behind them. -/
theorem consume_ofBytes (value : BitReader → α) (bytes tail : Bytes) :
    consume (8 * bytes.length) value (.ofBytes (bytes ++ tail)) =
      .ok (value (.ofBytes (bytes ++ tail))) (.ofBytes tail) := by
  rw [consume, if_neg (by simp [BitReader.ofBytes]), dif_pos (le_available_ofBytes bytes tail)]
  simp [BitReader.advance, BitReader.ofBytes]

/-- A number over all bits of some bytes is the one that they write. -/
theorem bits_ofBytes {n : Nat} (hn : n ≤ 64) (h : 8 * bytes.length = n) (tail : Bytes) :
    bits n (.ofBytes (bytes ++ tail)) = .ok (bitsToNat bytes.bits) (.ofBytes tail) := by
  have hroom : n ≤ (BitReader.ofBytes (bytes ++ tail)).available :=
    h ▸ le_available_ofBytes bytes tail
  have hpeek : (BitReader.ofBytes (bytes ++ tail)).peek n = bitsToNat bytes.bits := by
    rw [BitReader.peek_eq _ _ hroom, BitReader.bits_ofBytes, Bytes.bits_append,
      List.take_left' (by rw [Bytes.length_bits, h])]
  rw [bits, if_neg (Nat.not_lt.mpr hn)]
  subst h
  rw [consume_ofBytes, hpeek]

/-- The fields that are read off bytes in a layout hold the numbers in it. -/
theorem fields_ofBytes (hpacked : PackedWidths widths) (hwidths : layout.map Piece.width = widths)
    (hfits : layout.Fits) (hbytes : layout.Writes bytes) :
    ∃ f : Fields widths, f.Agrees layout ∧
      ∀ tail, fields widths hpacked (.ofBytes (bytes ++ tail)) = .ok f (.ofBytes tail) := by
  have hsize : 8 * bytes.length = totalWidth widths := by
    rw [hbytes.length_eq, ← hwidths]
    rfl
  obtain ⟨fill, hfill, hbits⟩ := hbytes
  refine ⟨⟨bitsToNat bytes.bits⟩, hbits ▸ Fields.agrees_write hwidths hfits hfill, ?_⟩
  intro tail
  rw [fields, bind_of_ok (bits_ofBytes hpacked.2 hsize tail)]
  rfl

/-- A value that is there without reading undoes the empty layout. -/
theorem undoes_pure (a : α) (tail : Bytes) : Undoes (pure a) [] a tail where
  whole := Nat.dvd_zero 8
  reads := by
    intro bytes hbytes
    have hlength := hbytes.length_eq
    rw [Layout.size_nil] at hlength
    rw [List.eq_nil_of_length_eq_zero (by omega : bytes.length = 0)]
    rfl

/-- A decoder undoes its layout as far as the bytes behind need it, and the next one the
layout behind. -/
theorem Undoes.bind_of_writes {next : α → Decoder β} (hwhole : 8 ∣ first.size)
    (h : ∀ bytes, second.Writes bytes → Undoes decoder first a (bytes ++ tail))
    (hnext : Undoes (next a) second b tail) :
    Undoes (decoder >>= next) (first ++ second) b tail where
  whole := by
    rw [Layout.size_append]
    exact Nat.dvd_add hwhole hnext.whole
  reads := by
    intro bytes hbytes
    obtain ⟨left, right, rfl, hleft, hright⟩ := hbytes.split hwhole
    rw [List.append_assoc, bind_of_ok ((h right hright).reads left hleft)]
    exact hnext.reads right hright

/-- One decoder after the other undoes one layout after the other. -/
theorem Undoes.bind {next : α → Decoder β} (h : ∀ tail, Undoes decoder first a tail)
    (hnext : Undoes (next a) second b tail) :
    Undoes (decoder >>= next) (first ++ second) b tail :=
  .bind_of_writes (h tail).whole (fun _ _ => h _) hnext

/-- Packed fields undo a layout of their widths, if what comes behind them undoes the rest
for all fields that hold the numbers in it. -/
theorem undoes_fields_bind {hpacked : PackedWidths widths}
    (hwidths : first.map Piece.width = widths) (hfits : first.Fits)
    {next : Fields widths → Decoder β}
    (hnext : ∀ f : Fields widths, f.Agrees first → Undoes (next f) second b tail) :
    Undoes (fields widths hpacked >>= next) (first ++ second) b tail := by
  have hwhole : 8 ∣ first.size := by
    have hsize : first.size = totalWidth widths := by
      rw [← hwidths]
      rfl
    exact hsize ▸ Nat.dvd_of_mod_eq_zero hpacked.1
  have hzeros := Fields.agrees_write hwidths hfits (List.length_replicate (a := false))
  constructor
  · rw [Layout.size_append]
    exact Nat.dvd_add hwhole (hnext _ hzeros).whole
  · intro bytes hbytes
    obtain ⟨left, right, rfl, hleft, hright⟩ := hbytes.split hwhole
    obtain ⟨f, hagrees, hfields⟩ := fields_ofBytes hpacked hwidths hfits hleft
    rw [List.append_assoc, bind_of_ok (hfields _)]
    exact (hnext f hagrees).reads right hright

/-- A value that is made of packed fields. -/
theorem undoes_fields {hpacked : PackedWidths widths} (hwidths : layout.map Piece.width = widths)
    (hfits : layout.Fits) {value : Fields widths → α}
    (hvalue : ∀ f : Fields widths, f.Agrees layout → value f = a) :
    Undoes (do return value (← fields widths hpacked)) layout a tail := by
  rw [← List.append_nil layout]
  refine undoes_fields_bind hwidths hfits fun f hf => ?_
  rw [hvalue f hf]
  exact undoes_pure a tail

/-- A layout is undone to what is made of its value. -/
theorem Undoes.map (f : α → β) (h : Undoes decoder layout a tail) :
    Undoes (f <$> decoder) layout (f a) tail where
  whole := h.whole
  reads := by
    intro bytes hbytes
    simp only [Functor.map, EStateM.map, h.reads bytes hbytes]

/-- Numbers of whole bytes. -/
theorem undoes_bits {width n : Nat} (hwidth : width ≤ 64) (hwhole : 8 ∣ width) (hn : n < 2 ^ width)
    (tail : Bytes) : Undoes (bits width) [.value width n] n tail where
  whole := by simpa using hwhole
  reads := by
    intro bytes hbytes
    have hlength := hbytes.length_eq
    obtain ⟨fill, _, hbits⟩ := hbytes
    rw [bits_ofBytes hwidth (by simpa using hlength), hbits, Layout.write, Layout.write,
      List.append_nil, bitsToNat_bitsOfNat, Nat.mod_eq_of_lt hn]

/-- A number of eight bits is read as it was written. -/
theorem undoes_u8 {n : Nat} (hn : n < 2 ^ 8) (tail : Bytes) : Undoes u8 [.value 8 n] n tail :=
  undoes_bits (by decide) (by decide) hn tail

/-- A number of 16 bits is read as it was written. -/
theorem undoes_u16 {n : Nat} (hn : n < 2 ^ 16) (tail : Bytes) : Undoes u16 [.value 16 n] n tail :=
  undoes_bits (by decide) (by decide) hn tail

/-- A number of 32 bits is read as it was written. -/
theorem undoes_u32 {n : Nat} (hn : n < 2 ^ 32) (tail : Bytes) : Undoes u32 [.value 32 n] n tail :=
  undoes_bits (by decide) (by decide) hn tail

/-- As many bytes as there are in front are read as they are. -/
theorem bytes_ofBytes (data tail : Bytes) :
    Decoder.bytes data.length (.ofBytes (data ++ tail)) = .ok data (.ofBytes tail) := by
  have haligned : (BitReader.ofBytes (data ++ tail)).aligned = true := rfl
  have htake : (BitReader.ofBytes (data ++ tail)).rest.take data.length = data := List.take_left
  rw [bytes_of_aligned haligned, consume_ofBytes, htake]

/-- Bytes are read as they were written. -/
theorem undoes_bytes (data tail : Bytes) :
    Undoes (Decoder.bytes data.length) (Layout.ofBytes data) data tail where
  whole := ⟨data.length, Layout.size_ofBytes data⟩
  reads := by
    intro bytes hbytes
    rw [Layout.bytes_eq_of_writes_ofBytes hbytes, bytes_ofBytes]

/-- Bytes behind their number. -/
theorem undoes_countedBytes {data : Bytes} (h : data.length < 2 ^ 8) (tail : Bytes) :
    Undoes countedBytes (.value 8 data.length :: Layout.ofBytes data) data tail :=
  .bind (undoes_u8 h) (undoes_bytes data tail)

/-- A part that may be missing, behind a flag that tells. -/
theorem undoes_ifFlag {part : Option α} {parts : α → Layout}
    (h : ∀ a ∈ part, Undoes decoder (parts a) a tail) :
    Undoes (ifFlag part.isSome decoder) (Layout.ofOption parts part) part tail := by
  cases part with
  | none => exact undoes_pure none tail
  | some a => exact (h a rfl).map some

/-- A layout whose length is known, with stuffing that fills it up. -/
theorem undoes_within {n : Nat} {stuffing : Layout} (hlength : 8 * n = (layout ++ stuffing).size)
    (hwhole : 8 ∣ layout.size)
    (h : ∀ bytes, stuffing.Writes bytes → Undoes decoder layout a bytes) (tail : Bytes) :
    Undoes (within n decoder) (layout ++ stuffing) a tail where
  whole := ⟨n, hlength.symm⟩
  reads := by
    intro bytes hbytes
    have hn : bytes.length = n := by
      have hsize := hbytes.length_eq
      omega
    obtain ⟨left, right, rfl, hleft, hright⟩ := hbytes.split hwhole
    have hdecode : decoder.decode (left ++ right) = .ok a := by
      rw [decode, (h right hright).reads left hleft]
    subst hn
    rw [within, bind_of_ok (bytes_ofBytes _ tail), hdecode]
    rfl

/-- A layout whose length is known. -/
theorem undoes_within_size (h : Undoes decoder layout a []) (tail : Bytes) :
    Undoes (within (layout.size / 8) decoder) layout a tail := by
  have hlength : 8 * (layout.size / 8) = Layout.size (layout ++ []) := by
    rw [List.append_nil]
    exact Nat.mul_div_cancel' h.whole
  have hnothing : ∀ bytes, Layout.Writes [] bytes → Undoes decoder layout a bytes := by
    intro bytes hbytes
    have hzero := hbytes.length_eq
    rw [Layout.size_nil] at hzero
    rwa [List.eq_nil_of_length_eq_zero (by omega : bytes.length = 0)]
  have hwithin := undoes_within hlength h.whole hnothing tail
  rwa [List.append_nil] at hwithin

/-- Items, each of which takes some bits, up to as many bytes as are to be left. -/
theorem undoes_repeated {items : List α} {parts : α → Layout}
    (hparts : ∀ item ∈ items, ∀ tail, Undoes decoder (parts item) item tail)
    (hsize : ∀ item ∈ items, 0 < (parts item).size) (tail : Bytes) :
    Undoes (repeated tail.length decoder) (items.flatMap parts) items tail := by
  induction items with
  | nil =>
    refine ⟨Nat.dvd_zero 8, fun bytes hbytes => ?_⟩
    have hlength := hbytes.length_eq
    rw [List.flatMap_nil, Layout.size_nil] at hlength
    rw [List.eq_nil_of_length_eq_zero (by omega : bytes.length = 0), repeated, if_neg]
    · rfl
    · simp [BitReader.remainingBytes, BitReader.available, BitReader.ofBytes]
  | cons item items ih =>
    have hfirst := hparts item List.mem_cons_self
    have hlater := ih (fun a ha => hparts a (List.mem_cons_of_mem _ ha))
      fun a ha => hsize a (List.mem_cons_of_mem _ ha)
    rw [List.flatMap_cons]
    constructor
    · rw [Layout.size_append]
      exact Nat.dvd_add (hfirst tail).whole hlater.whole
    · intro bytes hbytes
      obtain ⟨left, right, rfl, hleft, hright⟩ := hbytes.split (hfirst tail).whole
      have hpos : 0 < left.length := by
        have hlength := hleft.length_eq
        have hpos := hsize item List.mem_cons_self
        omega
      have hmore : tail.length < (BitReader.ofBytes (left ++ (right ++ tail))).remainingBytes := by
        simp [BitReader.remainingBytes, BitReader.available, BitReader.ofBytes]
        omega
      have hmoved : (BitReader.ofBytes (right ++ tail)).available <
          (BitReader.ofBytes (left ++ (right ++ tail))).available := by
        simp [BitReader.available, BitReader.ofBytes]
        omega
      rw [List.append_assoc, repeated, if_pos hmore, (hfirst (right ++ tail)).reads left hleft]
      simp only [hmoved, if_true, hlater.reads right hright]

end Decoder

end TransportStream
