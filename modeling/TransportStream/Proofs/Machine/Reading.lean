import TransportStream.Proofs.Bits.Progress
import TransportStream.Proofs.Machine.Simulation

/-!
# Reading fields, bytes and items

Fields that are read one by one are those of the packed number, and bytes and items are read from
inside of the buffer only. Reading item after item ends, as each item takes some bits.
-/

namespace TransportStream.Machine

variable {α β : Type} {widths : List Nat}

/-- The numbers that some bits write field by field. -/
def fieldNumbers : List Nat → List Bool → List Nat
  | [], _ => []
  | width :: widths, bits => bitsToNat (bits.take width) :: fieldNumbers widths (bits.drop width)

/-- The numbers of fields are told by the bits of the fields. -/
theorem fieldNumbers_take (widths : List Nat) (bits : List Bool) :
    fieldNumbers widths (bits.take (totalWidth widths)) = fieldNumbers widths bits := by
  induction widths generalizing bits with
  | nil => rfl
  | cons width widths ih =>
    rw [totalWidth_cons, fieldNumbers, fieldNumbers, List.take_take,
      Nat.min_eq_left (Nat.le_add_right _ _), List.drop_take, Nat.add_sub_cancel_left, ih]

/-- The number of a field is written by the bits in its place. -/
theorem getElem?_fieldNumbers {widths : List Nat} (bits : List Bool) {i : Nat}
    (h : i < widths.length) : (fieldNumbers widths bits)[i]? =
      some (bitsToNat ((bits.drop (totalWidth (widths.take i))).take widths[i])) := by
  induction widths generalizing bits i with
  | nil => cases h
  | cons width widths ih =>
    cases i with
    | zero => rfl
    | succ i =>
      rw [fieldNumbers, List.getElem?_cons_succ, ih _ (Nat.lt_of_succ_lt_succ h),
        List.take_succ_cons, totalWidth_cons, List.drop_drop]
      rfl

/-- There is one number for each field. -/
theorem length_fieldNumbers (widths : List Nat) (bits : List Bool) :
    (fieldNumbers widths bits).length = widths.length := by
  induction widths generalizing bits with
  | nil => rfl
  | cons width widths ih => rw [fieldNumbers, List.length_cons, ih, List.length_cons]

/-- The fields of a packed number are the numbers that its bits write field by field. -/
theorem values_bitsToNat {widths : List Nat} {bits : List Bool}
    (h : bits.length = totalWidth widths) :
    (⟨bitsToNat bits⟩ : Fields widths).values = fieldNumbers widths bits := by
  refine List.ext_getElem? fun i => ?_
  by_cases hi : i < widths.length
  · rw [getElem?_fieldNumbers bits hi, ← Fields.get_bitsToNat bits h i hi]
    simp [Fields.values, hi]
  · rw [List.getElem?_eq_none (by simpa [Fields.values] using hi),
      List.getElem?_eq_none (by simpa [length_fieldNumbers] using hi)]

/-- No field is wider than all of them together. -/
theorem le_totalWidth {width : Nat} (h : width ∈ widths) : width ≤ totalWidth widths := by
  induction widths with
  | nil => cases h
  | cons first widths ih =>
    rw [totalWidth_cons]
    rcases List.mem_cons.mp h with rfl | h
    · exact Nat.le_add_right _ _
    · exact Nat.le_trans (ih h) (Nat.le_add_left _ _)

/-- Few enough bits are summed up without a fault. -/
theorem foldlM_add {sum : Nat} (h : sum + totalWidth widths < 2 ^ 32) :
    (widths.foldlM (add 32) sum : Checked Nat) = pure (sum + totalWidth widths) := by
  induction widths generalizing sum with
  | nil => rfl
  | cons width widths ih =>
    rw [totalWidth_cons, ← Nat.add_assoc] at h
    rw [List.foldlM_cons, add_eq (Nat.lt_of_le_of_lt (Nat.le_add_right _ _) h), pure_bind, ih h,
      totalWidth_cons, Nat.add_assoc]

namespace Follows

open Reader

variable {c : Cursor} {r : BitReader}

/-- With enough bits ahead the cursor gives the number that they write and moves on. -/
theorem runOn_readBits (h : Follows c r) (hfailed : r.failed = false) {n : Nat} (hn : n ≤ 64)
    (hroom : n ≤ r.available) :
    (readBits n).runOn c = pure (.ok (bitsToNat (r.bits.take n)), c.advance n) := by
  rw [readBits, if_neg (Nat.not_lt.mpr hn), runOn_bind_of_ok (h.runOn_ensureBits hfailed hroom),
    h.runOn_nextBits hn hroom (Nat.two_pow_pos _), Nat.zero_mul, Nat.zero_add]

/-- Fields are read one by one. -/
theorem runOn_readEach (h : Follows c r) (hfailed : r.failed = false)
    (hwidths : ∀ width ∈ widths, width ≤ 64) (hroom : totalWidth widths ≤ r.available) :
    (readEach widths).runOn c =
      pure (.ok (fieldNumbers widths r.bits), c.advance (totalWidth widths)) := by
  induction widths generalizing c r with
  | nil =>
    have hused := r.used_lt
    rw [h.used] at hused
    rw [totalWidth_nil, Cursor.advance_zero hused]
    rfl
  | cons width widths ih =>
    rw [totalWidth_cons] at hroom
    have hfirst : width ≤ r.available := by omega
    have hlater : totalWidth widths ≤ (r.advance width hfirst).available := by
      rw [BitReader.available_advance]
      omega
    have hread := ih (h.advance hfirst) hfailed
      (fun later hlater => hwidths later (List.mem_cons_of_mem _ hlater)) hlater
    rw [BitReader.bits_advance, Cursor.advance_advance] at hread
    rw [readEach,
      runOn_bind_of_ok (h.runOn_readBits hfailed (hwidths width List.mem_cons_self) hfirst),
      runOn_bind_of_ok hread, runOn_pure, fieldNumbers, totalWidth_cons]

end Follows

/-- Fields are read as one number. -/
theorem fields_eq_consume (hpacked : PackedWidths widths) : Decoder.fields widths hpacked =
    Decoder.consume (totalWidth widths) fun r => ⟨r.peek (totalWidth widths)⟩ := by
  funext r
  rw [Decoder.fields, Decoder.bits, if_neg (Nat.not_lt.mpr hpacked.2)]
  simp only [bind, EStateM.bind, Decoder.consume]
  by_cases hfailed : r.failed = true
  · simp only [if_pos hfailed]
  · by_cases hroom : totalWidth widths ≤ r.available
    · simp only [if_neg hfailed, dif_pos hroom]
      rfl
    · simp only [if_neg hfailed, dif_neg hroom]

/-- The fields of a packed number are read one by one. -/
theorem SimulatesAs.readFields (hpacked : PackedWidths widths) :
    SimulatesAs Fields.values (fun _ => True) (Reader.readFields widths)
      (Decoder.fields widths hpacked) := by
  have hsum : 0 + totalWidth widths < 2 ^ 32 := by
    have := hpacked.2
    omega
  intro c r hfollows
  rw [fields_eq_consume, Reader.readFields, Reader.lift_bind (foldlM_add hsum), Nat.zero_add,
    Reader.lift_bind (given_eq hpacked _ _)]
  refine EndsAs.consume hfollows fun hfailed hroom => ⟨trivial, ?_⟩
  have hwidths : ∀ width ∈ widths, width ≤ 64 :=
    fun width hwidth => Nat.le_trans (le_totalWidth hwidth) hpacked.2
  have hlength : (r.bits.take (totalWidth widths)).length = totalWidth widths := by
    rw [List.length_take, BitReader.length_bits, Nat.min_eq_left hroom]
  rw [hfollows.runOn_readEach hfailed hwidths hroom, BitReader.peek_eq r _ hroom,
    values_bitsToNat hlength, fieldNumbers_take]

section Values

variable (f : Fields widths) (i : Nat) (h : i < widths.length)

/-- The value of a field is found in its place. -/
theorem index_values : index f.values i = pure (f.get i h) := by
  refine index_eq ?_
  simp [Fields.values, h]

/-- A field is asked for without a fault. -/
theorem field_values : Reader.field f.values i = pure (f.get i h) := by
  rw [Reader.field, index_values f i h, liftM_pure]

/-- A flag is asked for without a fault. -/
theorem flag_values : Reader.flag f.values i = pure (f.flag i h) := by
  rw [Reader.flag, index_values f i h, liftM_pure, pure_bind, Fields.flag]

/-- A field fits into a number that is as wide as it is. -/
theorem fieldAs_values {width : Nat} (hwidth : widths[i] ≤ width) :
    Reader.fieldAs width f.values i = pure (f.get i h) := by
  have hfits : f.get i h < 2 ^ width :=
    Nat.lt_of_lt_of_le (f.get_lt i h) (Nat.pow_le_pow_right (by decide) hwidth)
  rw [Reader.fieldAs, index_values f i h, liftM_pure, pure_bind, narrow_eq hfits, liftM_pure]

/-- A field is checked for one value as in decoding. -/
theorem Simulates.expectEq (expected : Nat) :
    Simulates (Reader.expectEq f.values i expected) (Decoder.expectEq f i expected h) := by
  rw [Reader.expectEq, index_values f i h, liftM_pure, pure_bind, Decoder.expectEq, ite_not]
  exact .ite (fun _ => .pure trivial) fun _ => .fail _

/-- A field is checked against one value as in decoding. -/
theorem Simulates.expectNe (forbidden : Nat) :
    Simulates (Reader.expectNe f.values i forbidden) (Decoder.expectNe f i forbidden h) := by
  rw [Reader.expectNe, index_values f i h, liftM_pure, pure_bind, Decoder.expectNe]
  exact .ite (fun _ => .fail _) fun _ => .pure trivial

end Values

/-- Whole bytes are taken from inside of the buffer. -/
theorem Follows.runOn_nextBytes {c : Cursor} {r : BitReader} (h : Follows c r)
    (haligned : r.aligned = true) {n : Nat} (hroom : 8 * n ≤ r.available) :
    (Reader.nextBytes n).runOn c = pure (.ok (r.rest.take n), c.advance (8 * n)) := by
  have hsmall := h.small
  have hinside := h.inside
  have hused : c.bitOffset = 0 := by simpa [BitReader.aligned, h.used] using haligned
  rw [BitReader.available, h.length_rest, h.used, hused] at hroom
  rw [bufferLimit] at hsmall
  have hadvance : c.advance (8 * n) = { c with byteOffset := c.byteOffset + n } := by
    simp [Cursor.advance, hused]
  have htake : (c.data.take (c.byteOffset + n)).drop c.byteOffset = r.rest.take n := by
    rw [h.rest, List.drop_take, Nat.add_sub_cancel_left]
  rw [Reader.nextBytes, Reader.runOn_get_bind, Reader.lift_bind (add_eq (by omega)),
    Reader.lift_bind (slice_eq (by omega) (by omega)),
    Reader.runOn_bind_of_ok (Reader.runOn_set _ _), Reader.runOn_pure, hadvance, htake]

namespace SimulatesWith

variable {P : α → Prop} {reader : Reader α} {decoder : Decoder α}

/-- The number of bits to be read must fit into 64 bits, even if there are not that many. -/
theorem readBytes_of_fits {n : Nat} (hn : n * 8 < 2 ^ 64) :
    SimulatesWith (·.length < bufferLimit) (Reader.readBytes n) (Decoder.bytes n) := by
  intro c r hfollows
  rw [Reader.readBytes, Reader.runOn_get_bind, ← hfollows.used]
  by_cases haligned : r.aligned = true
  · have hused : r.used = 0 := by simpa [BitReader.aligned] using haligned
    have hbytes : Decoder.bytes n r = Decoder.consume (8 * n) (·.rest.take n) r :=
      Decoder.bytes_of_aligned haligned n
    rw [if_neg (by simp [hused]), Reader.lift_bind (mul_eq hn), hbytes, Nat.mul_comm n 8]
    refine EndsAs.consume hfollows fun _ hroom => ⟨?_, hfollows.runOn_nextBytes haligned hroom⟩
    have hsmall := hfollows.small
    rw [List.length_take, hfollows.length_rest]
    omega
  · have hused : r.used ≠ 0 := by simpa [BitReader.aligned] using haligned
    rw [if_pos hused, Decoder.bytes_of_not_aligned (by simpa using haligned)]
    exact fail _ c r hfollows

/-- Bytes are read with a cursor as they are decoded, if they keep to the limit of a buffer. -/
theorem readBytes {n : Nat} (hn : n ≤ bufferLimit) :
    SimulatesWith (·.length < bufferLimit) (Reader.readBytes n) (Decoder.bytes n) := by
  rw [bufferLimit] at hn
  exact readBytes_of_fits (by omega)

/-- A value is read off some bytes by themselves as it is decoded from them. -/
theorem inside (h : SimulatesWith P reader decoder) {bytes : Bytes}
    (hbytes : bytes.length < bufferLimit) :
    SimulatesWith P (Reader.inside bytes reader) (ofExcept (decoder.decode bytes)) := by
  rw [Reader.inside, Decoder.decode]
  cases hread : decoder (.ofBytes bytes) with
  | ok a r' =>
    obtain ⟨ha, c', hrun, _⟩ := h.of_ok (Follows.ofBytes hbytes) hread
    rw [hrun, liftM_pure, pure_bind]
    exact pure ha
  | error e r' =>
    obtain ⟨c', hrun, _⟩ := h.of_error (Follows.ofBytes hbytes) hread
    rw [hrun, liftM_pure, pure_bind]
    exact throw e

/-- A part is read with a cursor of its own as it is decoded by itself. -/
theorem within (h : SimulatesWith P reader decoder) {n : Nat} (hn : n ≤ bufferLimit) :
    SimulatesWith P (Reader.within n reader) (Decoder.within n decoder) :=
  (readBytes hn).bind fun _ hbytes => h.inside hbytes

/-- A part that may be missing is read with a cursor as it is decoded. -/
theorem ifFlag (h : SimulatesWith P reader decoder) (flag : Bool) :
    SimulatesWith (fun a => ∀ b ∈ a, P b) (Reader.ifFlag flag reader)
      (Decoder.ifFlag flag decoder) := by
  unfold Reader.ifFlag Decoder.ifFlag
  refine ite (fun _ => ?_) fun _ => pure (by simp)
  rw [map_eq_pure_bind, map_eq_pure_bind]
  exact h.bind fun a ha => pure (by simpa using ha)

/-- All bytes ahead are read with a cursor as they are decoded. -/
theorem remainingData :
    SimulatesWith (·.length < bufferLimit) Reader.remainingData Decoder.rest := by
  intro c r hfollows
  have hsmall := hfollows.small
  have hrest : (c.data.take c.data.length).drop (min c.byteOffset c.data.length) = r.rest := by
    rw [Nat.min_eq_left hfollows.inside, List.take_length, hfollows.rest]
  refine ⟨?_, c, ?_, hfollows⟩
  · have hlength := hfollows.length_rest
    simp only [hlength]
    omega
  · rw [Reader.remainingData, Reader.runOn_get_bind,
      Reader.runOn_lift (slice_eq (Nat.min_le_right _ _) (Nat.le_refl _)), hrest]
    rfl

end SimulatesWith

section Loop

variable {item : Reader α} {item' : Decoder α} {n : Nat}

/-- Reading item after item ends after as many rounds as there are bits ahead, as each item takes
some of them. -/
theorem Simulates.endsAs_whileLeftFor (h : Simulates item item') (hreads : item'.Reads n)
    (hn : 0 < n) (left : Nat) {rounds : Nat} {c : Cursor} {r : BitReader} (hfollows : Follows c r)
    (hrounds : r.available < rounds) :
    EndsAs id (fun _ => True) ((Reader.whileLeftFor left item rounds).runOn c)
      (Decoder.repeated left item' r) := by
  -- Each round leaves fewer bits ahead, so that the rounds after it are still enough.
  induction rounds generalizing c r with
  | zero => cases hrounds
  | succ rounds ih =>
    rw [Reader.whileLeftFor, Reader.runOn_bind_of_ok hfollows.runOn_remainingBytes]
    by_cases hleft : left < r.remainingBytes
    · rw [if_pos hleft, Decoder.repeated_of_lt hreads hn hleft]
      refine (h c r hfollows).bind fun a c' r' hread _ hfollows' => ?_
      have hfewer := hreads r a r' hread
      refine (ih hfollows' (by omega)).bind fun as c'' r'' _ _ hfollows'' => ?_
      exact ⟨trivial, c'', rfl, hfollows''⟩
    · rw [if_neg hleft, Decoder.repeated_of_not_lt hleft]
      exact ⟨trivial, c, rfl, hfollows⟩

/-- Reading item after item ends, and gives the items that are decoded. -/
theorem Simulates.whileLeft (h : Simulates item item') (hreads : item'.Reads n) (hn : 0 < n)
    (left : Nat) : Simulates (Reader.whileLeft left item) (Decoder.repeated left item') := by
  intro c r hfollows
  have hlength := hfollows.length_rest
  rw [Reader.whileLeft, Reader.runOn_get_bind]
  refine h.endsAs_whileLeftFor hreads hn left hfollows ?_
  rw [BitReader.available]
  omega

end Loop

end TransportStream.Machine
