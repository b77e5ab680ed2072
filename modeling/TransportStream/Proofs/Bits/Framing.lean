import TransportStream.Proofs.Bits.Bytewise
import TransportStream.Proofs.Bytes.Places

/-!
# Framed decoders

The first bytes of a frame tell how many bytes it has. A decoder of frames moves over these bytes,
whether it gives a value or reports an error, and what it gives is a matter of these bytes alone. So
frames that follow each other are read one after the other, even if some of them are bad. Only where
there is no frame, the reader fails.
-/

namespace TransportStream

/-- A reader at a byte boundary that has not failed is at the first bit of the bytes ahead. -/
theorem BitReader.eq_ofBytes {r : BitReader} (haligned : r.aligned = true)
    (hfailed : r.failed = false) : r = .ofBytes r.rest := by
  cases r with
  | mk rest used failed =>
    have hused : used = 0 := by simpa [aligned] using haligned
    cases hused
    cases hfailed
    rfl

namespace Decoder

variable {α β : Type} {whole : Bytes → Prop} {size : Bytes → Nat} {decoder : Decoder α}
  {s t : Bytes}

/-- What a decoder gives on a reader, wherever this one stands afterwards. -/
def resultOn (decoder : Decoder α) (r : BitReader) : Except DecodeError α :=
  match decoder r with
  | .ok a _ => .ok a
  | .error e _ => .error e

/-- What is made of a result can be made of it after reading. -/
theorem resultOn_map (f : α → β) (decoder : Decoder α) (r : BitReader) :
    (f <$> decoder).resultOn r = (decoder.resultOn r).map f := by
  simp only [resultOn, map_eq_pure_bind, bind, EStateM.bind]
  cases decoder r with
  | ok a r' => rfl
  | error e r' => rfl

/-- What is made of a value does not move the reader. -/
theorem readerAfter_map (f : α → β) (decoder : Decoder α) (r : BitReader) :
    (f <$> decoder).readerAfter r = decoder.readerAfter r := by
  simp only [readerAfter, map_eq_pure_bind, bind, EStateM.bind]
  cases decoder r with
  | ok a r' => rfl
  | error e r' => rfl

/-- A decoder reads frames, which begin where bytes are whole, and have a size. -/
structure Frames (whole : Bytes → Prop) (size : Bytes → Nat) (decoder : Decoder α) : Prop where
  /-- The bytes of a frame are there. -/
  fits : ∀ s, whole s → size s ≤ s.length
  /-- What is behind a frame neither makes nor breaks it. -/
  told : ∀ s t, size s ≤ s.length → t.take (size s) = s.take (size s) →
    (whole t ↔ whole s) ∧ size t = size s
  /-- The result is that of the bytes of the frame alone. -/
  result : ∀ r, r.aligned = true → r.failed = false → size r.rest ≤ r.rest.length →
    decoder.resultOn r = decoder.decode (r.rest.take (size r.rest))
  /-- The reader stands behind the frame afterwards, at a byte boundary, and has not failed. -/
  moves : ∀ r, r.aligned = true → r.failed = false → whole r.rest →
    decoder.readerAfter r = .ofBytes (r.rest.drop (size r.rest))
  /-- Without a frame the reader fails. -/
  fails : ∀ r, r.aligned = true → r.failed = false → ¬ whole r.rest →
    ∃ e r', decoder r = .error e r' ∧ r'.failed = true

/-- Where a frame begins and its size may be told otherwise. -/
theorem Frames.congr {whole' : Bytes → Prop} {size' : Bytes → Nat}
    (h : Frames whole size decoder) (hwhole : ∀ s, whole s ↔ whole' s)
    (hsize : ∀ s, size s = size' s) : Frames whole' size' decoder := by
  obtain rfl : whole = whole' := funext fun s => propext (hwhole s)
  obtain rfl : size = size' := funext hsize
  exact h

/-- Bytes behind a frame do not matter. -/
theorem Frames.decode_append (h : Frames whole size decoder) (hs : size s ≤ s.length) (t : Bytes) :
    decoder.decode (s ++ t) = decoder.decode s := by
  have htake : (s ++ t).take (size s) = s.take (size s) := List.take_append_of_le_length hs
  have hroom : size s ≤ (s ++ t).length := by
    rw [List.length_append]
    omega
  obtain ⟨-, hsize⟩ := h.told s (s ++ t) hs htake
  calc decoder.decode (s ++ t)
      = decoder.decode ((s ++ t).take (size (s ++ t))) :=
        h.result (.ofBytes (s ++ t)) rfl rfl (hsize ▸ hroom)
    _ = decoder.decode (s.take (size s)) := by rw [hsize, htake]
    _ = decoder.decode s := (h.result (.ofBytes s) rfl rfl hs).symm

/-- Bytes behind a frame are what is ahead of the reader then. -/
theorem Frames.readerAfter_append (h : Frames whole size decoder) (hwhole : whole s)
    (hs : s.length = size s) (t : Bytes) :
    decoder.readerAfter (.ofBytes (s ++ t)) = .ofBytes t := by
  have hroom : size s ≤ s.length := Nat.le_of_eq hs.symm
  obtain ⟨hwhole', hsize⟩ := h.told s (s ++ t) hroom (List.take_append_of_le_length hroom)
  calc decoder.readerAfter (.ofBytes (s ++ t))
      = .ofBytes ((s ++ t).drop (size (s ++ t))) :=
        h.moves (.ofBytes (s ++ t)) rfl rfl (hwhole'.mpr hwhole)
    _ = .ofBytes t := by rw [hsize, ← hs, List.drop_left]

/-- A value that is made of the one in a frame is read off the same frame. -/
theorem Frames.map (h : Frames whole size decoder) (f : α → β) :
    Frames whole size (f <$> decoder) where
  fits := h.fits
  told := h.told
  result := by
    intro r haligned hfailed hroom
    rw [resultOn_map, h.result r haligned hfailed hroom, decode_map]
  moves := by
    intro r haligned hfailed hwhole
    rw [readerAfter_map, h.moves r haligned hfailed hwhole]
  fails := by
    intro r haligned hfailed hwhole
    obtain ⟨e, r', hread, hr'⟩ := h.fails r haligned hfailed hwhole
    refine ⟨e, r', ?_, hr'⟩
    rw [map_eq_pure_bind, bind_of_error hread]

/-- What decoders give that take turns on a reader, each one where the one before left it, and where
the last one leaves it. -/
def inTurn : List (Decoder α) → BitReader → List (Except DecodeError α) × BitReader
  | [], r => ([], r)
  | decoder :: decoders, r =>
    let (results, last) := inTurn decoders (decoder.readerAfter r)
    (decoder.resultOn r :: results, last)

/-- Frames that follow each other are read one after the other, each with its own result. -/
theorem inTurn_of_frames {ι : Type} {whole : ι → Bytes → Prop} {size : ι → Bytes → Nat}
    {decoder : ι → Decoder α} (h : ∀ i, Frames (whole i) (size i) (decoder i))
    (frames : List (ι × Bytes))
    (hframes : ∀ frame ∈ frames, whole frame.1 frame.2 ∧ frame.2.length = size frame.1 frame.2)
    (behind : Bytes) :
    inTurn (frames.map fun frame => decoder frame.1)
        (.ofBytes (frames.flatMap (·.2) ++ behind)) =
      (frames.map fun frame => (decoder frame.1).decode frame.2, .ofBytes behind) := by
  induction frames with
  | nil => rfl
  | cons frame frames ih =>
    obtain ⟨hwhole, hlength⟩ := hframes frame List.mem_cons_self
    have hframe := h frame.1
    rw [List.flatMap_cons, List.append_assoc]
    generalize frames.flatMap (·.2) ++ behind = later at ih ⊢
    have hresult : (decoder frame.1).resultOn (.ofBytes (frame.2 ++ later)) =
        (decoder frame.1).decode frame.2 :=
      hframe.decode_append (Nat.le_of_eq hlength.symm) later
    have hreader := hframe.readerAfter_append hwhole hlength later
    rw [List.map_cons, inTurn, hreader, hresult,
      ih fun other hother => hframes other (List.mem_cons_of_mem _ hother)]
    rfl

section Counted

variable {widths : List Nat} {hpacked : PackedWidths widths} {check : Fields widths → Decoder Unit}
  {length : Fields widths → Nat} {body : Nat → Fields widths → Decoder α}

/-- Reads a byte and fields, and then the bytes that the fields count. -/
def counted (widths : List Nat) (hpacked : PackedWidths widths)
    (check : Fields widths → Decoder Unit) (length : Fields widths → Nat)
    (body : Nat → Fields widths → Decoder α) : Decoder α := do
  let first ← u8
  let f ← fields widths hpacked
  check f
  within (length f) (body first f)

/-- The fields in the two bytes behind the first one. -/
def fieldsIn (widths : List Nat) (s : Bytes) : Fields widths := ⟨s.number 1 3⟩

/-- With three bytes ahead the fields are checked first, and then what they count is moved over. -/
theorem counted_of_le (htotal : totalWidth widths = 16) (h : 3 ≤ s.length) :
    counted widths hpacked check length body (.ofBytes s) =
      (check (fieldsIn widths s) >>= fun _ =>
        within (length (fieldsIn widths s)) (body (s.number 0 1) (fieldsIn widths s)))
          (.ofBytes (s.drop 3)) := by
  have hfirst : u8 (.ofBytes s) = .ok (s.number 0 1) (.ofBytes (s.drop 1)) :=
    u8_eq_ok.mpr ⟨by omega, rfl, rfl⟩
  have hfields : fields widths hpacked (.ofBytes (s.drop 1)) =
      .ok (fieldsIn widths s) (.ofBytes (s.drop 3)) := by
    refine (fields_eq_ok (k := 2) htotal).mpr ⟨?_, rfl, by rw [List.drop_drop]⟩
    rw [List.length_drop]
    omega
  rw [counted, bind_of_ok hfirst, bind_of_ok hfields]

/-- With fewer than three bytes ahead the reader fails. -/
theorem counted_of_short (htotal : totalWidth widths = 16) (h : s.length < 3) :
    ∃ e r, counted widths hpacked check length body (.ofBytes s) = .error e r ∧
      r.failed = true := by
  cases s with
  | nil => exact ⟨_, _, bind_of_error (bits_of_short (k := 1) (by decide) (by decide)) _, rfl⟩
  | cons byte behind =>
    have hshort : behind.length < 2 := by
      rw [List.length_cons] at h
      omega
    rw [counted, bind_of_ok (u8_cons byte behind), bind_of_error (fields_of_short htotal hshort)]
    exact ⟨_, _, rfl, rfl⟩

/-- The fields behind the first byte are told by the first three bytes. -/
theorem fieldsIn_eq_of_take {n : Nat} (htake : t.take n = s.take n) (hn : 3 ≤ n) :
    fieldsIn widths t = fieldsIn widths s := by
  rw [fieldsIn, Bytes.number_eq_of_take htake hn, fieldsIn]

/-- A check lets fields with a property pass. At others the reader fails. -/
structure Checks (p : Fields widths → Prop) (check : Fields widths → Decoder Unit) : Prop where
  /-- Fields with the property pass. -/
  pass : ∀ f r, p f → check f r = .ok () r
  /-- Others are an error. -/
  refuse : ∀ f, ¬ p f → ∃ e, ∀ r, check f r = .error e r.fail

/-- Checking nothing is a check that all fields pass. -/
theorem checks_pure : Checks (fun _ : Fields widths => True) fun _ => pure () where
  pass := fun _ _ _ => rfl
  refuse := fun _ h => absurd trivial h

/-- That one field has one value is a check. -/
theorem checks_expectEq (i expected : Nat) (hi : i < widths.length) :
    Checks (fun f : Fields widths => f.get i hi = expected) (expectEq · i expected hi) where
  pass := fun _ _ h => expectEq_eq_ok.mpr ⟨h, rfl⟩
  refuse := by
    intro f h
    refine ⟨.unexpectedValue i expected (f.get i hi), fun r => ?_⟩
    rw [expectEq, if_neg h, fail]

variable {p : Fields widths → Prop}

/-- What the fields count is moved over if they pass the check, whatever it is decoded to. -/
theorem counted_of_pass (htotal : totalWidth widths = 16) (hcheck : Checks p check)
    (hp : p (fieldsIn widths s))
    (hroom : 3 + length (fieldsIn widths s) ≤ s.length) :
    counted widths hpacked check length body (.ofBytes s) =
      (ofExcept ((body (s.number 0 1) (fieldsIn widths s)).decode
        (s.extract 3 (3 + length (fieldsIn widths s)))) : Decoder α)
          (.ofBytes (s.drop (3 + length (fieldsIn widths s)))) := by
  have hbehind : length (fieldsIn widths s) ≤ (s.drop 3).length := by
    rw [List.length_drop]
    omega
  rw [counted_of_le htotal (by omega), bind_of_ok (hcheck.pass _ _ hp), within_of_le hbehind,
    List.drop_drop, List.extract, Nat.add_sub_cancel_left]

/-- Without the check being passed the reader fails behind the fields, whatever follows. -/
theorem counted_of_refusal (htotal : totalWidth widths = 16) (hcheck : Checks p check)
    (hp : ¬ p (fieldsIn widths s)) :
    ∃ e, ∀ t, 3 ≤ t.length → fieldsIn widths t = fieldsIn widths s →
      counted widths hpacked check length body (.ofBytes t) =
        .error e (BitReader.ofBytes (t.drop 3)).fail := by
  obtain ⟨e, hrefuse⟩ := hcheck.refuse _ hp
  refine ⟨e, fun t hhead hfields => ?_⟩
  rw [counted_of_le htotal hhead, hfields, bind_of_error (hrefuse _)]

/-- Bytes that begin alike as far as they are counted are decoded alike. -/
theorem decode_counted_of_take (htotal : totalWidth widths = 16) (hcheck : Checks p check)
    (hroom : 3 + length (fieldsIn widths s) ≤ s.length)
    (htake : t.take (3 + length (fieldsIn widths s)) = s.take (3 + length (fieldsIn widths s))) :
    (counted widths hpacked check length body).decode t =
      (counted widths hpacked check length body).decode s := by
  have hhead : 3 ≤ 3 + length (fieldsIn widths s) := Nat.le_add_right 3 _
  have hfields : fieldsIn widths t = fieldsIn widths s := fieldsIn_eq_of_take htake hhead
  have hfirst : t.number 0 1 = s.number 0 1 := Bytes.number_eq_of_take htake (by omega)
  have hroom' := le_length_of_take_eq hroom htake
  by_cases hp : p (fieldsIn widths s)
  · have hbody : (counted widths hpacked check length body).decode t =
        (body (t.number 0 1) (fieldsIn widths t)).decode
          (t.extract 3 (3 + length (fieldsIn widths t))) :=
      (decode_of_ofExcept
        (counted_of_pass htotal hcheck (by rwa [hfields]) (by rwa [hfields]))).1
    rw [hbody, hfields, hfirst, extract_eq_of_take htake (Nat.le_refl _)]
    exact (decode_of_ofExcept (counted_of_pass htotal hcheck hp hroom)).1.symm
  · obtain ⟨e, hrefused⟩ := counted_of_refusal htotal hcheck hp
    rw [decode_eq_error.mpr ⟨_, hrefused t (Nat.le_trans hhead hroom') hfields⟩,
      decode_eq_error.mpr ⟨_, hrefused s (Nat.le_trans hhead hroom) rfl⟩]

/-- Bytes that fields behind the first one count are a frame. It is whole if the fields pass a
check, without which its end is not looked for. -/
theorem frames_counted (htotal : totalWidth widths = 16) (hcheck : Checks p check) :
    Frames (fun s => 3 + length (fieldsIn widths s) ≤ s.length ∧ p (fieldsIn widths s))
      (fun s => 3 + length (fieldsIn widths s)) (counted widths hpacked check length body) where
  fits := fun _ hwhole => hwhole.1
  told := by
    intro s t hroom htake
    have hfields : fieldsIn widths t = fieldsIn widths s :=
      fieldsIn_eq_of_take htake (Nat.le_add_right 3 _)
    have hroom' := le_length_of_take_eq hroom htake
    rw [hfields]
    exact ⟨and_congr_left fun _ => iff_of_true hroom' hroom, rfl⟩
  result := by
    intro r haligned hfailed hroom
    have hcut : (r.rest.take (3 + length (fieldsIn widths r.rest))).take
        (3 + length (fieldsIn widths r.rest)) =
          r.rest.take (3 + length (fieldsIn widths r.rest)) := by
      rw [List.take_take, Nat.min_self]
    calc (counted widths hpacked check length body).resultOn r
        = (counted widths hpacked check length body).decode r.rest :=
          congrArg _ (BitReader.eq_ofBytes haligned hfailed)
      _ = _ := (decode_counted_of_take htotal hcheck hroom hcut).symm
  moves := by
    intro r haligned hfailed hwhole
    rw [BitReader.eq_ofBytes haligned hfailed]
    obtain ⟨hroom, hp⟩ := hwhole
    exact (decode_of_ofExcept (counted_of_pass htotal hcheck hp hroom)).2
  fails := by
    intro r haligned hfailed hwhole
    rw [BitReader.eq_ofBytes haligned hfailed]
    generalize r.rest = s at hwhole ⊢
    by_cases hhead : 3 ≤ s.length
    case neg => exact counted_of_short htotal (Nat.lt_of_not_le hhead)
    by_cases hp : p (fieldsIn widths s)
    case neg =>
      obtain ⟨e, hrefused⟩ := counted_of_refusal htotal hcheck hp
      exact ⟨e, _, hrefused s hhead rfl, rfl⟩
    have hbehind : (s.drop 3).length < length (fieldsIn widths s) := by
      have hroom := mt (And.intro · hp) hwhole
      rw [List.length_drop]
      omega
    rw [counted_of_le htotal hhead, bind_of_ok (hcheck.pass _ _ hp), within_of_short hbehind]
    exact ⟨_, _, rfl, rfl⟩

end Counted

end Decoder

end TransportStream
