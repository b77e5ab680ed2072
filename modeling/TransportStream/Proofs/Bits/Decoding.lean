import TransportStream.Bits.Decoder

/-!
# Taking decoders apart
-/

namespace TransportStream

/-- Without its error, a result is the value that it has. -/
theorem toOption_eq_some_iff {ε α : Type} {result : Except ε α} {a : α} :
    result.toOption = some a ↔ result = .ok a := by
  cases result with
  | ok b => simp [Except.toOption]
  | error e => simp [Except.toOption]

namespace Decoder

variable {α β : Type}

/-- One decoder after the other gives a value exactly if both of them do. -/
theorem bind_eq_ok {decoder : Decoder α} {next : α → Decoder β} {r r'' : BitReader} {b : β} :
    (decoder >>= next) r = .ok b r'' ↔
      ∃ a r', decoder r = .ok a r' ∧ next a r' = .ok b r'' := by
  simp only [bind, EStateM.bind]
  cases decoder r with
  | ok a r' =>
    constructor
    · intro h
      exact ⟨a, r', rfl, h⟩
    · rintro ⟨_, _, heq, h⟩
      cases heq
      exact h
  | error e r' => simp

/-- Behind a decoder that gives a value the next one goes on. -/
theorem bind_of_ok {decoder : Decoder α} {r r' : BitReader} {a : α} (h : decoder r = .ok a r')
    (next : α → Decoder β) : (decoder >>= next) r = next a r' := by
  simp only [bind, EStateM.bind, h]

/-- Behind a decoder that reports an error nothing follows. -/
theorem bind_of_error {decoder : Decoder α} {r r' : BitReader} {e : DecodeError}
    (h : decoder r = .error e r') (next : α → Decoder β) : (decoder >>= next) r = .error e r' := by
  simp only [bind, EStateM.bind, h]

/-- A read gives a value exactly if the reader has not failed and enough bits are ahead. -/
theorem consume_eq_ok {n : Nat} {value : BitReader → α} {r r' : BitReader} {a : α} :
    consume n value r = .ok a r' ↔
      r.failed = false ∧ ∃ h : n ≤ r.available, a = value r ∧ r' = r.advance n h := by
  unfold consume
  split
  case isTrue hfailed => simp [hfailed]
  case isFalse hfailed =>
    split
    case isTrue hroom =>
      constructor
      · intro h
        cases h
        exact ⟨by simpa using hfailed, hroom, rfl, rfl⟩
      · rintro ⟨_, _, rfl, rfl⟩
        rfl
    case isFalse hroom => simp [hroom]

/-- Asking for the reader leaves it as it is. -/
theorem get_bind (next : BitReader → Decoder α) (r : BitReader) :
    ((get : Decoder BitReader) >>= next) r = next r r := rfl

/-- At a byte boundary bytes are read as so many bits. -/
theorem bytes_of_aligned {r : BitReader} (h : r.aligned = true) (n : Nat) :
    bytes n r = consume (8 * n) (·.rest.take n) r := by
  rw [bytes, get_bind, if_pos h]

/-- Between two byte boundaries bytes are refused, even if none are asked for. -/
theorem bytes_of_not_aligned {r : BitReader} (h : r.aligned = false) (n : Nat) :
    bytes n r = fail .unalignedRead r := by
  rw [bytes, get_bind, if_neg (by simp [h])]

/-- Whole bytes are read from a byte boundary only. -/
theorem bytes_eq_ok {n : Nat} {r r' : BitReader} {found : Bytes} :
    bytes n r = .ok found r' ↔
      r.aligned = true ∧ consume (8 * n) (·.rest.take n) r = .ok found r' := by
  cases h : r.aligned with
  | false => simp [bytes_of_not_aligned h, fail]
  | true => simp [bytes_of_aligned h]

/-- Bytes decode to the value that is read at their start, wherever the reader ends. -/
theorem decode_eq_ok {decoder : Decoder α} {bytes : Bytes} {a : α} :
    decoder.decode bytes = .ok a ↔ ∃ r, decoder (.ofBytes bytes) = .ok a r := by
  unfold decode
  cases decoder (.ofBytes bytes) with
  | ok a r => simp
  | error e r => simp

/-- Bytes decode to the error that is met from their start on, wherever the reader ends. -/
theorem decode_eq_error {decoder : Decoder α} {bytes : Bytes} {e : DecodeError} :
    decoder.decode bytes = .error e ↔ ∃ r, decoder (.ofBytes bytes) = .error e r := by
  unfold decode
  cases decoder (.ofBytes bytes) with
  | ok a r => simp
  | error e r => simp

/-- Behind a decoder that gives a value the next one is applied to the bytes that are left. -/
theorem decode_bind_of_ok {decoder : Decoder α} {bytes behind : Bytes} {a : α}
    (h : decoder (.ofBytes bytes) = .ok a (.ofBytes behind)) (next : α → Decoder β) :
    (decoder >>= next).decode bytes = (next a).decode behind := by
  rw [decode, decode, bind_of_ok h]

/-- Where the reader stands after a decoder that gave a value or reported an error. -/
def readerAfter (decoder : Decoder α) (r : BitReader) : BitReader :=
  match decoder r with
  | .ok _ r' => r'
  | .error _ r' => r'

/-- A decoder that is told by a result gives it, and stands where it was told. -/
theorem decode_of_ofExcept {decoder : Decoder α} {bytes : Bytes} {r : BitReader}
    {result : Except DecodeError α}
    (h : decoder (.ofBytes bytes) = (ofExcept result : Decoder α) r) :
    decoder.decode bytes = result ∧ decoder.readerAfter (.ofBytes bytes) = r := by
  unfold decode readerAfter
  rw [h]
  cases result with
  | ok a => exact ⟨rfl, rfl⟩
  | error e => exact ⟨rfl, rfl⟩

/-- What is made of a value can be made of it after decoding. -/
theorem decode_map (f : α → β) (decoder : Decoder α) (bytes : Bytes) :
    (f <$> decoder).decode bytes = (decoder.decode bytes).map f := by
  simp only [decode, map_eq_pure_bind, bind, EStateM.bind]
  cases decoder (.ofBytes bytes) with
  | ok a r => rfl
  | error e r => rfl

/-- A value that is wrapped up is decoded exactly if it is decoded without that. -/
theorem decode_map_eq_ok {f : α → β} (hf : ∀ a b, f a = f b → a = b) {decoder : Decoder α}
    {bytes : Bytes} {a : α} :
    (f <$> decoder).decode bytes = .ok (f a) ↔ decoder.decode bytes = .ok a := by
  rw [decode_map]
  cases decoder.decode bytes with
  | ok b =>
    constructor
    · intro h
      rw [hf b a (Except.ok.inj h)]
    · intro h
      rw [Except.ok.inj h]
      rfl
  | error e => simp [Except.map]

end Decoder

end TransportStream
