import TransportStream.Proofs.Bits.Decoding
import TransportStream.Proofs.Bits.Reading
import TransportStream.ProgramAssociation
import TransportStream.ProgramMap

/-!
# What values a decoder gives

A property that all values of a decoder have follows from how the decoder is put together: it is
that of its last part, and the items of a table have it if each of them does. So the numbers in
decoded tables have no more bits than the fields that they are read from.
-/

namespace TransportStream

namespace Decoder

variable {α β : Type} {p : α → Prop} {q : β → Prop} {decoder : Decoder α} {next : α → Decoder β}

/-- Every value that a decoder gives has a property. -/
def Gives (p : α → Prop) (decoder : Decoder α) : Prop := ∀ r a r', decoder r = .ok a r' → p a

/-- A value that is there without reading is the only one that is given. -/
theorem gives_pure {a : α} (h : p a) : Gives p (pure a) := by
  intro r b r' hread
  cases hread
  exact h

/-- What a decoder gives is known from what may have been read before it. -/
theorem Gives.bind (h : Gives p decoder) (hnext : ∀ a, p a → Gives q (next a)) :
    Gives q (decoder >>= next) := by
  intro r b r'' hread
  obtain ⟨a, r', hfirst, hlater⟩ := bind_eq_ok.mp hread
  exact hnext a (h r a r' hfirst) r' b r'' hlater

/-- Nothing need be known of what is read first. -/
theorem gives_bind (hnext : ∀ a, Gives q (next a)) : Gives q (decoder >>= next) := by
  have hany : Gives (fun _ => True) decoder := fun _ _ _ _ => trivial
  exact hany.bind fun a _ => hnext a

/-- What is decoded from bytes has what all values of the decoder have. -/
theorem Gives.of_decode (h : Gives p decoder) {bytes : Bytes} {a : α}
    (hdecode : decoder.decode bytes = .ok a) : p a := by
  obtain ⟨r, hread⟩ := decode_eq_ok.mp hdecode
  exact h _ a r hread

/-- What is made of a value is known from the value. -/
theorem Gives.map (h : Gives p decoder) {f : α → β} (hf : ∀ a, p a → q (f a)) :
    Gives q (f <$> decoder) := by
  rw [map_eq_pure_bind]
  exact h.bind fun a ha => gives_pure (hf a ha)

/-- An error gives no value at all. -/
theorem gives_throw (e : DecodeError) : Gives p (throw e) := by
  intro r a r' hread
  cases hread

/-- Which of two decoders it is need not be known. -/
theorem gives_ite {c : Prop} [Decidable c] {first second : Decoder α} (hfirst : Gives p first)
    (hsecond : Gives p second) : Gives p (if c then first else second) := by
  by_cases hc : c
  · rwa [if_pos hc]
  · rwa [if_neg hc]

/-- Whatever is decoded on the side has what all values of that decoder have. -/
theorem Gives.inside (h : Gives p decoder) (bytes : Bytes) :
    Gives p (ofExcept (decoder.decode bytes)) := by
  cases hdecode : decoder.decode bytes with
  | ok a => exact gives_pure (h.of_decode hdecode)
  | error e => exact gives_throw e

/-- What is decoded within a part has what all values of that decoder have. -/
theorem Gives.within (h : Gives p decoder) (n : Nat) : Gives p (within n decoder) :=
  gives_bind fun found => h.inside found

/-- A part that may be missing has what it has where it is there. -/
theorem Gives.ifFlag (h : Gives p decoder) (flag : Bool) :
    Gives (fun part => ∀ a ∈ part, p a) (ifFlag flag decoder) := by
  cases flag with
  | false => exact gives_pure fun a ha => absurd ha (Option.not_mem_none a)
  | true =>
    refine h.map fun a ha b hb => ?_
    obtain rfl : a = b := Option.mem_some.mp hb
    exact ha

/-- All items have what each of them has. -/
theorem Gives.repeated (h : Gives p decoder) (left : Nat) :
    Gives (fun as => ∀ a ∈ as, p a) (repeated left decoder) := by
  intro r
  -- The induction is on the rounds of the loop: a round fails, goes on, or is the last one.
  induction r using repeated.induct left decoder with
  | case1 r hleft e r' hitem =>
    intro as last hread
    rw [Decoder.repeated, if_pos hleft, hitem] at hread
    cases hread
  | case2 r hleft a r' hitem hfewer e r'' hlater ih =>
    intro as last hread
    rw [Decoder.repeated, if_pos hleft, hitem] at hread
    simp only [hfewer, hlater, if_true] at hread
    cases hread
  | case3 r hleft a r' hitem hfewer later r'' hlater ih =>
    intro as last hread
    rw [Decoder.repeated, if_pos hleft, hitem] at hread
    simp only [hfewer, hlater, if_true] at hread
    cases hread
    exact List.forall_mem_cons.mpr ⟨h r a r' hitem, ih later r'' hlater⟩
  | case4 r hleft a r' hitem hstill =>
    intro as last hread
    rw [Decoder.repeated, if_pos hleft, hitem] at hread
    simp only [hstill, if_false] at hread
    cases hread
    exact List.forall_mem_singleton.mpr (h r a r' hitem)
  | case5 r hdone =>
    intro as last hread
    rw [Decoder.repeated, if_neg hdone] at hread
    cases hread
    exact List.forall_mem_nil p

end Decoder

open Decoder

/-- A PID has 13 bits. -/
theorem gives_pidField : Gives (· < 8192) pidField :=
  gives_bind fun f => gives_pure (f.get_lt 1 (by decide))

/-- The PID of an entry has 13 bits. -/
theorem AssociationEntry.gives_decoder : Gives (·.pid < 8192) AssociationEntry.decoder :=
  gives_bind fun _ => gives_pidField.bind fun _ hpid => gives_pure hpid

/-- The PID of an elementary stream has 13 bits. -/
theorem ElementaryStream.gives_decoder : Gives (·.pid < 8192) ElementaryStream.decoder :=
  gives_bind fun _ => gives_pidField.bind fun _ hpid => gives_bind fun _ => gives_bind fun _ =>
    gives_pure hpid

end TransportStream
