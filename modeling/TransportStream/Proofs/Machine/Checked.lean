import Mathlib.Data.Nat.Bitwise
import TransportStream.Clock

/-!
# Arithmetic of a machine

A machine computes with numbers of a fixed width, and stores bytes in buffers of a fixed size.
Here each step that does so is checked. A step that a machine cannot do is a fault: a result that
does not fit, a place outside of a buffer, a call that a caller must not make. A computation that
does not end has no result at all.
-/

namespace TransportStream.Machine

/-- What a machine cannot do. -/
inductive Fault where
  /-- The element behind the end of a buffer. -/
  | index
  /-- A part of a buffer that reaches over its end, or ends before it starts. -/
  | slice
  /-- A difference below zero. -/
  | underflow
  /-- A sum, a product or a shifted number that is too wide. -/
  | overflow
  /-- A shift by the width of a number or more. -/
  | shift
  /-- A conversion to a width that a number does not fit into. -/
  | cast
  /-- Fields that do not fill whole bytes, or more than 64 bits. -/
  | widths
  /-- A continuity counter of more than four bits. -/
  | counter
  /-- An empty chunk of a stream. -/
  | emptyChunk
  /-- The pending unit, while there is none. -/
  | missingUnit
  deriving DecidableEq, Repr

/-- A computation that ends with a value or a fault, or does not end. -/
abbrev Checked := ExceptT Fault Option

variable {α : Type}

/-- What does not end. -/
def unending : Checked α := .mk none

/-- A value, provided that a condition holds. -/
def given (p : Prop) [Decidable p] (fault : Fault) (a : α) : Checked α :=
  if p then pure a else throw fault

/-- Where the condition holds, there is no fault. -/
theorem given_eq {p : Prop} [Decidable p] (h : p) (fault : Fault) (a : α) :
    given p fault a = pure a := if_pos h

/-- A sum of some width. -/
def add (width a b : Nat) : Checked Nat := given (a + b < 2 ^ width) .overflow (a + b)

/-- A difference. -/
def sub (a b : Nat) : Checked Nat := given (b ≤ a) .underflow (a - b)

/-- A product of some width. -/
def mul (width a b : Nat) : Checked Nat := given (a * b < 2 ^ width) .overflow (a * b)

/-- A number of some width with its bits moved up. None may be lost. -/
def shiftLeft (width a by_ : Nat) : Checked Nat :=
  given (by_ < width ∧ a <<< by_ < 2 ^ width) .overflow (a <<< by_)

/-- A number of some width with its bits moved down. -/
def shiftRight (width a by_ : Nat) : Checked Nat := given (by_ < width) .shift (a >>> by_)

/-- A number converted to some width. -/
def narrow (width a : Nat) : Checked Nat := given (a < 2 ^ width) .cast a

/-- The element at a place of a buffer. -/
def index (buffer : List α) (i : Nat) : Checked α :=
  match buffer[i]? with
  | some a => pure a
  | none => throw .index

/-- The part of a buffer between two places. -/
def slice (buffer : List α) (start stop : Nat) : Checked (List α) :=
  given (start ≤ stop ∧ stop ≤ buffer.length) .slice ((buffer.take stop).drop start)

section Fitting

variable {width a b : Nat} {buffer : List α}

/-- A sum that fits its width is no fault. -/
theorem add_eq (h : a + b < 2 ^ width) : add width a b = pure (a + b) := given_eq h _ _

/-- A difference that is not below zero is no fault. -/
theorem sub_eq (h : b ≤ a) : sub a b = pure (a - b) := given_eq h _ _

/-- A product that fits its width is no fault. -/
theorem mul_eq (h : a * b < 2 ^ width) : mul width a b = pure (a * b) := given_eq h _ _

/-- A shift up that loses no bit is no fault. -/
theorem shiftLeft_eq (hb : b < width) (h : a <<< b < 2 ^ width) :
    shiftLeft width a b = pure (a <<< b) := given_eq ⟨hb, h⟩ _ _

/-- A shift down by less than the width is no fault. -/
theorem shiftRight_eq (h : b < width) : shiftRight width a b = pure (a >>> b) := given_eq h _ _

/-- A number is converted without a fault to a width that it fits into. -/
theorem narrow_eq (h : a < 2 ^ width) : narrow width a = pure a := given_eq h _ _

/-- An element is taken without a fault from a place where there is one. -/
theorem index_eq {i : Nat} {found : α} (h : buffer[i]? = some found) :
    index buffer i = pure found := by
  rw [index, h]

/-- A part of a buffer is taken without a fault between two places in their order. -/
theorem slice_eq {start stop : Nat} (hstart : start ≤ stop) (hstop : stop ≤ buffer.length) :
    slice buffer start stop = pure ((buffer.take stop).drop start) := given_eq ⟨hstart, hstop⟩ _ _

end Fitting

end TransportStream.Machine
