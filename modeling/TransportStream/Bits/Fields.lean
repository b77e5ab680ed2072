import TransportStream.Bytes

/-!
# Packed bit fields

Several fields that lie side by side form one number. The first field holds its most
significant bits. Each field is the number that its own bits write.
-/

namespace TransportStream

/-- A number that packs one field for each width, the first field on top. -/
structure Fields (widths : List Nat) where
  /-- The packed number. -/
  word : Nat
  deriving DecidableEq, Repr

/-- The number of bits that fields of some widths have together. -/
def totalWidth : List Nat → Nat
  | [] => 0
  | width :: widths => width + totalWidth widths

/-- Widths that fill whole bytes of a number of at most 64 bits. -/
abbrev PackedWidths (widths : List Nat) : Prop :=
  totalWidth widths % 8 = 0 ∧ totalWidth widths ≤ 64

namespace Fields

variable {widths : List Nat}

/-- The value of one field: the fields after it are cut off below, those before it above. -/
def get (fields : Fields widths) (i : Nat) (h : i < widths.length := by decide) : Nat :=
  (fields.word >>> totalWidth (widths.drop (i + 1))) % (1 <<< widths[i])

/-- Whether a field holds anything but zero. -/
def flag (fields : Fields widths) (i : Nat) (h : i < widths.length := by decide) : Bool :=
  fields.get i h != 0

/-- The values of all fields in order. -/
def values (fields : Fields widths) : List Nat :=
  (List.finRange widths.length).map fun (i : Fin widths.length) => fields.get i.val i.isLt

end Fields

end TransportStream
