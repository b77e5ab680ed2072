import Mathlib.Algebra.Group.Nat.Defs
import TransportStream.Bits.Fields

/-!
# Layouts

A layout says how a value is written in bits: numbers of given widths, and between them
bits that may be anything, because reading ignores them. Writing a layout takes the
ignored bits from a list.
-/

namespace TransportStream

/-- A part of a layout. -/
inductive Piece where
  /-- A number of so many bits. -/
  | value (width n : Nat)
  /-- So many bits that may be anything. -/
  | free (width : Nat)
  deriving DecidableEq, Repr

/-- How a value is written in bits. -/
abbrev Layout := List Piece

/-- The number of bits in a piece. -/
def Piece.width : Piece → Nat
  | value width _ => width
  | free width => width

/-- The number of bits in a piece that may be anything. -/
def Piece.freeWidth : Piece → Nat
  | value _ _ => 0
  | free width => width

/-- Whether the number in a piece can be written in its width. -/
def Piece.Fits : Piece → Prop
  | value width n => n < 2 ^ width
  | free _ => True

instance (piece : Piece) : Decidable piece.Fits := by
  cases piece <;> unfold Piece.Fits <;> infer_instance

namespace Layout

/-- A flag as a piece. -/
def flag (b : Bool) : Piece := .value 1 b.toNat

/-- Bytes as pieces. -/
def ofBytes (bytes : Bytes) : Layout := bytes.map fun byte => .value 8 byte.toNat

/-- The pieces of a part that may be missing. -/
def ofOption {α : Type} (layout : α → Layout) (part : Option α) : Layout := part.elim [] layout

/-- The number of bits in a layout. -/
def size (layout : Layout) : Nat := totalWidth (layout.map Piece.width)

/-- The number of bits in a layout that may be anything. -/
def freeSize (layout : Layout) : Nat := totalWidth (layout.map Piece.freeWidth)

/-- Whether every number can be written in its width. -/
def Fits (layout : Layout) : Prop := ∀ piece ∈ layout, piece.Fits

instance (layout : Layout) : Decidable layout.Fits := by
  unfold Fits; infer_instance

/-- The bits of a layout, with those that may be anything taken from a list in turn. -/
def write : Layout → List Bool → List Bool
  | [], _ => []
  | .value width n :: rest, fill => bitsOfNat width n ++ write rest fill
  | .free width :: rest, fill => fill.take width ++ write rest (fill.drop width)

/-- Bytes are written in a layout if their bits are, for some choice of the bits that may
be anything. -/
def Writes (layout : Layout) (bytes : Bytes) : Prop :=
  ∃ fill, fill.length = layout.freeSize ∧ bytes.bits = layout.write fill

end Layout

end TransportStream
