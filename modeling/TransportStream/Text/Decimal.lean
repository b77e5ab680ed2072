/-!
# Bounded decimal numbers

A number is written in decimal digits, with a plus sign in front at will. Reading stops
at the first character that is no digit, or that makes the number exceed the bound,
whichever comes first in the text.
-/

namespace TransportStream

/-- Why a text is not a decimal number within its bound. -/
inductive DecimalFault where
  /-- There is nothing to read. -/
  | empty
  /-- A character is not a digit. -/
  | invalidDigit
  /-- The number exceeds the bound. -/
  | tooLarge
  deriving DecidableEq, Repr

/-- The text that reports an unreadable number. -/
def DecimalFault.message : DecimalFault → String
  | .empty => "cannot parse integer from empty string"
  | .invalidDigit => "invalid digit found in string"
  | .tooLarge => "number too large to fit in target type"

/-- The value of a decimal digit. -/
def digitValue? (c : Char) : Option Nat :=
  if c.isDigit then some (c.toNat - '0'.toNat) else none

/-- Continues to read digits behind those that have written `n`. -/
def readDigits (bound n : Nat) : List Char → Except DecimalFault Nat
  | [] => .ok n
  | c :: rest =>
    match digitValue? c with
    | none => .error .invalidDigit
    | some d =>
      if 10 * n + d ≤ bound then readDigits bound (10 * n + d) rest else .error .tooLarge

/-- Reads a decimal number up to the bound. A plus sign counts as one only in front of
further characters. -/
def readDecimal (bound : Nat) : List Char → Except DecimalFault Nat
  | [] => .error .empty
  | '+' :: c :: rest => readDigits bound 0 (c :: rest)
  | text => readDigits bound 0 text

end TransportStream
