import VirtualTopology.Limits
import VirtualTopology.Text.Blank

/-!
# Counts

A count is written as one or more ASCII digits after an optional plus sign, with blanks allowed
around the whole; its value is a word of 64 bits.

## Main definitions

- `CountFault`: why a text is no count.
- `readCount`: the value of a text, digits taken from the left; the first character that is no
  digit, or at which the value leaves the range, decides the fault.
-/

namespace VirtualTopology.Text

/-- Why a text is no count. -/
inductive CountFault where
  | empty
  | invalidDigit
  | tooLarge
deriving DecidableEq, Repr

/-- The wording of a fault. -/
def CountFault.message : CountFault → String
  | .empty => "cannot parse integer from empty string"
  | .invalidDigit => "invalid digit found in string"
  | .tooLarge => "number too large to fit in target type"

/-- The value of an ASCII digit. -/
def digit? (c : Char) : Option Nat :=
  if '0' ≤ c ∧ c ≤ '9' then some (c.toNat - '0'.toNat) else none

/-- Appends digits to a value from the left. -/
def readDigits : Nat → List Char → Except CountFault Nat
  | value, [] => .ok value
  | value, c :: cs =>
    match digit? c with
    | none => .error .invalidDigit
    | some d =>
      if 10 * value + d < Limits.wordBound then readDigits (10 * value + d) cs
      else .error .tooLarge

/-- The value of a text without blanks around it. -/
def readWord : List Char → Except CountFault Nat
  | [] => .error .empty
  | ['+'] => .error .invalidDigit
  | '+' :: cs => readDigits 0 cs
  | cs => readDigits 0 cs

/-- The value of a text, blanks around it ignored. -/
def readCount (s : String) : Except CountFault Nat := readWord (trimBlank s.toList)

end VirtualTopology.Text
