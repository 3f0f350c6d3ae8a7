import WindowScript.Evaluation.Error
import WindowScript.Value.Equality

/-!
# Operators on values

Integers stay integers under sums and products, and never wrap. A real operand makes
the other one real, and a quotient is always real. Texts and lists can be joined and
repeated. Any two values can be compared.
-/

set_option autoImplicit false

namespace WindowScript

/-- A number as a real. Integers that have no real of the same value overflow. -/
def Value.toReal : Value → Except RuntimeCause Float
  | .real value => .ok value
  | .integer value =>
      match Real.ofInteger? value with
      | some converted => .ok converted
      | none => .error .overflow
  | other => .error (.typeError (.noNumber other.kind))

/-- The length, in bytes or items, that no repetition exceeds: 2 ^ 24. -/
def maxRepeatedLength : Nat := 16777216

/-- How many numbers a machine word tells apart: 2 ^ 64. -/
def wordRange : Nat := 18446744073709551616

/-- The length of copies one behind the other, where a machine word holds it. -/
def repeatedLength? (length copies : Nat) : Option Nat :=
  if length * copies < wordRange then some (length * copies) else none

/-- How many copies of something of a given length a repetition makes. -/
def repetitions (length : Nat) (count : Integer) : Except RuntimeCause Nat :=
  if length = 0 ∨ count.toInt ≤ 0 then .ok 0
  else if (repeatedLength? length count.toInt.toNat).any (· ≤ maxRepeatedLength) then
    .ok count.toInt.toNat
  else .error .overflow

def repeatText (text : String) (count : Nat) : String := Nat.repeat (· ++ text) count ""

def repeatList (items : List Value) (count : Nat) : List Value := Nat.repeat (items ++ ·) count []

def repeatedText (text : String) (count : Integer) : Except RuntimeCause Value :=
  (repetitions text.utf8ByteSize count).map fun copies => .text (repeatText text copies)

def repeatedList (items : List Value) (count : Integer) : Except RuntimeCause Value :=
  (repetitions items.length count).map fun copies => .list (repeatList items copies)

namespace Operator

/-- The failure of an operator on operands of the wrong kinds. -/
def unsupported (operator : Operator) (left right : Value) : RuntimeCause :=
  .typeError (.operands operator left.kind right.kind)

/-- An integer result, or an overflow. -/
def checked : Option Integer → Except RuntimeCause Value
  | some value => .ok (.integer value)
  | none => .error .overflow

def quotient (left right : Value) : Except RuntimeCause Value := do
  let divisor ← right.toReal
  if Real.isZero divisor then .error .divisionByZero
  else do
    let dividend ← left.toReal
    .ok (.real (dividend / divisor))

def scalar (operator : Operator) (left right : Value) : Except RuntimeCause Value :=
  match operator, left, right with
  | .div, _, _ => quotient left right
  | .add, .integer first, .integer second => checked (first.add? second)
  | .sub, .integer first, .integer second => checked (first.sub? second)
  | .mul, .integer first, .integer second => checked (first.mul? second)
  | .equal, .integer _, .integer _ => .error (operator.unsupported left right)
  | _, _, _ => do
      let first ← left.toReal
      let second ← right.toReal
      match operator with
      | .add => .ok (.real (first + second))
      | .sub => .ok (.real (first - second))
      | .mul => .ok (.real (first * second))
      | _ => .error (operator.unsupported left right)

def sequence (operator : Operator) (left right : Value) : Except RuntimeCause Value :=
  match operator, left, right with
  | .add, .text first, .text second => .ok (.text (first ++ second))
  | .add, .list first, .list second => .ok (.list (first ++ second))
  | .mul, .text text, .integer count | .mul, .integer count, .text text =>
      repeatedText text count
  | .mul, .list items, .integer count | .mul, .integer count, .list items =>
      repeatedList items count
  | _, _, _ => .error (operator.unsupported left right)

def apply (operator : Operator) (left right : Value) : Except RuntimeCause Value :=
  match operator with
  | .equal => .ok (.boolean (left.equals right))
  | .add | .mul =>
      if left.isNumber && right.isNumber then operator.scalar left right
      else operator.sequence left right
  | .sub | .div =>
      if left.isNumber && right.isNumber then operator.scalar left right
      else .error (operator.unsupported left right)

end Operator

end WindowScript
