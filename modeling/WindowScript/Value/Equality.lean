import WindowScript.Value.Basic

/-!
# Equality of values

Two equalities. The strict one compares values of one kind by their parts; functions
by definition, positions included, and captured scope. The loose one, which the
language offers, also compares integers with reals by exact value, at the top and
inside lists and records. Under neither does an undefined real equal anything.
-/

set_option autoImplicit false

namespace WindowScript.Value

mutual

/-- Strict equality. -/
def same : Value → Value → Bool
  | .absent, .absent => true
  | .integer left, .integer right => left = right
  | .real left, .real right => Real.equals left right
  | .boolean left, .boolean right => left = right
  | .text left, .text right => left = right
  | .list left, .list right => sameItems left right
  | .record left, .record right => sameEntries left right
  | .function left leftCaptured, .function right rightCaptured =>
      left.same right && sameEntries leftCaptured rightCaptured
  | .builtin left, .builtin right => left = right
  | .gui left, .gui right => left.same right
  | _, _ => false

def sameItems : List Value → List Value → Bool
  | [], [] => true
  | left :: leftRest, right :: rightRest => same left right && sameItems leftRest rightRest
  | _, _ => false

def sameEntries : List (String × Value) → List (String × Value) → Bool
  | [], [] => true
  | (leftName, left) :: leftRest, (rightName, right) :: rightRest =>
      leftName = rightName && same left right && sameEntries leftRest rightRest
  | _, _ => false

end

mutual

/-- Loose equality. -/
def equals : Value → Value → Bool
  | .integer left, .real right => Real.equalsInteger left right
  | .real left, .integer right => Real.equalsInteger right left
  | .list left, .list right => equalItems left right
  | .record left, .record right => equalEntries left right
  | left, right => same left right

def equalItems : List Value → List Value → Bool
  | [], [] => true
  | left :: leftRest, right :: rightRest => equals left right && equalItems leftRest rightRest
  | _, _ => false

def equalEntries : List (String × Value) → List (String × Value) → Bool
  | [], [] => true
  | (leftName, left) :: leftRest, (rightName, right) :: rightRest =>
      leftName = rightName && equals left right && equalEntries leftRest rightRest
  | _, _ => false

end

end WindowScript.Value
