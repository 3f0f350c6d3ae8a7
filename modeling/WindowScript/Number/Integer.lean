/-!
# Integers

The integers of the language are 64 bits wide and signed. No operation wraps: a
result outside the range is no integer at all. Numerals are decimal digits, any
number of them, with leading zeros allowed.
-/

set_option autoImplicit false

namespace WindowScript

/-- An integer of the language. -/
abbrev Integer := Int64

namespace Integer

/-- The least integer: minus the 63rd power of two. -/
def least : Int := -9223372036854775808

/-- The greatest integer: one below the 63rd power of two. -/
def greatest : Int := 9223372036854775807

/-- The integer with a given value, if the value is in range. -/
def ofInt? (value : Int) : Option Integer :=
  if least ≤ value ∧ value ≤ greatest then some (Int64.ofInt value) else none

theorem ofInt?_eq_some_iff {value : Int} {held : Integer} :
    ofInt? value = some held ↔ held.toInt = value := by
  unfold ofInt? least greatest
  constructor
  · intro found
    split at found
    · cases found
      exact Int64.toInt_ofInt_of_le (by omega) (by omega)
    · cases found
  · rintro rfl
    have atLeast := held.le_toInt
    have below := held.toInt_lt
    rw [if_pos (by omega), Int64.ofInt_toInt]

theorem ofInt?_eq_none_iff {value : Int} :
    ofInt? value = none ↔ value < least ∨ greatest < value := by
  unfold ofInt?
  split
  · simp only [reduceCtorEq, false_iff]
    omega
  · simp only [true_iff]
    omega

/-- The integer that is nearest to a value. -/
def clamp (value : Int) : Integer := Int64.ofInt (max least (min greatest value))

def add? (left right : Integer) : Option Integer := ofInt? (left.toInt + right.toInt)

def sub? (left right : Integer) : Option Integer := ofInt? (left.toInt - right.toInt)

def mul? (left right : Integer) : Option Integer := ofInt? (left.toInt * right.toInt)

def text (value : Integer) : String :=
  let digits := Nat.toDigits 10 value.toInt.natAbs
  String.ofList (if value.toInt < 0 then '-' :: digits else digits)

end Integer

namespace Numeral

/-- Whether a character is one of the ten decimal digits. -/
def isDigit (character : Char) : Bool := '0' ≤ character && character ≤ '9'

/-- The value of a run of digits, most significant first. -/
def value (digits : List Char) : Nat :=
  digits.foldl (fun total digit => 10 * total + (digit.toNat - '0'.toNat)) 0

/-- Reads an integer: an optional sign and at least one digit, nothing else. -/
def readInteger? (characters : List Char) : Option Integer :=
  match characters with
  | '-' :: digits => if isNumeral digits then Integer.ofInt? (-(value digits : Int)) else none
  | '+' :: digits => if isNumeral digits then Integer.ofInt? (value digits) else none
  | digits => if isNumeral digits then Integer.ofInt? (value digits) else none
where
  isNumeral (digits : List Char) : Bool := !digits.isEmpty && digits.all isDigit

end Numeral

end WindowScript
