import WindowScript.Number.Integer

/-!
# Reals

The reals of the language are double precision numbers. A double is read through
its bit pattern: it is undefined, infinite, or a whole number of units of
2 ^ -1074, the distance between the smallest doubles. On that reading doubles are
compared, cut and cast; only the cast of a great integer rounds.
-/

set_option autoImplicit false

namespace WindowScript

namespace Real

def twoTo (exponent : Nat) : Nat := Nat.pow 2 exponent

/-- The number of fractions, 2 ^ 52, which is also the place of the exponent field. -/
def fractionCount : Nat := 4503599627370496

/-- The number of exponents, 2 ^ 11. The last one marks what is not finite. -/
def exponentCount : Nat := 2048

/-- The place of the sign bit, 2 ^ 63. -/
def signPlace : Nat := 9223372036854775808

def exponentField (real : Float) : Nat := real.toBits.toNat / fractionCount % exponentCount

def fractionField (real : Float) : Nat := real.toBits.toNat % fractionCount

def isNegative (real : Float) : Bool := signPlace ≤ real.toBits.toNat

def significand (real : Float) : Nat :=
  if exponentField real = 0 then fractionField real else fractionCount + fractionField real

/-- The number of doublings that take the unit to the last place of a finite double. -/
def doublings (real : Float) : Nat := exponentField real - 1

/-- What a double stands for. -/
inductive Reading where
  | undefined
  | infinite (negative : Bool)
  | units (count : Int)
deriving DecidableEq, Repr

/-- The reading of a double. Both zeros read as no units. -/
def reading (real : Float) : Reading :=
  if exponentField real = exponentCount - 1 then
    if fractionField real = 0 then .infinite (isNegative real) else .undefined
  else
    let magnitude : Nat := significand real * twoTo (doublings real)
    .units (if isNegative real then -(magnitude : Int) else magnitude)

def unitsPerOne : Int := twoTo 1074

namespace Reading

/-- Numeric equality: nothing equals what is undefined. -/
def equals : Reading → Reading → Bool
  | .undefined, _ => false
  | first, second => first = second

/-- Numeric order, in which nothing undefined has a place. -/
def below : Reading → Reading → Bool
  | .units first, .units second => first < second
  | .infinite negative, .units _ => negative
  | .units _, .infinite negative => !negative
  | .infinite first, .infinite second => first && !second
  | _, _ => false

def atMost (first second : Reading) : Bool := first.below second || first.equals second

/-- Drops the fraction. What is not finite stays. -/
def truncated : Reading → Reading
  | .units count => .units (count.tdiv unitsPerOne * unitsPerOne)
  | other => other

/-- Takes the whole part away. An infinity less itself is undefined. -/
def fraction : Reading → Reading
  | .units count => .units (count - count.tdiv unitsPerOne * unitsPerOne)
  | _ => .undefined

/-- The cast to an integer. It drops the fraction and ends at the nearest integer there is;
what is undefined becomes zero. -/
def toInteger : Reading → Integer
  | .units count => Integer.clamp (count.tdiv unitsPerOne)
  | .infinite negative => Integer.clamp (if negative then Integer.least else Integer.greatest)
  | .undefined => 0

end Reading

/-- Whether a double is neither undefined nor infinite. -/
def isFinite (real : Float) : Bool :=
  match reading real with
  | .units _ => true
  | _ => false

def equals (left right : Float) : Bool := (reading left).equals (reading right)

/-- Whether two doubles are interchangeable as literals: equal, or both undefined. -/
def alike (left right : Float) : Bool := reading left = reading right

/-- Whether a double is one of the two zeros. -/
def isZero (real : Float) : Bool := reading real = .units 0

/-- The whole number of at most 53 binary digits that is nearest to another one. Of two that are
equally near it is the one with an even last digit. -/
def rounded (magnitude : Nat) : Nat :=
  let spacing := twoTo (magnitude.log2 - 52)
  let before := magnitude / spacing
  let rest := magnitude % spacing
  if spacing < 2 * rest ∨ spacing = 2 * rest ∧ before % 2 = 1 then (before + 1) * spacing
  else before * spacing

/-- The bit pattern of a whole number that has at most 53 binary digits in front of its last
zeros. -/
def wholeBits (magnitude : Nat) : Nat :=
  if magnitude = 0 then 0
  else
    (1022 + magnitude.log2) * fractionCount +
      magnitude * twoTo (52 - magnitude.log2) / twoTo (magnitude.log2 - 52)

/-- The double that is nearest to an integer. -/
def ofInteger (integer : Integer) : Float :=
  let signBit := if integer.toInt < 0 then signPlace else 0
  Float.ofBits (UInt64.ofNat (signBit + wholeBits (rounded integer.toInt.natAbs)))

/-- The greatest magnitude that is turned into a double, one below 2 ^ 53: every whole
number up to it is one. -/
def greatestExact : Nat := 9007199254740991

/-- The double that equals an integer, for integers no greater than `greatestExact`. -/
def ofInteger? (integer : Integer) : Option Float :=
  if greatestExact < integer.toInt.natAbs then none else some (ofInteger integer)

/-- Whether a double stands for exactly this integer: it has no fraction, lies in the range of
integers, and becomes this one. The end of the range is not an integer: the greatest integer is
rounded up to it. -/
def equalsInteger (integer : Integer) (real : Float) : Bool :=
  (reading real).fraction.equals (.units 0) &&
    (reading (ofInteger Int64.minValue)).atMost (reading real) &&
    (reading real).below (reading (ofInteger Int64.maxValue)) &&
    integer = (reading real).toInteger

inductive TruncationFailure where
  | notFinite
  | outOfRange
deriving DecidableEq, Repr

/-- The integer part of a double, fractions dropped. -/
def truncate (real : Float) : Except TruncationFailure Integer :=
  let truncated := (reading real).truncated
  if !isFinite real then .error .notFinite
  else if truncated.below (reading (ofInteger Int64.minValue)) ||
      (reading (ofInteger Int64.maxValue)).atMost truncated then .error .outOfRange
  else .ok truncated.toInteger

end Real

end WindowScript
