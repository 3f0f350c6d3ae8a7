import WindowScript.Number.Real

/-!
# The text of a real

A real is written with the fewest decimal digits that read back as the same
double; of several such decimals the nearest is taken, and the upper one of two
equally near. A magnitude from 10 ^ -4 up to, but not including, 10 ^ 16 is written
positionally with at least one digit after the point, any other with an exponent.
-/

set_option autoImplicit false

namespace WindowScript.Real

def tenTo (exponent : Nat) : Nat := Nat.pow 10 exponent

structure Decimal where
  digits : Nat
  exponent : Int
deriving DecidableEq, Repr

/-- A positive double and the open or closed interval of the reals that round to it, all in
quarters of its last place: the double is `4 * significand` quarters. -/
structure Neighbourhood where
  significand : Nat
  binaryExponent : Int
deriving DecidableEq, Repr

namespace Neighbourhood

/-- The lower end, in quarters. Below a power of two the doubles lie twice as close. -/
def lower (around : Neighbourhood) : Nat :=
  4 * around.significand - (if around.significand = fractionCount then 1 else 2)

/-- The upper end, in quarters. -/
def upper (around : Neighbourhood) : Nat := 4 * around.significand + 2

/-- The ends round to the double exactly when its significand is even. -/
def closed (around : Neighbourhood) : Bool := around.significand % 2 = 0

/-- The size of one quarter over the size of a step of the grid of multiples of
10 ^ `place`, as a numerator and a denominator. -/
def quarterOverStep (around : Neighbourhood) (place : Int) : Nat × Nat :=
  let binary := around.binaryExponent - 2
  (twoTo binary.toNat * tenTo (-place).toNat, twoTo (-binary).toNat * tenTo place.toNat)

def leadingPlace (around : Neighbourhood) : Int :=
  let (numerator, denominator) := around.quarterOverStep 0
  let value := 4 * around.significand * numerator
  if denominator ≤ value then ((Nat.toDigits 10 (value / denominator)).length : Int) - 1
  else -((Nat.toDigits 10 ((denominator - 1) / value)).length : Int)

/-- The multiple of 10 ^ `place` that represents the double, if its neighbourhood holds
one: the nearest of the two around it, the upper one when both are equally near. -/
def onGrid? (around : Neighbourhood) (place : Int) : Option Nat :=
  let (numerator, step) := around.quarterOverStep place
  let value := 4 * around.significand * numerator
  let below := value / step
  let reaches (candidate bound : Nat) : Bool :=
    if around.closed then candidate ≤ bound else candidate < bound
  let downward := 0 < below && reaches (around.lower * numerator) (below * step)
  let upward := reaches ((below + 1) * step) (around.upper * numerator)
  if upward && (!downward || step ≤ 2 * (value % step)) then some (below + 1)
  else if downward then some below
  else none

/-- The first representative found on grids from 10 ^ `place` downwards. -/
def search (around : Neighbourhood) : Nat → Int → Decimal
  | 0, place => ⟨around.significand, place⟩
  | attempts + 1, place =>
      match around.onGrid? place with
      | some digits => ⟨digits, place⟩
      | none => around.search attempts (place - 1)

/-- The shortest decimal in the neighbourhood. Seventeen digits always suffice, and the
coarsest grid that can hold a representative lies one place above the leading digit. -/
def shortest (around : Neighbourhood) : Decimal := around.search 20 (around.leadingPlace + 1)

end Neighbourhood

/-- The neighbourhood of a finite double other than zero. -/
def neighbourhood (real : Float) : Neighbourhood :=
  ⟨significand real, (doublings real : Int) - 1074⟩

/-- The digits of a decimal without trailing zeros, and the exponent of the first of them. -/
def Decimal.scientific (decimal : Decimal) : List Char × Int :=
  let digits := Nat.toDigits 10 decimal.digits
  let significant := (digits.reverse.dropWhile (· == '0')).reverse
  (significant, decimal.exponent + digits.length - 1)

/-- Positional notation, with at least one digit on either side of the point. -/
def positional (digits : List Char) (leading : Int) : List Char :=
  if leading < 0 then
    '0' :: '.' :: (List.replicate ((-leading).toNat - 1) '0' ++ digits)
  else
    let whole := leading.toNat + 1
    let fraction := digits.drop whole
    digits.take whole ++ List.replicate (whole - digits.length) '0' ++
      '.' :: (if fraction.isEmpty then ['0'] else fraction)

/-- Notation with an exponent; a single digit has no point. -/
def exponential (digits : List Char) (leading : Int) : List Char :=
  let mantissa :=
    match digits with
    | first :: second :: rest => first :: '.' :: second :: rest
    | short => short
  mantissa ++ 'e' :: (toString leading).toList

def Decimal.text (decimal : Decimal) : List Char :=
  let (digits, leading) := decimal.scientific
  if -4 ≤ leading ∧ leading < 16 then positional digits leading else exponential digits leading

def text (real : Float) : String :=
  match reading real with
  | .undefined => "NaN"
  | .infinite true => "-inf"
  | .infinite false => "inf"
  | .units count =>
      let sign := if isNegative real then "-" else ""
      if count = 0 then sign ++ "0.0"
      else sign ++ String.ofList (neighbourhood real).shortest.text

end WindowScript.Real
