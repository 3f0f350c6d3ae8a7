import WindowScript.Number.Real

/-!
# Reading reals

A real is written as an optional sign, digits with an optional point among or
around them and an optional exponent, or as one of the words for infinity and
for an undefined number. The double nearest to the written decimal is meant.
-/

set_option autoImplicit false

namespace WindowScript.Numeral

/-- The double nearest to `digits` times 10 ^ `exponent`. -/
def nearest (digits : Nat) (exponent : Int) : Float :=
  Float.ofScientific digits (exponent < 0) exponent.natAbs

/-- The double nearest to the decimal with these digits before and after its point,
times 10 ^ `exponent`. -/
def nearestPointed (whole fraction : List Char) (exponent : Int) : Float :=
  nearest (value (whole ++ fraction)) (exponent - fraction.length)

/-- Reads an exponent: nothing, or a mark, an optional sign and at least one digit. -/
def readExponent? (characters : List Char) : Option Int :=
  match characters with
  | [] => some 0
  | mark :: rest =>
      if mark = 'e' ∨ mark = 'E' then
        match rest with
        | '-' :: digits => (magnitude? digits).map fun magnitude => -(magnitude : Int)
        | '+' :: digits => (magnitude? digits).map Int.ofNat
        | digits => (magnitude? digits).map Int.ofNat
      else none
where
  magnitude? (digits : List Char) : Option Nat :=
    if !digits.isEmpty && digits.all isDigit then some (value digits) else none

/-- Reads a decimal without a sign. One digit must stand before or after the point. -/
def readDecimal? (characters : List Char) : Option Float :=
  let whole := characters.takeWhile isDigit
  let afterWhole := characters.dropWhile isDigit
  let (fraction, afterFraction) :=
    match afterWhole with
    | '.' :: rest => (rest.takeWhile isDigit, rest.dropWhile isDigit)
    | rest => ([], rest)
  if whole.isEmpty && fraction.isEmpty then none
  else (readExponent? afterFraction).map (nearestPointed whole fraction)

/-- The words that stand for no finite number, in lower case. -/
def readWord? (characters : List Char) : Option Float :=
  let word := String.ofList (characters.map Char.toLower)
  if word = "inf" ∨ word = "infinity" then some (1.0 / 0.0)
  else if word = "nan" then some (0.0 / 0.0)
  else none

def readUnsigned? (characters : List Char) : Option Float :=
  match readDecimal? characters with
  | some real => some real
  | none => readWord? characters

def readReal? (characters : List Char) : Option Float :=
  match characters with
  | '-' :: rest => (readUnsigned? rest).map Float.neg
  | '+' :: rest => readUnsigned? rest
  | rest => readUnsigned? rest

end WindowScript.Numeral
