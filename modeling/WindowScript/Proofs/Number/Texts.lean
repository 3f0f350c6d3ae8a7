import Mathlib.Data.List.TakeWhile
import WindowScript.Proofs.Number.Rounding

/-!
# The texts of numbers

The text of a decimal can be read back. So different finite doubles have different texts, and
none of them is the text of an integer.
-/

set_option autoImplicit false

namespace WindowScript

namespace Real

/-!
## Reading decimals back
-/

/-- All of the characters are decimal digits. -/
def Digits (characters : List Char) : Prop := ∀ character ∈ characters, character.isDigit = true

theorem digits_append {left right : List Char} :
    Digits (left ++ right) ↔ Digits left ∧ Digits right := List.forall_mem_append

theorem digits_toDigits (number : Nat) : Digits (Nat.toDigits 10 number) :=
  fun _ member => Nat.isDigit_of_mem_toDigits (by decide) (by decide) member

theorem digits_replicate (count : Nat) : Digits (List.replicate count '0') := by
  intro character member
  rw [List.eq_of_mem_replicate member]
  decide

theorem Digits.ne {characters : List Char} (digits : Digits characters) {mark : Char}
    (other : mark.isDigit = false) : ∀ character ∈ characters, character ≠ mark := by
  rintro character member rfl
  rw [digits character member] at other
  cases other

theorem value_append (left right : List Char) :
    Numeral.value (left ++ right) =
      Numeral.value left * 10 ^ right.length + Numeral.value right := by
  change Nat.ofDigitChars 10 (left ++ right) 0 =
    Nat.ofDigitChars 10 left 0 * _ + Nat.ofDigitChars 10 right 0
  rw [Nat.ofDigitChars_append, Nat.ofDigitChars_eq_ofDigitChars_zero, Nat.mul_comm]

@[simp] theorem value_replicate (count : Nat) :
    Numeral.value (List.replicate count '0') = 0 := by
  change Nat.ofDigitChars 10 _ 0 = 0
  rw [Nat.ofDigitChars_replicate_zero, Nat.mul_zero]

@[simp] theorem value_toDigits (number : Nat) : Numeral.value (Nat.toDigits 10 number) = number :=
  Nat.ofDigitChars_ten_toDigits

/-- The exponent that some characters stand for; none stand for zero. -/
def writtenExponent : List Char → Int
  | '-' :: digits => -(Numeral.value digits : Int)
  | digits => Numeral.value digits

/-- The number that a numeral stands for: digits with a point among them or none, and an
exponent or none. -/
def written (numeral : List Char) : ℚ :=
  let mantissa := numeral.takeWhile (· ≠ 'e')
  let fraction := (mantissa.dropWhile (· ≠ '.')).tail
  let exponent := (numeral.dropWhile (· ≠ 'e')).tail
  Numeral.value (mantissa.takeWhile (· ≠ '.') ++ fraction) *
    10 ^ (writtenExponent exponent - fraction.length)

private theorem writtenExponent_toString (exponent : Int) :
    writtenExponent (toString exponent).toList = exponent := by
  rw [Int.toString_eq_repr, Int.repr_eq_if]
  split
  · rw [Nat.repr_eq_ofList_toDigits, String.toList_ofList]
    have digits := digits_toDigits exponent.toNat
    unfold writtenExponent
    split
    · next heading =>
        rw [heading] at digits
        have sign := digits '-' List.mem_cons_self
        simp at sign
    · rw [value_toDigits]
      omega
  · rw [Nat.repr_eq_ofList_toDigits, String.toList_append, String.toList_ofList,
      String.toList_ofList, List.singleton_append, writtenExponent, value_toDigits]
    omega

section

variable {whole fraction : List Char}

private theorem takeWhile_mark {mark : Char} {before : List Char} (free : ∀ character ∈ before,
    character ≠ mark) (rest : List Char) :
    (before ++ mark :: rest).takeWhile (· ≠ mark) = before ∧
      (before ++ mark :: rest).dropWhile (· ≠ mark) = mark :: rest := by
  have keeps : ∀ character ∈ before, (decide (character ≠ mark)) = true := by simpa using free
  rw [List.takeWhile_append_of_pos keeps, List.dropWhile_append_of_pos keeps]
  simp

private theorem takeWhile_free {mark : Char} {characters : List Char}
    (free : ∀ character ∈ characters, character ≠ mark) :
    characters.takeWhile (· ≠ mark) = characters ∧ characters.dropWhile (· ≠ mark) = [] := by
  have keeps : ∀ character ∈ characters, (decide (character ≠ mark)) = true := by simpa using free
  rw [← List.append_nil characters, List.takeWhile_append_of_pos keeps,
    List.dropWhile_append_of_pos keeps]
  exact ⟨rfl, rfl⟩

private theorem written_pointed (before : Digits whole) (behind : Digits fraction) :
    written (whole ++ '.' :: fraction) =
      Numeral.value (whole ++ fraction) * 10 ^ (-(fraction.length : Int)) := by
  have free : ∀ character ∈ whole ++ '.' :: fraction, character ≠ 'e' := by
    intro character member
    rcases List.mem_append.mp member with inside | later
    · exact before.ne (by decide) character inside
    · rcases List.mem_cons.mp later with rfl | inside
      · decide
      · exact behind.ne (by decide) character inside
  have point := takeWhile_mark (before.ne (by decide : '.'.isDigit = false)) fraction
  simp only [written, takeWhile_free free, point, List.tail_cons, List.tail_nil]
  simp [writtenExponent, Numeral.value]

private theorem written_exponential (before : Digits whole) (behind : Digits fraction)
    {point : List Char} (pointed : point = '.' :: fraction ∨ point = [] ∧ fraction = [])
    (exponent : List Char) :
    written (whole ++ point ++ 'e' :: exponent) =
      Numeral.value (whole ++ fraction) *
        10 ^ (writtenExponent exponent - fraction.length) := by
  have free : ∀ character ∈ whole ++ point, character ≠ 'e' := by
    intro character member
    rcases List.mem_append.mp member with inside | later
    · exact before.ne (by decide) character inside
    · rcases pointed with rfl | ⟨rfl, rfl⟩
      · rcases List.mem_cons.mp later with rfl | inside
        · decide
        · exact behind.ne (by decide) character inside
      · cases later
  simp only [written, takeWhile_mark free exponent, List.tail_cons]
  rcases pointed with rfl | ⟨rfl, rfl⟩
  · have point := takeWhile_mark (before.ne (by decide : '.'.isDigit = false)) fraction
    simp only [point, List.tail_cons]
  · have point := takeWhile_free (before.ne (by decide : '.'.isDigit = false))
    simp only [List.append_nil, point, List.tail_nil]

end

section

variable (decimal : Decimal)

/-- The digits of a decimal are its significant ones and zeros behind them. -/
theorem exists_zeros :
    ∃ zeros, Nat.toDigits 10 decimal.digits =
      decimal.scientific.1 ++ List.replicate zeros '0' := by
  let dropped := (Nat.toDigits 10 decimal.digits).reverse.takeWhile (· == '0')
  refine ⟨dropped.length, ?_⟩
  have zeros : dropped = List.replicate dropped.length '0' := by
    rw [List.eq_replicate_iff]
    refine ⟨rfl, fun digit member => ?_⟩
    exact beq_iff_eq.mp (List.mem_takeWhile_imp (p := (· == '0')) member)
  have split := List.takeWhile_append_dropWhile (p := (· == '0'))
    (l := (Nat.toDigits 10 decimal.digits).reverse)
  have whole := congrArg List.reverse split
  rw [List.reverse_append, List.reverse_reverse] at whole
  rw [← whole, Decimal.scientific]
  congr 1
  rw [← List.reverse_replicate, ← zeros]

private theorem digits_scientific : Digits decimal.scientific.1 := by
  obtain ⟨zeros, split⟩ := exists_zeros decimal
  have all := digits_toDigits decimal.digits
  rw [split, digits_append] at all
  exact all.1

private theorem scientific_ne_nil (positive : 0 < decimal.digits) : decimal.scientific.1 ≠ [] := by
  intro empty
  obtain ⟨zeros, split⟩ := exists_zeros decimal
  have value := congrArg Numeral.value split
  rw [empty, List.nil_append, value_toDigits, value_replicate] at value
  omega

/-- The number that the significant digits stand for when the first of them has a given
exponent. -/
def scaled (digits : List Char) (leading : Int) : ℚ :=
  Numeral.value digits * 10 ^ (leading + 1 - digits.length)

private theorem scaled_scientific :
    scaled decimal.scientific.1 decimal.scientific.2 = decimal.digits * 10 ^ decimal.exponent := by
  obtain ⟨zeros, split⟩ := exists_zeros decimal
  have value := congrArg Numeral.value split
  have length := congrArg List.length split
  rw [value_toDigits, value_append, value_replicate, Nat.add_zero, List.length_replicate] at value
  rw [List.length_append, List.length_replicate] at length
  have place : decimal.scientific.2 = decimal.exponent +
      (Nat.toDigits 10 decimal.digits).length - 1 := rfl
  rw [scaled, value, place, length, Nat.cast_mul, Nat.cast_pow, Nat.cast_ofNat, mul_assoc,
    ← zpow_natCast, ← zpow_add₀ (by norm_num)]
  congr 2
  push_cast
  ring

end

section

variable {digits : List Char} (all : Digits digits) (leading : Int)

include all

private theorem written_positional :
    written (positional digits leading) = scaled digits leading := by
  unfold positional
  split
  · next negative =>
      have zeros := digits_append.mpr ⟨digits_replicate ((-leading).toNat - 1), all⟩
      have first : Digits ['0'] := by simp [Digits]
      have read := written_pointed first zeros
      rw [List.singleton_append, List.singleton_append] at read
      rw [read, scaled, show '0' :: (List.replicate ((-leading).toNat - 1) '0' ++ digits) =
        List.replicate ((-leading).toNat - 1 + 1) '0' ++ digits from rfl, value_append,
        value_replicate, Nat.zero_mul, Nat.zero_add, List.length_append, List.length_replicate]
      congr 2
      omega
  · next nonnegative =>
      have before : Digits (digits.take (leading.toNat + 1) ++
          List.replicate (leading.toNat + 1 - digits.length) '0') :=
        digits_append.mpr ⟨fun digit member => all digit (List.mem_of_mem_take member),
          digits_replicate _⟩
      by_cases short : digits.length ≤ leading.toNat + 1
      · have none : digits.drop (leading.toNat + 1) = [] := List.drop_eq_nil_of_le short
        have zero : Digits ['0'] := by simp [Digits]
        simp only [none, List.isEmpty_nil, if_true]
        rw [written_pointed before zero, List.take_of_length_le short, scaled, List.append_assoc,
          value_append, value_append, value_replicate]
        simp only [List.length_append, List.length_replicate, List.length_singleton,
          Nat.zero_mul, show Numeral.value ['0'] = 0 from rfl, Nat.add_zero, Nat.cast_mul,
          Nat.cast_pow, Nat.cast_ofNat, mul_assoc]
        rw [← zpow_natCast, ← zpow_add₀ (by norm_num)]
        congr 2
        omega
      · have behind : Digits (digits.drop (leading.toNat + 1)) :=
          fun digit member => all digit (List.mem_of_mem_drop member)
        have some : (digits.drop (leading.toNat + 1)).isEmpty = false := by
          rw [List.isEmpty_eq_false_iff, ne_eq, List.drop_eq_nil_iff]
          omega
        have noZeros : leading.toNat + 1 - digits.length = 0 := by omega
        simp only [some, Bool.false_eq_true, if_false]
        rw [written_pointed before behind, noZeros, List.replicate_zero, List.append_nil,
          List.take_append_drop, scaled, List.length_drop]
        congr 2
        omega

private theorem written_exponential_of_ne_nil (nonempty : digits ≠ []) :
    written (exponential digits leading) = scaled digits leading := by
  match digits, nonempty, all with
  | [only], _, all =>
      have none : Digits [] := by simp [Digits]
      have read := written_exponential all none (.inr ⟨rfl, rfl⟩) (toString leading).toList
      rw [List.append_nil] at read
      change written ([only] ++ 'e' :: (toString leading).toList) = _
      rw [read, writtenExponent_toString, scaled]
      simp
  | first :: second :: rest, _, all =>
      have parts := digits_append.mp (show Digits ([first] ++ second :: rest) from all)
      have read := written_exponential parts.1 parts.2 (.inl rfl) (toString leading).toList
      rw [exponential, show first :: '.' :: second :: rest ++ 'e' :: (toString leading).toList =
        [first] ++ '.' :: second :: rest ++ 'e' :: (toString leading).toList from rfl, read,
        writtenExponent_toString, scaled, List.singleton_append]
      congr 2
      simp only [List.length_cons]
      push_cast
      ring

end

/-- The text of a decimal stands for the decimal. -/
theorem written_text {decimal : Decimal} (positive : 0 < decimal.digits) :
    written decimal.text = decimal.digits * 10 ^ decimal.exponent := by
  rw [← scaled_scientific]
  have all := digits_scientific decimal
  simp only [Decimal.text]
  split
  · exact written_positional all _
  · exact written_exponential_of_ne_nil all _ (scientific_ne_nil decimal positive)

/-!
## Characters of a numeral
-/

/-- The characters of which the texts of finite numbers consist. -/
def isNumeralCharacter (character : Char) : Bool :=
  character.isDigit || character = '.' || character = 'e' || character = '-'

def Numeric (characters : List Char) : Prop :=
  ∀ character ∈ characters, isNumeralCharacter character = true

private theorem numeric_append {left right : List Char} :
    Numeric (left ++ right) ↔ Numeric left ∧ Numeric right := List.forall_mem_append

theorem numeric_cons {first : Char} {rest : List Char} :
    Numeric (first :: rest) ↔ isNumeralCharacter first = true ∧ Numeric rest :=
  List.forall_mem_cons

theorem Digits.numeric {characters : List Char} (digits : Digits characters) :
    Numeric characters := by
  intro character member
  simp [isNumeralCharacter, digits character member]

private theorem numeric_toString (exponent : Int) : Numeric (toString exponent).toList := by
  rw [Int.toString_eq_repr, Int.repr_eq_if]
  split
  · rw [Nat.repr_eq_ofList_toDigits, String.toList_ofList]
    exact (digits_toDigits _).numeric
  · rw [Nat.repr_eq_ofList_toDigits, String.toList_append, String.toList_ofList,
      String.toList_ofList]
    exact numeric_append.mpr ⟨by simp [Numeric, isNumeralCharacter], (digits_toDigits _).numeric⟩

/-- A numeral that begins with a digit and has a point or an exponent, as no integer has. -/
structure Fractional (characters : List Char) : Prop where
  numeric : Numeric characters
  begins : ∃ first rest, characters = first :: rest ∧ first.isDigit = true
  marked : '.' ∈ characters ∨ 'e' ∈ characters

private theorem fractional_positional {digits : List Char} (all : Digits digits)
    (nonempty : digits ≠ []) (leading : Int) : Fractional (positional digits leading) := by
  obtain ⟨first, rest, rfl⟩ := List.exists_cons_of_ne_nil nonempty
  unfold positional
  split
  · refine ⟨?_, ⟨'0', _, rfl, by decide⟩, .inl (by simp)⟩
    have zeros := digits_append.mpr ⟨digits_replicate ((-leading).toNat - 1), all⟩
    exact numeric_cons.mpr ⟨by decide, numeric_cons.mpr ⟨by decide, zeros.numeric⟩⟩
  · refine ⟨?_, ⟨first, _, rfl, all first List.mem_cons_self⟩, .inl (by simp)⟩
    have taken : Digits ((first :: rest).take (leading.toNat + 1)) :=
      fun digit member => all digit (List.mem_of_mem_take member)
    have dropped : Digits ((first :: rest).drop (leading.toNat + 1)) :=
      fun digit member => all digit (List.mem_of_mem_drop member)
    refine numeric_append.mpr ⟨(digits_append.mpr ⟨taken, digits_replicate _⟩).numeric, ?_⟩
    refine numeric_cons.mpr ⟨by decide, ?_⟩
    split
    · simp [Numeric, isNumeralCharacter]
    · exact dropped.numeric

private theorem fractional_exponential {digits : List Char} (all : Digits digits)
    (nonempty : digits ≠ []) (leading : Int) : Fractional (exponential digits leading) := by
  have exponent : Numeric ('e' :: (toString leading).toList) :=
    numeric_cons.mpr ⟨by decide, numeric_toString leading⟩
  match digits, nonempty, all with
  | [only], _, all =>
      exact ⟨numeric_append.mpr ⟨all.numeric, exponent⟩,
        ⟨only, _, rfl, all only List.mem_cons_self⟩, .inr (by simp [exponential])⟩
  | first :: second :: rest, _, all =>
      have digit := numeric_cons.mp all.numeric
      refine ⟨numeric_append.mpr ⟨?_, exponent⟩,
        ⟨first, _, rfl, all first List.mem_cons_self⟩, .inl (by simp [exponential])⟩
      exact numeric_cons.mpr ⟨digit.1, numeric_cons.mpr ⟨by decide, digit.2⟩⟩

private theorem fractional_text {decimal : Decimal} (positive : 0 < decimal.digits) :
    Fractional decimal.text := by
  have all := digits_scientific decimal
  have nonempty := scientific_ne_nil decimal positive
  simp only [Decimal.text]
  split
  · exact fractional_positional all nonempty _
  · exact fractional_exponential all nonempty _

/-!
## Texts of doubles
-/

/-- The text of a finite double without its sign. -/
def magnitudeText (real : Float) : List Char :=
  if significand real = 0 then ['0', '.', '0'] else (neighbourhood real).shortest.text

private theorem exponentField_lt_of_isFinite {real : Float} (finite : isFinite real = true) :
    exponentField real < exponentCount - 1 := by
  have range : exponentField real < exponentCount := Nat.mod_lt _ (by decide)
  by_contra last
  have exactly : exponentField real = exponentCount - 1 := by omega
  unfold isFinite reading at finite
  rw [if_pos exactly] at finite
  split at finite
  · next unread => split at unread <;> cases unread
  · cases finite

theorem toList_text {real : Float} (finite : isFinite real = true) :
    (text real).toList = (if isNegative real then ['-'] else []) ++ magnitudeText real := by
  have field := exponentField_lt_of_isFinite finite
  have zero : significand real * twoTo (doublings real) = 0 ↔ significand real = 0 := by
    have power : twoTo (doublings real) ≠ 0 := (Nat.pow_pos (by decide)).ne'
    simp [power]
  unfold text reading magnitudeText
  rw [if_neg (by omega)]
  cases negative : isNegative real <;> by_cases none : significand real = 0 <;>
    simp_all [String.toList_append]

private theorem significand_lt (real : Float) : significand real < 2 * fractionCount := by
  have fraction : fractionField real < fractionCount := Nat.mod_lt _ (by decide)
  unfold significand
  split <;> omega

private theorem doublings_of_significand_eq_zero {real : Float} (zero : significand real = 0) :
    doublings real = 0 := by
  unfold significand fractionCount at zero
  unfold doublings
  split at zero <;> omega

private theorem canonical_neighbourhood {real : Float} (nonzero : significand real ≠ 0) :
    (neighbourhood real).Canonical := by
  constructor
  · exact Nat.pos_of_ne_zero nonzero
  · exact significand_lt real
  · simp only [neighbourhood]
    omega
  · intro small
    simp only [neighbourhood, significand, doublings] at small ⊢
    split at small <;> omega

theorem fractional_magnitudeText (real : Float) : Fractional (magnitudeText real) := by
  unfold magnitudeText
  split
  · exact ⟨by simp [Numeric, isNumeralCharacter], ⟨'0', _, rfl, by decide⟩, .inl (by simp)⟩
  · next nonzero =>
      exact fractional_text ((neighbourhood real).shortest_holds (canonical_neighbourhood nonzero)).1

/-- The text of a finite double without its sign stands for zero, or for a positive number
that rounds to the double. -/
theorem written_magnitudeText (real : Float) :
    (significand real = 0 ∧ written (magnitudeText real) = 0) ∨
      (significand real ≠ 0 ∧ 0 < written (magnitudeText real) ∧
        (neighbourhood real).Holds (written (magnitudeText real))) := by
  unfold magnitudeText
  split
  · next zero =>
      refine .inl ⟨zero, ?_⟩
      have digit : Digits ['0'] := by simp [Digits]
      have read := written_pointed digit digit
      rw [List.singleton_append, List.singleton_append] at read
      rw [read, show Numeral.value ['0', '0'] = 0 from rfl, Nat.cast_zero, zero_mul]
  · next nonzero =>
      obtain ⟨positive, held⟩ :=
        (neighbourhood real).shortest_holds (canonical_neighbourhood nonzero)
      rw [written_text positive]
      exact .inr ⟨nonzero, by positivity, held⟩

theorem significand_cases (real : Float) :
    (exponentField real = 0 ∧ significand real = fractionField real) ∨
      (exponentField real ≠ 0 ∧ significand real = fractionCount + fractionField real) := by
  unfold significand
  split
  · next bottom => exact .inl ⟨bottom, rfl⟩
  · next above => exact .inr ⟨above, rfl⟩

private theorem eq_of_fields {left right : Float} (signs : isNegative left = isNegative right)
    (significands : significand left = significand right)
    (places : doublings left = doublings right) : left = right := by
  have sign : (signPlace ≤ left.toBits.toNat) ↔ signPlace ≤ right.toBits.toNat := by
    simpa [isNegative] using signs
  have leftBound := left.toBits.toNat_lt
  have rightBound := right.toBits.toNat_lt
  have leftCases := significand_cases left
  have rightCases := significand_cases right
  rw [significands] at leftCases
  have bits : left.toBits = right.toBits := by
    apply UInt64.toNat_inj.mp
    simp only [doublings, exponentField, fractionField, fractionCount, exponentCount,
      signPlace] at *
    omega
  rcases left with ⟨⟨leftBits, _⟩⟩
  rcases right with ⟨⟨rightBits, _⟩⟩
  cases show leftBits = rightBits from bits
  rfl

/-- Different finite doubles have different texts. -/
theorem text_injective {left right : Float} (finiteLeft : isFinite left = true)
    (finiteRight : isFinite right = true) (same : text left = text right) : left = right := by
  have texts := congrArg String.toList same
  rw [toList_text finiteLeft, toList_text finiteRight] at texts
  obtain ⟨leftFirst, leftRest, leftText, leftDigit⟩ := (fractional_magnitudeText left).begins
  obtain ⟨rightFirst, rightRest, rightText, rightDigit⟩ := (fractional_magnitudeText right).begins
  obtain ⟨signs, magnitudes⟩ : isNegative left = isNegative right ∧
      magnitudeText left = magnitudeText right := by
    rw [leftText, rightText] at texts ⊢
    generalize isNegative left = leftSign at *
    generalize isNegative right = rightSign at *
    cases leftSign <;> cases rightSign
    · exact ⟨rfl, texts⟩
    · cases texts
      cases leftDigit
    · cases texts
      cases rightDigit
    · exact ⟨rfl, List.cons_injective texts⟩
  have leftValue := written_magnitudeText left
  have rightValue := written_magnitudeText right
  rw [magnitudes] at leftValue
  rcases leftValue with ⟨zero, none⟩ | ⟨nonzero, positive, held⟩
  · rcases rightValue with ⟨otherZero, _⟩ | ⟨_, positive, _⟩
    · have places := (doublings_of_significand_eq_zero zero).trans
        (doublings_of_significand_eq_zero otherZero).symm
      exact eq_of_fields signs (zero.trans otherZero.symm) places
    · exact absurd none positive.ne'
  · rcases rightValue with ⟨_, none⟩ | ⟨otherNonzero, _, heldOther⟩
    · exact absurd none positive.ne'
    · have around := held.unique heldOther (canonical_neighbourhood nonzero)
        (canonical_neighbourhood otherNonzero)
      simp only [neighbourhood, Neighbourhood.mk.injEq] at around
      exact eq_of_fields signs around.1 (by omega)

end Real

namespace Integer

theorem toList_text {value : Integer} (nonnegative : 0 ≤ value.toInt) :
    (text value).toList = Nat.toDigits 10 value.toInt.natAbs := by
  unfold text
  rw [String.toList_ofList, if_neg (by omega)]

theorem digits_text {value : Integer} (nonnegative : 0 ≤ value.toInt) :
    Real.Digits (text value).toList := by
  rw [toList_text nonnegative]
  exact Real.digits_toDigits _

theorem value_text {value : Integer} (nonnegative : 0 ≤ value.toInt) :
    (Numeral.value (text value).toList : Int) = value.toInt := by
  rw [toList_text nonnegative, Real.value_toDigits]
  omega

end Integer

end WindowScript
