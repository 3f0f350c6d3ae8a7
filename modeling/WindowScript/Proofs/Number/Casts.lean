import WindowScript.Number.Real

/-!
# Doubles and integers without rounding

The ends of the range of integers are doubles themselves, the upper one because the greatest
integer is rounded up to it. Between them a double without a fraction is cast to the integer that
it stands for. So neither the comparison of an integer with a double nor the conversion of a double
ever rounds, although both go through casts that do.
-/

set_option autoImplicit false

namespace WindowScript

theorem Integer.toInt_clamp {value : Int} (atLeast : least ≤ value) (atMost : value ≤ greatest) :
    (clamp value).toInt = value := by
  have same : max least (min greatest value) = value := by omega
  unfold least greatest at *
  rw [clamp, least, greatest, same]
  exact Int64.toInt_ofInt_of_le (by omega) (by omega)

namespace Real

theorem reading_ofInteger_minValue :
    reading (ofInteger Int64.minValue) = .units (Integer.least * unitsPerOne) := by
  decide +kernel

/-- The greatest integer has more than 53 binary digits, and is rounded up. -/
theorem reading_ofInteger_maxValue :
    reading (ofInteger Int64.maxValue) = .units ((Integer.greatest + 1) * unitsPerOne) := by
  decide +kernel

theorem twoTo_pos (exponent : Nat) : 0 < twoTo exponent := Nat.two_pow_pos exponent

theorem unitsPerOne_pos : 0 < unitsPerOne := Int.natCast_pos.mpr (twoTo_pos 1074)

theorem tdiv_unitsPerOne (whole : Int) : (whole * unitsPerOne).tdiv unitsPerOne = whole :=
  Int.mul_tdiv_cancel whole (Int.ne_of_gt unitsPerOne_pos)

namespace Reading

@[simp] theorem equals_units {first second : Int} :
    (units first).equals (units second) = true ↔ first = second := by
  simp [equals]

@[simp] theorem below_units {first second : Int} :
    (units first).below (units second) = true ↔ first < second := by
  simp [below]

@[simp] theorem atMost_units {first second : Int} :
    (units first).atMost (units second) = true ↔ first ≤ second := by
  rw [atMost, Bool.or_eq_true, below_units, equals_units]
  omega

theorem fraction_equals_zero_iff {count : Int} :
    (units count).fraction.equals (units 0) = true ↔
      count = count.tdiv unitsPerOne * unitsPerOne := by
  rw [fraction, equals_units]
  omega

end Reading

/-- An integer and a double are equal when the double has as many units as the integer. -/
theorem equalsInteger_iff_reading {integer : Integer} {real : Float} :
    equalsInteger integer real = true ↔ reading real = .units (integer.toInt * unitsPerOne) := by
  have ones := unitsPerOne_pos
  rw [equalsInteger, reading_ofInteger_minValue, reading_ofInteger_maxValue]
  simp only [Bool.and_eq_true, decide_eq_true_eq]
  cases reading real with
  | undefined => simp [Reading.fraction, Reading.equals]
  | infinite negative => simp [Reading.fraction, Reading.equals]
  | units count =>
      rw [Reading.fraction_equals_zero_iff, Reading.atMost_units, Reading.below_units,
        Reading.units.injEq]
      constructor
      · rintro ⟨⟨⟨whole, atLeast⟩, beneath⟩, rfl⟩
        rw [whole] at atLeast beneath
        have least := Int.le_of_mul_le_mul_right atLeast ones
        have greatest := Int.lt_add_one_iff.mp
          (Int.lt_of_mul_lt_mul_right beneath (Int.le_of_lt ones))
        rw [Reading.toInteger, Integer.toInt_clamp least greatest]
        exact whole
      · rintro rfl
        have atLeast := integer.le_toInt
        have beneath := integer.toInt_lt
        have least : Integer.least ≤ integer.toInt := by
          unfold Integer.least
          omega
        have greatest : integer.toInt ≤ Integer.greatest := by
          unfold Integer.greatest
          omega
        rw [Reading.toInteger, tdiv_unitsPerOne]
        refine ⟨⟨⟨rfl, Int.mul_le_mul_of_nonneg_right least (Int.le_of_lt ones)⟩, ?_⟩, ?_⟩
        · exact Int.mul_lt_mul_of_pos_right (by omega) ones
        · exact Int64.toInt_inj.mp (Integer.toInt_clamp least greatest).symm

/-- A finite double is converted to its whole part, where that is in the range of integers. -/
theorem truncate_eq_of_reading (real : Float) :
    truncate real =
      match reading real with
      | .units count =>
          match Integer.ofInt? (count.tdiv unitsPerOne) with
          | some integer => .ok integer
          | none => .error .outOfRange
      | _ => .error .notFinite := by
  have ones := unitsPerOne_pos
  unfold truncate isFinite
  rw [reading_ofInteger_minValue, reading_ofInteger_maxValue]
  cases reading real with
  | undefined | infinite => rfl
  | units count =>
      simp only [Reading.truncated, Bool.not_true, Bool.false_eq_true, if_false, Bool.or_eq_true,
        Reading.below_units, Reading.atMost_units, Reading.toInteger, tdiv_unitsPerOne]
      generalize count.tdiv unitsPerOne = whole
      have below : whole * unitsPerOne < Integer.least * unitsPerOne ↔ whole < Integer.least :=
        Int.mul_lt_mul_right ones
      have beyond : (Integer.greatest + 1) * unitsPerOne ≤ whole * unitsPerOne ↔
          Integer.greatest + 1 ≤ whole := Int.mul_le_mul_right ones
      simp only [below, beyond]
      cases held : Integer.ofInt? whole with
      | none =>
          have outside := Integer.ofInt?_eq_none_iff.mp held
          rw [if_pos (by omega)]
      | some integer =>
          have value := Integer.ofInt?_eq_some_iff.mp held
          have inside : ¬(whole < Integer.least ∨ Integer.greatest < whole) := by
            rw [← Integer.ofInt?_eq_none_iff, held]
            exact Option.some_ne_none integer
          have clamped : (Integer.clamp whole).toInt = whole :=
            Integer.toInt_clamp (by omega) (by omega)
          rw [if_neg (by omega), Int64.toInt_inj.mp (clamped.trans value.symm)]

end Real

end WindowScript
