import Mathlib.Algebra.Order.Field.Power
import Mathlib.Data.Rat.Cast.Order
import Mathlib.Tactic.Linarith
import Mathlib.Tactic.Positivity
import Mathlib.Tactic.Ring
import WindowScript.Number.Shortest

/-!
# Decimals that round to a double

The decimal chosen for a double lies among the rationals that round to it, and no rational
rounds to two doubles.
-/

set_option autoImplicit false

namespace WindowScript.Real

theorem cast_twoTo (exponent : Nat) : (twoTo exponent : ℚ) = 2 ^ exponent := by
  simp [twoTo]

private theorem cast_tenTo (exponent : Nat) : (tenTo exponent : ℚ) = 10 ^ exponent := by
  simp [tenTo]

/-- A power with an integer exponent as a quotient of powers with natural exponents. -/
theorem zpow_mul_pow_toNat {base : ℚ} (positive : 0 < base) (exponent : Int) :
    base ^ exponent * base ^ (-exponent).toNat = base ^ exponent.toNat := by
  rw [← zpow_natCast, ← zpow_natCast, ← zpow_add₀ positive.ne']
  congr 1
  omega

namespace Neighbourhood

variable (around : Neighbourhood)

/-- The size of a quarter of the last place. -/
def quarter : ℚ := 2 ^ (around.binaryExponent - 2)

private theorem quarter_pos : 0 < around.quarter := by
  unfold quarter
  positivity

/-- The rationals that round to the double. -/
structure Holds (number : ℚ) : Prop where
  above : around.lower * around.quarter ≤ number
  below : number ≤ around.upper * around.quarter
  inner : around.closed = false →
    around.lower * around.quarter < number ∧ number < around.upper * around.quarter

/-- The neighbourhoods that finite doubles other than zero have. -/
structure Canonical : Prop where
  positive : 0 < around.significand
  bounded : around.significand < 2 * fractionCount
  least : -1074 ≤ around.binaryExponent
  normal : around.significand < fractionCount → around.binaryExponent = -1074

section

variable (place : Int)

private theorem quarterOverStep_pos :
    0 < (around.quarterOverStep place).1 ∧ 0 < (around.quarterOverStep place).2 := by
  have two (exponent : Nat) : 0 < twoTo exponent := Nat.pow_pos (by decide)
  have ten (exponent : Nat) : 0 < tenTo exponent := Nat.pow_pos (by decide)
  exact ⟨Nat.mul_pos (two _) (ten _), Nat.mul_pos (two _) (ten _)⟩

private theorem quarterOverStep_mul :
    ((around.quarterOverStep place).1 : ℚ) * 10 ^ place =
      (around.quarterOverStep place).2 * around.quarter := by
  have two := zpow_mul_pow_toNat (by norm_num : (0 : ℚ) < 2) (around.binaryExponent - 2)
  have ten := zpow_mul_pow_toNat (by norm_num : (0 : ℚ) < 10) place
  simp only [quarterOverStep, Nat.cast_mul, cast_twoTo, cast_tenTo, quarter]
  rw [← two, ← ten]
  ring

/-- Counts of quarters and of steps are compared as the rationals they stand for. -/
theorem exists_scale :
    ∃ scale : ℚ, 0 < scale ∧
      (∀ count : Nat,
        count * around.quarter = (count * (around.quarterOverStep place).1 : Nat) * scale) ∧
      ∀ digits : Nat,
        digits * (10 : ℚ) ^ place = (digits * (around.quarterOverStep place).2 : Nat) * scale := by
  have step : (0 : ℚ) < (around.quarterOverStep place).2 :=
    Nat.cast_pos.mpr (around.quarterOverStep_pos place).2
  have ratio := around.quarterOverStep_mul place
  refine ⟨10 ^ place / (around.quarterOverStep place).2, by positivity, ?_, ?_⟩
  · intro count
    rw [Nat.cast_mul, mul_assoc, mul_div_assoc', ratio, mul_div_cancel_left₀ _ step.ne']
  · intro digits
    rw [Nat.cast_mul, mul_assoc, mul_div_cancel₀ _ step.ne']

private theorem holds_of_counts {digits : Nat}
    (above : around.lower * (around.quarterOverStep place).1 ≤
      digits * (around.quarterOverStep place).2)
    (below : digits * (around.quarterOverStep place).2 ≤
      around.upper * (around.quarterOverStep place).1)
    (inner : around.closed = false →
      around.lower * (around.quarterOverStep place).1 < digits * (around.quarterOverStep place).2 ∧
      digits * (around.quarterOverStep place).2 <
        around.upper * (around.quarterOverStep place).1) :
    around.Holds (digits * (10 : ℚ) ^ place) := by
  obtain ⟨scale, positive, quarters, steps⟩ := around.exists_scale place
  constructor
  · rw [quarters, steps]
    exact (mul_le_mul_iff_of_pos_right positive).mpr (Nat.cast_le.mpr above)
  · rw [quarters, steps]
    exact (mul_le_mul_iff_of_pos_right positive).mpr (Nat.cast_le.mpr below)
  · intro opened
    rw [quarters, quarters, steps]
    exact ⟨(mul_lt_mul_iff_of_pos_right positive).mpr (Nat.cast_lt.mpr (inner opened).1),
      (mul_lt_mul_iff_of_pos_right positive).mpr (Nat.cast_lt.mpr (inner opened).2)⟩

end

private theorem lower_lt (positive : 0 < around.significand) :
    around.lower < 4 * around.significand := by
  unfold lower
  split <;> omega

private theorem lt_upper : 4 * around.significand < around.upper := by
  unfold upper
  omega

/-- Whether an end of the neighbourhood may be reached depends on the parity of the
significand. -/
theorem reaches_iff {candidate bound : Nat} :
    (if around.closed then decide (candidate ≤ bound) else decide (candidate < bound)) = true ↔
      candidate ≤ bound ∧ (around.closed = false → candidate < bound) := by
  cases around.closed <;> simp
  exact Nat.le_of_lt

section

variable {upward downward nearer : Bool} {above below : Nat}

/-- How a representative is chosen from the two candidates around a double. -/
theorem chosen_cases {digits : Nat}
    (found : (if upward && (!downward || nearer) then some above
      else if downward then some below else none) = some digits) :
    (upward = true ∧ above = digits) ∨ (downward = true ∧ below = digits) := by
  cases upward <;> cases downward <;> cases nearer <;> simp_all

private theorem exists_chosen (reached : upward = true) :
    ∃ digits, (if upward && (!downward || nearer) then some above
      else if downward then some below else none) = some digits := by
  cases downward <;> cases nearer <;> simp [reached]

end

private theorem holds_of_onGrid? {place : Int} (positive : 0 < around.significand) {digits : Nat}
    (found : around.onGrid? place = some digits) :
    0 < digits ∧ around.Holds (digits * (10 : ℚ) ^ place) := by
  have sizes := around.quarterOverStep_pos place
  have below := Nat.mul_lt_mul_of_pos_right (around.lower_lt positive) sizes.1
  have above := Nat.mul_lt_mul_of_pos_right around.lt_upper sizes.1
  simp only [onGrid?] at found
  generalize 4 * around.significand * (around.quarterOverStep place).1 = count at *
  have floor := Nat.div_mul_le_self count (around.quarterOverStep place).2
  have ceiling := Nat.lt_mul_div_succ count sizes.2
  rw [Nat.mul_comm] at ceiling
  rcases chosen_cases found with ⟨upward, rfl⟩ | ⟨downward, rfl⟩
  · obtain ⟨within, strictly⟩ := around.reaches_iff.mp upward
    refine ⟨Nat.succ_pos _, around.holds_of_counts place (by omega) within ?_⟩
    intro opened
    exact ⟨by omega, strictly opened⟩
  · rw [Bool.and_eq_true, reaches_iff, decide_eq_true_iff] at downward
    obtain ⟨nonzero, within, strictly⟩ := downward
    refine ⟨nonzero, around.holds_of_counts place within (by omega) ?_⟩
    intro opened
    exact ⟨strictly opened, by omega⟩

/-- A grid whose step is below half of the last place has a representative. -/
theorem exists_onGrid? {place : Int} (fine : (10 : ℚ) ^ place < 2 * around.quarter) :
    ∃ digits, around.onGrid? place = some digits := by
  obtain ⟨scale, positive, quarters, steps⟩ := around.exists_scale place
  have sizes := around.quarterOverStep_pos place
  have step : (around.quarterOverStep place).2 < 2 * (around.quarterOverStep place).1 := by
    have two := quarters 2
    have one := steps 1
    rw [Nat.cast_one, one_mul, one_mul] at one
    rw [Nat.cast_ofNat] at two
    rw [one, two, mul_lt_mul_iff_of_pos_right positive] at fine
    exact_mod_cast fine
  simp only [onGrid?]
  generalize value : 4 * around.significand * (around.quarterOverStep place).1 = count
  have floor := Nat.div_mul_le_self count (around.quarterOverStep place).2
  have reached : (count / (around.quarterOverStep place).2 + 1) * (around.quarterOverStep place).2 <
      around.upper * (around.quarterOverStep place).1 := by
    rw [upper, Nat.add_mul, Nat.add_mul, Nat.one_mul, value]
    omega
  exact exists_chosen (around.reaches_iff.mpr ⟨reached.le, fun _ => reached⟩)

/-- The search stops at the latest on the first grid known to have a representative. -/
theorem onGrid?_search (attempts : Nat) {place target : Int} (ahead : target ≤ place)
    (enough : place < target + attempts) (reached : ∃ digits, around.onGrid? target = some digits) :
    around.onGrid? (around.search attempts place).exponent =
      some (around.search attempts place).digits := by
  induction attempts generalizing place with
  | zero => omega
  | succ attempts ih =>
      unfold search
      cases found : around.onGrid? place with
      | some digits => exact found
      | none =>
          have further : target ≠ place := by
            rintro rfl
            rw [found] at reached
            simp at reached
          exact ih (by omega) (by push_cast at enough; omega)

private theorem pow_length_toDigits_le {number : Nat} (positive : 0 < number) :
    10 ^ ((Nat.toDigits 10 number).length - 1) ≤ number := by
  by_cases short : (Nat.toDigits 10 number).length - 1 = 0
  · rw [short]
    exact positive
  · have bound := Nat.length_toDigits_le_iff (n := number) (by decide : 1 < 10)
      (Nat.pos_of_ne_zero short)
    omega

private theorem lt_pow_length_toDigits (number : Nat) :
    number < 10 ^ (Nat.toDigits 10 number).length :=
  (Nat.length_toDigits_le_iff (by decide) Nat.length_toDigits_pos).mp le_rfl

private theorem pow_leadingPlace_le (positive : 0 < around.significand) :
    (10 : ℚ) ^ around.leadingPlace ≤ (4 * around.significand : Nat) * around.quarter := by
  obtain ⟨scale, scaled, quarters, steps⟩ := around.exists_scale 0
  have sizes := around.quarterOverStep_pos 0
  have unit := steps 1
  rw [zpow_zero, Nat.cast_one, one_mul, one_mul] at unit
  rw [quarters]
  simp only [leadingPlace]
  have counted : 0 < 4 * around.significand * (around.quarterOverStep 0).1 :=
    Nat.mul_pos (by omega) sizes.1
  generalize 4 * around.significand * (around.quarterOverStep 0).1 = count at *
  generalize (around.quarterOverStep 0).2 = step at *
  split
  · next large =>
      have leading := pow_length_toDigits_le (Nat.div_pos large sizes.2)
      have floor := Nat.div_mul_le_self count step
      have length := Nat.length_toDigits_pos (b := 10) (n := count / step)
      rw [show ((Nat.toDigits 10 (count / step)).length : Int) - 1 =
        ((Nat.toDigits 10 (count / step)).length - 1 : Nat) by omega, zpow_natCast]
      calc (10 : ℚ) ^ ((Nat.toDigits 10 (count / step)).length - 1)
          = (10 ^ ((Nat.toDigits 10 (count / step)).length - 1) * step : Nat) * scale := by
            rw [Nat.cast_mul, mul_assoc, ← unit, mul_one, Nat.cast_pow, Nat.cast_ofNat]
        _ ≤ count * scale := by
            have within := (Nat.mul_le_mul_right step leading).trans floor
            exact mul_le_mul_of_nonneg_right (Nat.cast_le.mpr within) scaled.le
  · have bound := lt_pow_length_toDigits ((step - 1) / count)
    have ceiling := Nat.lt_mul_div_succ (step - 1) counted
    generalize (Nat.toDigits 10 ((step - 1) / count)).length = length at *
    have covered : step ≤ 10 ^ length * count := by
      have more := Nat.mul_le_mul_left count bound
      rw [Nat.mul_comm (10 ^ length)]
      exact (show step ≤ count * ((step - 1) / count + 1) by omega).trans more
    have power : (0 : ℚ) < 10 ^ length := by positivity
    rw [zpow_neg, zpow_natCast, inv_le_iff_one_le_mul₀' power]
    calc (1 : ℚ) = step * scale := unit
      _ ≤ (10 ^ length * count : Nat) * scale :=
          mul_le_mul_of_nonneg_right (Nat.cast_le.mpr covered) scaled.le
      _ = 10 ^ length * (count * scale) := by
          rw [Nat.cast_mul, Nat.cast_pow, Nat.cast_ofNat, mul_assoc]

/-- Seventeen digits behind the leading one are enough. -/
theorem shortest_holds (canonical : around.Canonical) :
    0 < around.shortest.digits ∧
      around.Holds (around.shortest.digits * (10 : ℚ) ^ around.shortest.exponent) := by
  have leading := around.pow_leadingPlace_le canonical.positive
  have quarter := around.quarter_pos
  have fine : (10 : ℚ) ^ (around.leadingPlace - 17) < 2 * around.quarter := by
    have bounded : ((4 * around.significand : Nat) : ℚ) < 8 * 4503599627370496 := by
      have bounded := canonical.bounded
      have count : 4 * around.significand < 8 * 4503599627370496 := by
        unfold fractionCount at bounded
        omega
      exact_mod_cast count
    have size := mul_lt_mul_of_pos_right bounded quarter
    rw [zpow_sub₀ (by norm_num), div_lt_iff₀ (by positivity)]
    norm_num
    linarith
  have ahead : around.leadingPlace - 17 ≤ around.leadingPlace + 1 := by omega
  have found := around.onGrid?_search 20 ahead (by push_cast; omega) (around.exists_onGrid? fine)
  exact around.holds_of_onGrid? canonical.positive found

variable {around} {other : Neighbourhood} {number : ℚ}

/-- Where one neighbourhood ends before the other begins, they can share no more than that
end, which both must then include. -/
theorem Holds.touch (held : around.Holds number) (heldOther : other.Holds number)
    (before : around.upper * around.quarter ≤ other.lower * other.quarter) :
    around.closed = true ∧ other.closed = true ∧
      around.upper * around.quarter = other.lower * other.quarter := by
  have below := held.below
  have above := heldOther.above
  refine ⟨?_, ?_, by linarith⟩
  · by_contra opened
    have strictly := (held.inner (Bool.eq_false_of_not_eq_true opened)).2
    linarith
  · by_contra opened
    have strictly := (heldOther.inner (Bool.eq_false_of_not_eq_true opened)).1
    linarith

private theorem Holds.le_of_binaryExponent_eq (held : around.Holds number)
    (heldOther : other.Holds number) (same : around.binaryExponent = other.binaryExponent) :
    other.significand ≤ around.significand := by
  by_contra less
  have quarters : around.quarter = other.quarter := by rw [quarter, quarter, same]
  have counts : around.upper ≤ other.lower := by
    unfold upper lower
    split <;> omega
  have order : around.upper * around.quarter ≤ other.lower * other.quarter := by
    rw [quarters]
    exact mul_le_mul_of_nonneg_right (Nat.cast_le.mpr counts) other.quarter_pos.le
  obtain ⟨even, evenOther, equal⟩ := held.touch heldOther order
  rw [quarters] at equal
  have ends := Nat.cast_injective (mul_right_cancel₀ other.quarter_pos.ne' equal)
  simp only [closed, decide_eq_true_eq] at even evenOther
  unfold upper lower at ends
  split at ends <;> omega

private theorem Holds.binaryExponent_le (held : around.Holds number)
    (heldOther : other.Holds number) (canonical : around.Canonical)
    (canonicalOther : other.Canonical) :
    other.binaryExponent ≤ around.binaryExponent := by
  by_contra less
  have bounded := canonical.bounded
  have normal : fractionCount ≤ other.significand := by
    by_contra small
    have bottom := canonicalOther.normal (Nat.lt_of_not_le small)
    have least := canonical.least
    omega
  have double : 2 * around.quarter ≤ other.quarter := by
    unfold quarter
    rw [← zpow_one_add₀ (by norm_num : (2 : ℚ) ≠ 0)]
    exact zpow_le_zpow_right₀ (by norm_num) (by omega)
  have counts : around.upper ≤ 2 * other.lower := by
    unfold upper lower
    split <;> omega
  have doubled : around.upper * around.quarter ≤ other.lower * (2 * around.quarter) := by
    rw [← mul_assoc, mul_comm (other.lower : ℚ)]
    exact mul_le_mul_of_nonneg_right (by exact_mod_cast counts) around.quarter_pos.le
  have order := mul_le_mul_of_nonneg_left double (Nat.cast_nonneg (α := ℚ) other.lower)
  obtain ⟨even, _, equal⟩ := held.touch heldOther (doubled.trans order)
  -- The ends meet only below a power of two, where the significand is odd.
  have ends : (around.upper : ℚ) * around.quarter = (2 * other.lower) * around.quarter := by
    linarith
  have counted := mul_right_cancel₀ around.quarter_pos.ne' ends
  have exactly : around.upper = 2 * other.lower := by exact_mod_cast counted
  simp only [closed, decide_eq_true_eq] at even
  unfold upper lower at exactly
  split at exactly <;> simp only [fractionCount] at * <;> omega

/-- No rational rounds to two doubles. -/
theorem Holds.unique (held : around.Holds number) (heldOther : other.Holds number)
    (canonical : around.Canonical) (canonicalOther : other.Canonical) : around = other := by
  have exponents := le_antisymm (heldOther.binaryExponent_le held canonicalOther canonical)
    (held.binaryExponent_le heldOther canonical canonicalOther)
  have significands := le_antisymm (heldOther.le_of_binaryExponent_eq held exponents.symm)
    (held.le_of_binaryExponent_eq heldOther exponents)
  cases around
  cases other
  simp_all

end Neighbourhood

end WindowScript.Real
