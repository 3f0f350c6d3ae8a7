import Mathlib
import WindowScript.Evaluation.Builtins
import WindowScript.Proofs.Evaluation.Builtins
import WindowScript.Proofs.Number.Casts
import WindowScript.Proofs.Number.Texts
import WindowScript.Value.Equality

/-!
# Integers and reals

An integer is converted to a real only where a double has the same value, and a real to an
integer by dropping its fraction. Neither they nor the comparison of the two ever round. What a
double stands for is said here by its sign, significand and exponent, and compared with its
reading in units.
-/

set_option autoImplicit false

namespace WindowScript

open Float.Model

namespace Real

/-!
## The rational of a double
-/

/-- The rational that a double stands for. An infinite or undefined double has none. -/
def rational? (real : Float) : Option ℚ :=
  match real.toModel.unpack with
  | .zero _ => some 0
  | .finite sign significand exponent _ => some (sign.apply significand * 2 ^ exponent)
  | .infinity _ | .notANumber => none

/-- A rational without its fraction. -/
def towardZero (number : ℚ) : ℤ := if 0 ≤ number then ⌊number⌋ else ⌈number⌉

private theorem toNat_unpackMantissa (real : Float) :
    (@UnpackedFloat.unpackMantissa .binary64 real.toBits.toBitVec).toNat =
      fractionField real := by
  simp only [UnpackedFloat.unpackMantissa_def, BitVec.extractLsb'_toNat, Nat.shiftRight_zero]
  rfl

private theorem toNat_unpackExponent (real : Float) :
    (@UnpackedFloat.unpackExponent .binary64 real.toBits.toBitVec).toNat =
      exponentField real := by
  simp only [UnpackedFloat.unpackExponent_def, BitVec.extractLsb'_toNat, Nat.shiftRight_eq_div_pow]
  rfl

private theorem ofBitVec_unpackSign (real : Float) :
    UnpackedFloat.Sign.ofBitVec
        (@UnpackedFloat.unpackSign .binary64 real.toBits.toBitVec) =
      if isNegative real then .negative else .positive := by
  have place : (@UnpackedFloat.unpackSign .binary64 real.toBits.toBitVec).toNat =
      real.toBits.toNat / signPlace := by
    have bound := real.toBits.toNat_lt
    simp only [UnpackedFloat.unpackSign_def, BitVec.extractLsb'_toNat, Nat.shiftRight_eq_div_pow]
    change real.toBits.toNat / 2 ^ 63 % 2 ^ 1 = real.toBits.toNat / 2 ^ 63
    omega
  unfold UnpackedFloat.Sign.ofBitVec isNegative signPlace at *
  by_cases negative : 9223372036854775808 ≤ real.toBits.toNat
  · rw [if_neg, if_pos (decide_eq_true negative)]
    intro zero
    rw [zero, BitVec.toNat_zero] at place
    omega
  · rw [if_pos, if_neg (by simpa using negative)]
    apply BitVec.eq_of_toNat_eq
    rw [place, BitVec.toNat_zero]
    omega

private theorem toNat_append_one (fraction : BitVec 52) :
    (1#1 ++ fraction).toNat = fractionCount + fraction.toNat := by
  change 2 ^ 52 ||| fraction.toNat = _
  rw [Nat.or_comm, Nat.or_two_pow_eq_add_of_lt fraction.isLt, Nat.add_comm]
  rfl

/-- The significand of a double with the sign of the double. -/
def signed (real : Float) : ℤ := if isNegative real then -significand real else significand real

private theorem apply_sign (real : Float) :
    (if isNegative real then UnpackedFloat.Sign.negative else .positive).apply (significand real) =
      signed real := by
  unfold signed
  cases isNegative real
  · rfl
  · rfl

/-- A finite double stands for its significand, doubled as often as its place says. -/
theorem rational?_eq_of_fields (real : Float) :
    rational? real =
      if exponentField real = exponentCount - 1 then none
      else some ((signed real : ℚ) * 2 ^ ((doublings real : ℤ) - 1074)) := by
  have sign := ofBitVec_unpackSign real
  have fraction := toNat_unpackMantissa real
  have exponent := toNat_unpackExponent real
  have last : @UnpackedFloat.unpackExponent .binary64 real.toBits.toBitVec = -1#11 ↔
      exponentField real = exponentCount - 1 := by
    rw [← exponent, ← BitVec.toNat_inj]
    rfl
  have first : @UnpackedFloat.unpackExponent .binary64 real.toBits.toBitVec = 0#11 ↔
      exponentField real = 0 := by
    rw [← exponent, ← BitVec.toNat_inj]
    rfl
  have whole : @UnpackedFloat.unpackMantissa .binary64 real.toBits.toBitVec = 0#52 ↔
      fractionField real = 0 := by
    rw [← fraction, ← BitVec.toNat_inj]
    rfl
  have implicit := toNat_append_one
    (@UnpackedFloat.unpackMantissa .binary64 real.toBits.toBitVec)
  rw [fraction] at implicit
  have applied := apply_sign real
  have least : (Format.binary64.exponentBias : ℤ) + (52 : Nat) = 1075 := rfl
  unfold rational? Float.Model.unpack UnpackedFloat.unpack
  simp only [show real.toModel.toBits = real.toBits from rfl, last, first, whole, sign, fraction,
    exponent, implicit]
  by_cases infinite : exponentField real = exponentCount - 1
  · rw [if_pos infinite, if_pos infinite]
    by_cases empty : fractionField real = 0
    · rw [if_pos empty]
    · rw [if_neg empty]
  · rw [if_neg infinite, if_neg infinite]
    rcases significand_cases real with ⟨bottom, fractional⟩ | ⟨above, implied⟩
    · rw [if_pos bottom]
      rw [fractional] at applied
      have place : (exponentField real : ℤ) - 1075 + 1 = (doublings real : ℤ) - 1074 := by
        rw [doublings]
        omega
      by_cases zero : fractionField real = 0
      · rw [dif_pos zero, signed, fractional, zero]
        simp
      · rw [dif_neg zero]
        simp only [applied, least, place]
    · rw [if_neg above]
      rw [implied] at applied
      have place : (exponentField real : ℤ) - 1075 = (doublings real : ℤ) - 1074 := by
        rw [doublings]
        omega
      simp only [applied, least, place]

/-- The reading of a double is the rational it stands for, counted in units. -/
theorem rational?_eq (real : Float) :
    rational? real =
      match reading real with
      | .units count => some ((count : ℚ) / unitsPerOne)
      | _ => none := by
  rw [rational?_eq_of_fields, reading]
  by_cases infinite : exponentField real = exponentCount - 1
  · rw [if_pos infinite, if_pos infinite]
    by_cases empty : fractionField real = 0
    · rw [if_pos empty]
    · rw [if_neg empty]
  · rw [if_neg infinite, if_neg infinite]
    have count : (if isNegative real then -((significand real * twoTo (doublings real) : Nat) : ℤ)
        else (significand real * twoTo (doublings real) : Nat)) =
        signed real * twoTo (doublings real) := by
      unfold signed
      split <;> push_cast <;> ring
    simp only [count]
    rw [unitsPerOne, Int.cast_mul, Int.cast_natCast, Int.cast_natCast, cast_twoTo, cast_twoTo,
      zpow_sub₀ two_ne_zero, zpow_natCast, zpow_ofNat, mul_div_assoc]

/-- A double stands for an integer exactly when its units are as many as those of the integer. -/
theorem rational?_eq_some_intCast_iff {real : Float} {integer : ℤ} :
    rational? real = some (integer : ℚ) ↔ reading real = .units (integer * unitsPerOne) := by
  rw [rational?_eq]
  cases reading real with
  | units count =>
      rw [Option.some.injEq, div_eq_iff (Int.cast_pos.mpr unitsPerOne_pos).ne', ← Int.cast_mul,
        Int.cast_inj, Reading.units.injEq]
  | _ => simp

private theorem equalsInteger_iff {integer : Integer} {real : Float} :
    equalsInteger integer real = true ↔ rational? real = some (integer.toInt : ℚ) := by
  rw [rational?_eq_some_intCast_iff, equalsInteger_iff_reading]

/-- Dropping the remainder of a division drops the fraction of the quotient. -/
theorem towardZero_div (count : ℤ) (parts : Nat) :
    towardZero ((count : ℚ) / parts) = count.tdiv parts := by
  unfold towardZero
  rcases Nat.eq_zero_or_pos parts with rfl | positive
  · simp
  · rw [Rat.floor_intCast_div_natCast, Rat.ceil_intCast_div_natCast]
    have places : (0 : ℚ) < parts := Nat.cast_pos.mpr positive
    by_cases nonnegative : 0 ≤ count
    · rw [if_pos (div_nonneg (Int.cast_nonneg nonnegative) places.le),
        Int.tdiv_eq_ediv_of_nonneg nonnegative]
    · have below : count < 0 := not_le.mp nonnegative
      rw [if_neg (not_le.mpr (div_neg_of_neg_of_pos (Int.cast_lt_zero.mpr below) places)),
        ← Int.tdiv_eq_ediv_of_nonneg (by omega), Int.neg_tdiv, neg_neg]

/-!
## From integers to reals
-/

/-- The bits of a double, when they are not those of an undefined or infinite one. -/
theorem toBits_ofBits (bits : UInt64)
    (finite : bits.toNat / fractionCount % exponentCount ≠ exponentCount - 1) :
    (Float.ofBits bits).toBits = bits := by
  have packed : (Float.ofBits bits).toBits = UInt64.ofBitVec (UnpackedFloat.pack .binary64
      (UnpackedFloat.unpack .binary64 bits.toBitVec)) := rfl
  rw [packed, UnpackedFloat.pack_unpack_of_valid ⟨fun last => absurd ?_ finite⟩]
  rw [← BitVec.toNat_inj, UnpackedFloat.unpackExponent_def, BitVec.extractLsb'_toNat,
    Nat.shiftRight_eq_div_pow] at last
  exact last

private theorem log2_le {magnitude : Nat} (fits : magnitude ≤ greatestExact) :
    magnitude.log2 ≤ 52 := by
  rcases Nat.eq_zero_or_pos magnitude with rfl | positive
  · decide
  · have below : magnitude.log2 < 53 := by
      rw [Nat.log2_lt positive.ne']
      exact fits.trans_lt (by decide)
    omega

private theorem twoTo_add (first second : Nat) :
    twoTo (first + second) = twoTo first * twoTo second :=
  Nat.pow_add 2 first second

/-- A whole number that fits, doubled until its first digit is in the place of the whole one. -/
theorem shifted_bounds {magnitude : Nat} (positive : 0 < magnitude)
    (fits : magnitude ≤ greatestExact) :
    fractionCount ≤ magnitude * twoTo (52 - magnitude.log2) ∧
      magnitude * twoTo (52 - magnitude.log2) < 2 * fractionCount := by
  have places := log2_le fits
  have least := Nat.log2_self_le positive.ne'
  have most := Nat.lt_log2_self (n := magnitude)
  have doubled : (0 : Nat) < 2 ^ (52 - magnitude.log2) := Nat.two_pow_pos _
  have split : 2 ^ magnitude.log2 * 2 ^ (52 - magnitude.log2) = fractionCount := by
    rw [← Nat.pow_add, Nat.add_sub_cancel' places]
    rfl
  change fractionCount ≤ magnitude * 2 ^ (52 - magnitude.log2) ∧
    magnitude * 2 ^ (52 - magnitude.log2) < 2 * fractionCount
  constructor
  · rw [← split]
    exact Nat.mul_le_mul_right _ least
  · rw [← split, ← Nat.mul_assoc, ← Nat.pow_succ']
    exact Nat.mul_lt_mul_of_pos_right most doubled

/-- A positive whole number that fits lies, after so many doublings, right above its place. -/
theorem wholeBits_eq {magnitude : Nat} (positive : 0 < magnitude)
    (fits : magnitude ≤ greatestExact) :
    wholeBits magnitude =
      (1022 + magnitude.log2) * fractionCount + magnitude * twoTo (52 - magnitude.log2) := by
  have halvings : twoTo (magnitude.log2 - 52) = 1 := by
    rw [Nat.sub_eq_zero_of_le (log2_le fits)]
    rfl
  rw [wholeBits, if_neg positive.ne', halvings, Nat.div_one]

/-- A whole number that fits is a double already. -/
theorem rounded_eq {magnitude : Nat} (fits : magnitude ≤ greatestExact) :
    rounded magnitude = magnitude := by
  have spacing : twoTo (magnitude.log2 - 52) = 1 := by
    rw [Nat.sub_eq_zero_of_le (log2_le fits)]
    rfl
  simp [rounded, spacing, Nat.mod_one]

private theorem wholeBits_lt {magnitude : Nat} (fits : magnitude ≤ greatestExact) :
    wholeBits magnitude < signPlace := by
  rcases Nat.eq_zero_or_pos magnitude with rfl | positive
  · decide
  · rw [wholeBits_eq positive fits]
    have places := log2_le fits
    have most := (shifted_bounds positive fits).2
    unfold fractionCount signPlace at *
    omega

/-- The bits of the double that a whole number becomes, below its sign. -/
theorem wholeBits_fields {magnitude : Nat} (positive : 0 < magnitude)
    (fits : magnitude ≤ greatestExact) :
    wholeBits magnitude / fractionCount % exponentCount = 1023 + magnitude.log2 ∧
      fractionCount + wholeBits magnitude % fractionCount =
        magnitude * twoTo (52 - magnitude.log2) := by
  have places := log2_le fits
  obtain ⟨least, most⟩ := shifted_bounds positive fits
  rw [wholeBits_eq positive fits]
  generalize magnitude * twoTo (52 - magnitude.log2) = shifted at *
  unfold fractionCount exponentCount at *
  omega

/-- The exponent of the double that a whole number becomes is not the one of an infinity. -/
theorem wholeBits_exponent_lt {magnitude : Nat} (fits : magnitude ≤ greatestExact) :
    wholeBits magnitude / fractionCount % exponentCount < exponentCount - 1 := by
  rcases Nat.eq_zero_or_pos magnitude with rfl | positive
  · decide
  · have places := log2_le fits
    rw [(wholeBits_fields positive fits).1]
    unfold exponentCount
    omega

/-- A double with the bits of a whole number, whatever its sign, has as many units. -/
theorem magnitude_eq {real : Float} {magnitude : Nat} (fits : magnitude ≤ greatestExact)
    (exponent : exponentField real = wholeBits magnitude / fractionCount % exponentCount)
    (fraction : fractionField real = wholeBits magnitude % fractionCount) :
    significand real * twoTo (doublings real) = magnitude * twoTo 1074 := by
  rcases Nat.eq_zero_or_pos magnitude with rfl | positive
  · have empty : significand real = 0 := by
      have bottom : exponentField real = 0 := exponent
      rw [significand, if_pos bottom, fraction]
      rfl
    rw [empty, Nat.zero_mul, Nat.zero_mul]
  · obtain ⟨place, shifted⟩ := wholeBits_fields positive fits
    rw [← exponent] at place
    rw [← fraction] at shifted
    have places := log2_le fits
    rw [significand, if_neg (by omega), shifted, doublings, place, Nat.mul_assoc, ← twoTo_add]
    congr 2
    omega

private theorem reading_ofBits {sign magnitude : Nat} (fits : magnitude ≤ greatestExact)
    (signed : sign = 0 ∨ sign = signPlace) :
    reading (Float.ofBits (UInt64.ofNat (sign + wholeBits magnitude))) =
      .units ((if sign = 0 then (magnitude : ℤ) else -magnitude) * unitsPerOne) := by
  have small := wholeBits_lt fits
  have finite := wholeBits_exponent_lt fits
  have kept : (UInt64.ofNat (sign + wholeBits magnitude)).toNat = sign + wholeBits magnitude := by
    rw [UInt64.toNat_ofNat']
    unfold signPlace at *
    omega
  have aside : (sign + wholeBits magnitude) / fractionCount % exponentCount =
        wholeBits magnitude / fractionCount % exponentCount ∧
      (sign + wholeBits magnitude) % fractionCount = wholeBits magnitude % fractionCount := by
    unfold signPlace fractionCount exponentCount at *
    omega
  have bits := toBits_ofBits (UInt64.ofNat (sign + wholeBits magnitude))
    (by rw [kept, aside.1]; exact finite.ne)
  generalize Float.ofBits (UInt64.ofNat (sign + wholeBits magnitude)) = real at *
  rw [← bits] at kept
  have exponent : exponentField real = wholeBits magnitude / fractionCount % exponentCount := by
    rw [exponentField, kept, aside.1]
  have fraction : fractionField real = wholeBits magnitude % fractionCount := by
    rw [fractionField, kept, aside.2]
  have negative : isNegative real = decide (sign ≠ 0) := by
    rw [isNegative, kept]
    unfold signPlace at *
    apply decide_eq_decide.mpr
    omega
  have count : ((magnitude * twoTo 1074 : Nat) : ℤ) = magnitude * unitsPerOne := Nat.cast_mul _ _
  rw [reading, if_neg (by rw [exponent]; exact finite.ne), magnitude_eq fits exponent fraction,
    negative]
  simp only [count]
  by_cases plus : sign = 0
  · rw [if_neg (by simp [plus]), if_pos plus]
  · rw [if_pos (by simp [plus]), if_neg plus, Int.neg_mul]

/-- An integer becomes a real exactly when it is of at most 53 digits, and then the real stands
for the integer. -/
theorem ofInteger?_eq (integer : Integer) :
    (∃ real, ofInteger? integer = some real ∧ rational? real = some (integer.toInt : ℚ)) ∧
        integer.toInt.natAbs ≤ greatestExact ∨
      ofInteger? integer = none ∧ greatestExact < integer.toInt.natAbs := by
  unfold ofInteger?
  by_cases fits : integer.toInt.natAbs ≤ greatestExact
  · left
    refine ⟨⟨_, if_neg (not_lt.mpr fits), ?_⟩, fits⟩
    rw [rational?_eq_some_intCast_iff, ofInteger, rounded_eq fits,
      reading_ofBits fits (by split <;> simp)]
    by_cases negative : integer.toInt < 0
    · rw [if_pos negative, if_neg (by decide)]
      congr 2
      omega
    · rw [if_neg negative, if_pos rfl]
      congr 2
      omega
  · exact .inr ⟨if_pos (not_le.mp fits), not_le.mp fits⟩

/-!
## From reals to integers
-/

/-- A double becomes its rational without the fraction, where that is an integer. -/
theorem truncate_eq (real : Float) :
    truncate real =
      match rational? real with
      | some number =>
          match Integer.ofInt? (towardZero number) with
          | some integer => .ok integer
          | none => .error .outOfRange
      | none => .error .notFinite := by
  rw [truncate_eq_of_reading, rational?_eq]
  cases reading real with
  | units count =>
      have parts := towardZero_div count (twoTo 1074)
      rw [← Int.cast_natCast] at parts
      cases held : Integer.ofInt? (count.tdiv (twoTo 1074)) with
      | some integer => simp only [unitsPerOne, parts, held]
      | none => simp only [unitsPerOne, parts, held]
  | undefined => rfl
  | infinite negative => rfl

end Real

/-!
## The conversions of the language
-/

/-- A double becomes its rational without the fraction where that is an integer of the language,
overflows where it is not, and is refused where it has no rational. -/
theorem Builtin.integerPart_eq (real : Float) :
    match Real.rational? real with
    | some number =>
        if -2 ^ 63 ≤ Real.towardZero number ∧ Real.towardZero number < 2 ^ 63 then
          ∃ integer : Integer, integer.toInt = Real.towardZero number ∧
            Builtin.integerPart real = .ok (.integer integer)
        else Builtin.integerPart real = .error .overflow
    | none => Builtin.integerPart real = .error (.invalidArgument (.noIntegerPart real)) := by
  rw [Builtin.integerPart, Real.truncate_eq]
  cases Real.rational? real with
  | none => rfl
  | some number =>
      cases held : Integer.ofInt? (Real.towardZero number) with
      | some integer =>
          have value := Integer.ofInt?_eq_some_iff.mp held
          have atLeast := integer.le_toInt
          have below := integer.toInt_lt
          simp only [held]
          rw [if_pos (by omega)]
          exact ⟨integer, value, rfl⟩
      | none =>
          have outside := Integer.ofInt?_eq_none_iff.mp held
          unfold Integer.least Integer.greatest at outside
          simp only [held]
          rw [if_neg (by omega)]
          trivial

/-- What becomes of an integer, and of a double that stands for it. -/
theorem Builtin.integerPart_of_rational? {integer : Integer} {real : Float}
    (same : Real.rational? real = some (integer.toInt : ℚ)) :
    Builtin.integerPart real = .ok (.integer integer) := by
  have whole : Real.towardZero (integer.toInt : ℚ) = integer.toInt := by
    rw [Real.towardZero, Int.floor_intCast, Int.ceil_intCast, ite_self]
  rw [Builtin.integerPart, Real.truncate_eq, same]
  simp only [whole, Integer.ofInt?_eq_some_iff.mpr rfl]

/-- An integer becomes the real that stands for it, or overflows. -/
theorem Value.toReal_integer (integer : Integer) :
    (∃ real, (Value.integer integer).toReal = .ok real ∧
        Real.rational? real = some (integer.toInt : ℚ)) ∧
        integer.toInt.natAbs ≤ Real.greatestExact ∨
      (Value.integer integer).toReal = .error .overflow ∧
        Real.greatestExact < integer.toInt.natAbs := by
  rcases Real.ofInteger?_eq integer with ⟨⟨real, converted, same⟩, fits⟩ | ⟨refused, beyond⟩
  · exact .inl ⟨⟨real, by rw [Value.toReal, converted], same⟩, fits⟩
  · exact .inr ⟨by rw [Value.toReal, refused], beyond⟩

/-- An integer becomes a real exactly where its magnitude is below 2 ^ 53; the real stands for the
integer, equals it on either side and becomes it again, and any other integer overflows. An integer
equals just the reals that stand for it. A real becomes its rational without the fraction, where
that is in the range of integers; it overflows where it is not, and an undefined or infinite one is
refused. -/
theorem conversions_exact (host : Host) (position : Position) (history : History) :
    (∀ integer : Integer,
      if integer.toInt.natAbs ≤ 2 ^ 53 - 1 then
        ∃ real, (Value.integer integer).toReal = .ok real ∧
          Real.rational? real = some (integer.toInt : ℚ) ∧
          (Builtin.float.call host [.integer integer] position).run history =
            (.ok (.real real), history) ∧
          Operator.equal.apply (.integer integer) (.real real) = .ok (.boolean true) ∧
          Operator.equal.apply (.real real) (.integer integer) = .ok (.boolean true) ∧
          (Builtin.int.call host [.real real] position).run history =
            (.ok (.integer integer), history)
      else
        (Value.integer integer).toReal = .error .overflow ∧
          (Builtin.float.call host [.integer integer] position).run history =
            (.error ⟨.overflow, position⟩, history)) ∧
    (∀ (integer : Integer) (real : Float),
      Real.equalsInteger integer real = true ↔
        Real.rational? real = some (integer.toInt : ℚ)) ∧
    ∀ real : Float,
      (Builtin.int.call host [.real real] position).run history =
          ((Builtin.integerPart real).mapError (⟨·, position⟩), history) ∧
      match Real.rational? real with
      | some number =>
          if -2 ^ 63 ≤ Real.towardZero number ∧ Real.towardZero number < 2 ^ 63 then
            ∃ integer : Integer, integer.toInt = Real.towardZero number ∧
              Builtin.integerPart real = .ok (.integer integer)
          else Builtin.integerPart real = .error .overflow
      | none => Builtin.integerPart real = .error (.invalidArgument (.noIntegerPart real)) := by
  have floated (integer : Integer) :
      (Builtin.float.call host [.integer integer] position).run history =
        (((Value.integer integer).toReal.map Value.real).mapError (⟨·, position⟩), history) :=
    Fallible.run_place position _ history
  have truncated (real : Float) :
      (Builtin.int.call host [.real real] position).run history =
        ((Builtin.integerPart real).mapError (⟨·, position⟩), history) :=
    Fallible.run_place position _ history
  refine ⟨fun integer => ?_, fun _ _ => Real.equalsInteger_iff,
    fun real => ⟨truncated real, Builtin.integerPart_eq real⟩⟩
  have limit : Real.greatestExact = 2 ^ 53 - 1 := rfl
  rw [← limit]
  rcases Value.toReal_integer integer with ⟨⟨real, converted, same⟩, fits⟩ | ⟨refused, beyond⟩
  · have equal := Real.equalsInteger_iff.mpr same
    rw [if_pos fits]
    refine ⟨real, converted, same, ?_, ?_, ?_, ?_⟩
    · rw [floated, converted]
      rfl
    · rw [Operator.apply, Value.equals, equal]
    · rw [Operator.apply, Value.equals, equal]
    · rw [truncated, Builtin.integerPart_of_rational? same]
      rfl
  · rw [if_neg (not_le.mpr beyond)]
    refine ⟨refused, ?_⟩
    rw [floated, refused]
    rfl

end WindowScript
