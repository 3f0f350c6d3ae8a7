import Mathlib.Data.List.TakeWhile
import WindowScript.Evaluation.Builtins
import WindowScript.Proofs.Number.Texts
import WindowScript.Proofs.Token.Arrangement

/-!
# The texts of integers

The text of an integer is its decimal numeral. Both readers of numerals take it back to the
integer: the conversion of texts, which allows a sign and white space around it, and the lexer,
which allows neither. They measure a numeral by its value, so leading zeros never matter.
-/

set_option autoImplicit false

namespace WindowScript

/-!
## White space around a text
-/

namespace Text

/-- Trimming drops what is blank around characters none of which is. -/
theorem trimBlank_around {before middle behind : List Char}
    (leading : ∀ character ∈ before, isBlank character = true)
    (solid : ∀ character ∈ middle, isBlank character = false)
    (trailing : ∀ character ∈ behind, isBlank character = true) :
    trimBlank (before ++ middle ++ behind) = middle := by
  have kept (rest : List Char) (shown : ∀ character ∈ rest, isBlank character = false) :
      rest.dropWhile isBlank = rest := by
    cases rest with
    | nil => rfl
    | cons first more =>
        rw [List.dropWhile_cons_of_neg]
        simp [shown first List.mem_cons_self]
  unfold trimBlank
  rw [List.append_assoc, List.dropWhile_append_of_pos leading]
  cases middle with
  | nil =>
      have nothing : behind.dropWhile isBlank = [] := List.dropWhile_eq_nil_iff.mpr trailing
      rw [List.nil_append, nothing]
      rfl
  | cons first more =>
      have stop : ¬ isBlank first = true := by simp [solid first List.mem_cons_self]
      rw [List.cons_append, List.dropWhile_cons_of_neg stop, ← List.cons_append,
        List.reverse_append, List.dropWhile_append_of_pos (by simpa using trailing),
        kept _ (by simpa [or_imp, forall_and, and_comm] using solid), List.reverse_reverse]

end Text

/-!
## The conversion of texts
-/

namespace Numeral

private theorem isBlank_eq_false {character : Char} (digit : character.isDigit = true) :
    Text.isBlank character = false := by
  have bounds : 48 ≤ character.toNat ∧ character.toNat ≤ 57 := Char.isDigit_iff_toNat.mp digit
  unfold Text.isBlank
  simp only [Bool.or_eq_false_iff, Bool.and_eq_false_iff, decide_eq_false_iff_not,
    beq_eq_false_iff_ne]
  omega

private theorem isNumeral_of_digits {digits : List Char} (nonempty : digits ≠ [])
    (all : Real.Digits digits) : readInteger?.isNumeral digits = true := by
  have digital : digits.all isDigit = true := List.all_eq_true.mpr all
  rw [readInteger?.isNumeral, List.isEmpty_eq_false_iff.mpr nonempty, digital]
  rfl

private theorem readInteger?_minus {digits : List Char} (nonempty : digits ≠ [])
    (all : Real.Digits digits) :
    readInteger? ('-' :: digits) = Integer.ofInt? (-(value digits : Int)) :=
  if_pos (isNumeral_of_digits nonempty all)

private theorem readInteger?_digits {digits : List Char} (nonempty : digits ≠ [])
    (all : Real.Digits digits) : readInteger? digits = Integer.ofInt? (value digits) := by
  unfold readInteger?
  split
  · exact absurd rfl (all.ne (by decide) '-' List.mem_cons_self)
  · exact absurd rfl (all.ne (by decide) '+' List.mem_cons_self)
  · exact if_pos (isNumeral_of_digits nonempty all)

end Numeral

namespace Integer

/-- The text of an integer is its decimal numeral, behind a minus sign if it is negative. -/
theorem text_eq (value : Integer) : text value = toString value.toInt := by
  rw [← String.toList_inj, Int.toString_eq_repr, Int.repr_eq_if, text, String.toList_ofList]
  by_cases negative : value.toInt < 0
  · have magnitude : value.toInt.natAbs = (-value.toInt).toNat := by omega
    rw [if_pos negative, if_neg (by omega), String.toList_append, Nat.toList_repr, magnitude]
    rfl
  · have magnitude : value.toInt.natAbs = value.toInt.toNat := by omega
    rw [if_neg negative, if_pos (by omega), Nat.toList_repr, magnitude]

/-- The conversion of texts takes the text of an integer back to the integer. -/
theorem readInteger?_text (value : Integer) :
    Numeral.readInteger? (text value).toList = some value := by
  have nonempty : Nat.toDigits 10 value.toInt.natAbs ≠ [] := Nat.toDigits_ne_nil
  have all := Real.digits_toDigits value.toInt.natAbs
  rw [text, String.toList_ofList]
  by_cases negative : value.toInt < 0
  · rw [if_pos negative, Numeral.readInteger?_minus nonempty all, Real.value_toDigits]
    exact ofInt?_eq_some_iff.mpr (by omega)
  · rw [if_neg negative, Numeral.readInteger?_digits nonempty all, Real.value_toDigits]
    exact ofInt?_eq_some_iff.mpr (by omega)

private theorem isBlank_text (value : Integer) :
    ∀ character ∈ (text value).toList, Text.isBlank character = false := by
  have digits (character : Char) (member : character ∈ Nat.toDigits 10 value.toInt.natAbs) :
      Text.isBlank character = false :=
    Numeral.isBlank_eq_false (Real.digits_toDigits _ character member)
  rw [text, String.toList_ofList]
  split
  · exact List.forall_mem_cons.mpr ⟨by decide, digits⟩
  · exact digits

end Integer

/-!
## The lexer
-/

namespace Lexer

private theorem Spells.longest_self {characters : List Char} {reading : Except LexCause Token}
    (spells : Spells characters reading) : Longest characters characters where
  leads := List.prefix_rfl
  matched := ⟨reading, spells⟩
  longest := fun _ leads _ => leads.length_le

/-- A text that is one lexeme. -/
theorem Spells.tokenize_eq_ok {characters : List Char} {token : Token}
    (spells : Spells characters (.ok token)) :
    tokenize (String.ofList characters) =
      .ok [(token, .behind []), (.endOfInput, .behind characters)] := by
  refine tokenize_eq_ok_iff.mpr ⟨[⟨[], characters, token⟩], ?_, ?_⟩
  · rw [String.toList_ofList]
    exact .lexeme (List.append_nil _).symm spells.longest_self spells .stop
  · rw [String.toList_ofList]
    rfl

private theorem Spells.tokenize_eq_error {characters : List Char} {cause : LexCause}
    (spells : Spells characters (.error cause)) :
    tokenize (String.ofList characters) = .error ⟨cause, .behind []⟩ := by
  refine tokenize_eq_error_iff.mpr ⟨[], [], characters, ?_, .faulty spells.longest_self spells, rfl⟩
  rw [String.toList_ofList]
  exact .stop

end Lexer

private theorem Position.behind_digits {digits : List Char} (all : Real.Digits digits) :
    Position.behind digits = ⟨1, 1 + digits.length⟩ := by
  have unbroken := all.ne (show '\n'.isDigit = false by decide)
  unfold Position.behind
  rw [List.count_eq_zero.mpr fun member => unbroken _ member rfl,
    List.takeWhile_eq_self_iff.mpr (by simpa using unbroken), List.length_reverse]

/-- Digits alone are an integer, unless their value is too great for one. -/
theorem tokenize_digits {digits : List Char} (nonempty : digits ≠ []) (all : Real.Digits digits) :
    tokenize (String.ofList digits) =
      match Integer.ofInt? (Numeral.value digits) with
      | some integer => .ok [(.integer integer, ⟨1, 1⟩), (.endOfInput, ⟨1, 1 + digits.length⟩)]
      | none => .error ⟨.integerTooLarge (String.ofList digits), ⟨1, 1⟩⟩ := by
  cases held : Integer.ofInt? (Numeral.value digits) with
  | some integer =>
      have spells := Lexer.Spells.integer nonempty all (Integer.ofInt?_eq_some_iff.mp held)
      rw [spells.tokenize_eq_ok, Position.behind_digits all]
      rfl
  | none =>
      have outside := Integer.ofInt?_eq_none_iff.mp held
      have large : Integer.greatest < Numeral.value digits := by
        unfold Integer.least at outside
        omega
      exact (Lexer.Spells.hugeInteger nonempty all large).tokenize_eq_error

/-- The text of an integer is its decimal numeral, and the conversion of texts takes it back to the
integer, whatever white space is around it. The lexer reads the numeral of an integer that is not
negative as the integer, behind any number of zeros. It reads any digits at all as the integer of
their decimal value, and refuses them as a whole exactly when that value is 2 ^ 63 or more. -/
theorem integer_texts_round_trip (host : Host) (position : Position) (history : History) :
    (∀ integer : Integer,
      (Builtin.str.call host [.integer integer] position).run history =
          (.ok (.text (toString integer.toInt)), history) ∧
        ∀ before behind : List Char,
          (∀ character ∈ before ++ behind, Text.isBlank character = true) →
          (Builtin.int.call host
              [.text (String.ofList (before ++ (toString integer.toInt).toList ++ behind))]
              position).run history =
            (.ok (.integer integer), history)) ∧
    (∀ integer : Integer, 0 ≤ integer.toInt → ∀ zeros : Nat,
      let numeral := List.replicate zeros '0' ++ (toString integer.toInt).toList
      tokenize (String.ofList numeral) =
        .ok [(.integer integer, ⟨1, 1⟩), (.endOfInput, ⟨1, 1 + numeral.length⟩)]) ∧
    ∀ digits : List Char, digits ≠ [] → (∀ digit ∈ digits, digit.isDigit = true) →
      if Nat.ofDigitChars 10 digits 0 ≤ 2 ^ 63 - 1 then
        ∃ integer : Integer, integer.toInt = Nat.ofDigitChars 10 digits 0 ∧
          tokenize (String.ofList digits) =
            .ok [(.integer integer, ⟨1, 1⟩), (.endOfInput, ⟨1, 1 + digits.length⟩)]
      else
        tokenize (String.ofList digits) =
          .error ⟨.integerTooLarge (String.ofList digits), ⟨1, 1⟩⟩ := by
  refine ⟨fun integer => ⟨?_, fun before behind blank => ?_⟩, fun integer nonnegative zeros => ?_,
    fun digits nonempty all => ?_⟩
  · rw [← Integer.text_eq]
    rfl
  · have trimmed := Text.trimBlank_around (List.forall_mem_append.mp blank).1
      (Integer.isBlank_text integer) (List.forall_mem_append.mp blank).2
    have converted : Builtin.toInteger
        (.text (String.ofList (before ++ (Integer.text integer).toList ++ behind))) =
          .ok (.integer integer) := by
      rw [Builtin.toInteger, String.toList_ofList, trimmed, Integer.readInteger?_text]
    rw [← Integer.text_eq]
    change (Fallible.place position (Builtin.toInteger _)).run history = _
    rw [converted]
    rfl
  · intro numeral
    have nonempty : numeral ≠ [] := by
      refine List.append_ne_nil_of_right_ne_nil _ ?_
      rw [← Integer.text_eq, Integer.toList_text nonnegative]
      exact Nat.toDigits_ne_nil
    have all : Real.Digits numeral := Real.digits_append.mpr
      ⟨Real.digits_replicate zeros, Integer.text_eq integer ▸ Integer.digits_text nonnegative⟩
    have value : (Numeral.value numeral : Int) = integer.toInt := by
      rw [Real.value_append, Real.value_replicate, ← Integer.text_eq, Nat.zero_mul, Nat.zero_add,
        Integer.value_text nonnegative]
    rw [tokenize_digits nonempty all, Integer.ofInt?_eq_some_iff.mpr value.symm]
  · have value : Nat.ofDigitChars 10 digits 0 = Numeral.value digits := rfl
    rw [tokenize_digits nonempty all, value]
    cases held : Integer.ofInt? (Numeral.value digits) with
    | some integer =>
        have same := Integer.ofInt?_eq_some_iff.mp held
        have below := integer.toInt_lt
        rw [if_pos (by omega)]
        exact ⟨integer, same, rfl⟩
    | none =>
        have outside := Integer.ofInt?_eq_none_iff.mp held
        unfold Integer.least Integer.greatest at outside
        rw [if_neg (by omega)]

/-- The least integer with white space around its text, zeros in front of a numeral, and the
first value that is too great behind a zero. -/
theorem integer_texts_round_trip_limits :
    (∀ character ∈ ['\t'] ++ ['\u3000'], Text.isBlank character = true) ∧
      (Builtin.int.call ⟨fun _ _ => none, fun _ _ => .error ""⟩
          [.text "\t-9223372036854775808\u3000"] ⟨1, 1⟩).run [] =
        (.ok (.integer (Int64.ofInt (-9223372036854775808))), []) ∧
      0 ≤ (7 : Integer).toInt ∧
      tokenize "007" = .ok [(.integer 7, ⟨1, 1⟩), (.endOfInput, ⟨1, 4⟩)] ∧
      "09223372036854775808".toList ≠ [] ∧
      (∀ digit ∈ "09223372036854775808".toList, digit.isDigit = true) ∧
      tokenize "09223372036854775808" =
        .error ⟨.integerTooLarge "09223372036854775808", ⟨1, 1⟩⟩ := by
  obtain ⟨texts, numerals, digits⟩ := integer_texts_round_trip
    ⟨fun _ _ => none, fun _ _ => .error ""⟩ ⟨1, 1⟩ []
  have blank : ∀ character ∈ ['\t'] ++ ['\u3000'], Text.isBlank character = true :=
    List.all_eq_true.mp (by decide)
  have least := (texts (Int64.ofInt (-9223372036854775808))).2 _ _ blank
  have written : String.ofList (['\t'] ++
      (toString (Int64.ofInt (-9223372036854775808)).toInt).toList ++ ['\u3000']) =
      "\t-9223372036854775808\u3000" := by
    decide +kernel
  rw [written] at least
  have seven := numerals 7 (by decide) 2
  have numeral : List.replicate 2 '0' ++ (toString (7 : Integer).toInt).toList =
      ['0', '0', '7'] := by
    decide +kernel
  simp only [numeral] at seven
  have all : ∀ digit ∈ "09223372036854775808".toList, digit.isDigit = true :=
    List.all_eq_true.mp (by decide +kernel)
  have large := digits _ (by decide) all
  rw [if_neg (by decide +kernel), String.ofList_toList] at large
  exact ⟨blank, least, by decide, seven, by decide, all, large⟩

end WindowScript
