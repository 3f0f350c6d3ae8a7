import Mathlib.Algebra.Group.Nat.Defs
import WindowScript.Evaluation.Operators

/-!
# Repetition

Texts and lists are repeated on either side of the product. The limit is on the length of what
comes of it. Where a machine word cannot hold that length the limit is passed as well, so that no
count and no length is large enough to slip past it. What is empty can be repeated without end.
-/

set_option autoImplicit false

namespace WindowScript

/-- The length of a text in bytes or of a list in items. No other value has one. -/
def Value.size? : Value → Option Nat
  | .text value => some value.utf8ByteSize
  | .list items => some items.length
  | _ => none

/-- Copies of a text or list, one behind the other. -/
def Value.copies (count : Nat) : Value → Value
  | .text value => .text (String.join (List.replicate count value))
  | .list items => .list (List.replicate count items).flatten
  | other => other

/-- The length of copies is compared with the limit as a number of any size. -/
theorem repeatedLength?_any_le {length copies : Nat} :
    (repeatedLength? length copies).any (· ≤ maxRepeatedLength) = true ↔
      length * copies ≤ maxRepeatedLength := by
  have below : maxRepeatedLength < wordRange := by decide
  unfold repeatedLength?
  split
  · exact decide_eq_true_iff
  · next beyond => exact ⟨nofun, fun within => absurd (Nat.lt_of_le_of_lt within below) beyond⟩

private theorem repetitions_eq_ok {length copies : Nat} {count : Integer}
    (ran : repetitions length count = .ok copies) :
    copies = count.toInt.toNat ∨ length = 0 ∧ copies = 0 := by
  unfold repetitions at ran
  split at ran
  · next short =>
      cases ran
      rcases short with empty | negative
      · exact .inr ⟨empty, rfl⟩
      · exact .inl (by omega)
  · split at ran
    · cases ran
      exact .inl rfl
    · cases ran

/-- A repetition is refused exactly when it would be longer than the limit. -/
theorem repetitions_eq_error_iff {length : Nat} {count : Integer} {cause : RuntimeCause} :
    repetitions length count = .error cause ↔
      cause = .overflow ∧ maxRepeatedLength < length * count.toInt.toNat := by
  unfold repetitions
  simp only [repeatedLength?_any_le]
  split
  · next short =>
      have product : length * count.toInt.toNat = 0 := by
        rcases short with empty | negative
        · rw [empty, Nat.zero_mul]
        · rw [show count.toInt.toNat = 0 by omega, Nat.mul_zero]
      rw [product]
      exact ⟨nofun, fun beyond => absurd beyond.2 (Nat.not_lt_zero _)⟩
  · split
    · next within => exact ⟨nofun, fun beyond => absurd beyond.2 (Nat.not_lt.mpr within)⟩
    · next beyond =>
        constructor
        · intro refused
          cases refused
          exact ⟨rfl, Nat.not_le.mp beyond⟩
        · intro refused
          rw [refused.1]

theorem toList_repeatText (text : String) (count : Nat) :
    (repeatText text count).toList = (List.replicate count text.toList).flatten := by
  induction count with
  | zero => rfl
  | succ count ih =>
      rw [List.replicate_succ', List.flatten_append, ← ih]
      simp [repeatText, Nat.repeat]

theorem repeatText_eq (text : String) (count : Nat) :
    repeatText text count = String.join (List.replicate count text) := by
  apply String.toList_inj.mp
  rw [toList_repeatText, String.toList_join, List.flatMap_def, List.map_replicate]

theorem repeatList_eq (items : List Value) (count : Nat) :
    repeatList items count = (List.replicate count items).flatten := by
  induction count with
  | zero => rfl
  | succ count ih =>
      rw [List.replicate_succ, List.flatten_cons, ← ih]
      rfl

/-- Nothing can be repeated any number of times, and the language does not try. -/
theorem flatten_copies {α : Type} {items : List α} {length copies : Nat} {count : Integer}
    (nothing : length = 0 → items = []) (ran : repetitions length count = .ok copies) :
    (List.replicate copies items).flatten =
      (List.replicate count.toInt.toNat items).flatten := by
  rcases repetitions_eq_ok ran with rfl | ⟨empty, rfl⟩
  · rfl
  · rw [nothing empty, List.flatten_replicate_nil, List.flatten_replicate_nil]

section

variable {sequence : Value} {length : Nat} (sized : sequence.size? = some length)

include sized

theorem Value.sequence_cases :
    (∃ content : String, sequence = .text content ∧ content.utf8ByteSize = length) ∨
      ∃ items : List Value, sequence = .list items ∧ items.length = length := by
  cases sequence with
  | text content => cases sized; exact .inl ⟨content, rfl, rfl⟩
  | list items => cases sized; exact .inr ⟨items, rfl, rfl⟩
  | _ => cases sized

/-- The number of copies that are made and the number asked for come to the same. -/
theorem Value.copies_eq {copied : Nat} {count : Integer}
    (ran : repetitions length count = .ok copied) :
    sequence.copies copied = sequence.copies count.toInt.toNat := by
  rcases sequence_cases sized with ⟨content, rfl, rfl⟩ | ⟨items, rfl, rfl⟩
  · have same : (List.replicate copied content.toList).flatten =
        (List.replicate count.toInt.toNat content.toList).flatten := by
      apply flatten_copies _ ran
      simp
    rw [← toList_repeatText, ← toList_repeatText, String.toList_inj] at same
    rw [copies, copies, ← repeatText_eq, ← repeatText_eq, same]
  · rw [copies, copies, flatten_copies List.length_eq_zero_iff.mp ran]

private theorem Operator.mul_apply_sequence (count : Integer) :
    Operator.mul.apply sequence (.integer count) =
      (repetitions length count).map fun copied => sequence.copies copied := by
  rcases Value.sequence_cases sized with ⟨content, rfl, rfl⟩ | ⟨items, rfl, rfl⟩
  · change repeatedText content count = _
    simp only [repeatedText, repeatText_eq, Value.copies]
  · change repeatedList items count = _
    simp only [repeatedList, repeatList_eq, Value.copies]

theorem Operator.mul_apply_comm (count : Integer) :
    Operator.mul.apply (.integer count) sequence = Operator.mul.apply sequence (.integer count) := by
  rcases Value.sequence_cases sized with ⟨content, rfl, rfl⟩ | ⟨items, rfl, rfl⟩
  · rfl
  · rfl

theorem Operator.mul_apply_eq (count : Integer) :
    Operator.mul.apply sequence (.integer count) =
      if length * count.toInt.toNat ≤ maxRepeatedLength then
        .ok (sequence.copies count.toInt.toNat)
      else .error .overflow := by
  rw [mul_apply_sequence sized]
  cases ran : repetitions length count with
  | ok copied =>
      have within : ¬ maxRepeatedLength < length * count.toInt.toNat := by
        intro beyond
        have refused := repetitions_eq_error_iff.mpr ⟨rfl, beyond⟩
        rw [ran] at refused
        cases refused
      rw [if_pos (Nat.not_lt.mp within), ← Value.copies_eq sized ran]
      rfl
  | error cause =>
      obtain ⟨rfl, beyond⟩ := repetitions_eq_error_iff.mp ran
      rw [if_neg (Nat.not_le.mpr beyond)]
      rfl

private theorem Operator.add_apply_copies (first second : Nat) :
    Operator.add.apply (sequence.copies first) (sequence.copies second) =
      .ok (sequence.copies (first + second)) := by
  rcases Value.sequence_cases sized with ⟨content, rfl, rfl⟩ | ⟨items, rfl, rfl⟩
  · simp only [Value.copies]
    rw [← List.replicate_append_replicate, String.join_append]
    rfl
  · simp only [Value.copies]
    rw [← List.replicate_append_replicate, List.flatten_append]
    rfl

/-- A product of a text or list of some length with an integer, in either order, consists of
as many copies as the integer says, none for a negative one, and overflows exactly when it
would be longer than the limit. A number of copies that can be made at once can also be made in
two parts that are then joined. -/
theorem repetition_exact :
    (∀ count : Integer,
      let repeated : Except RuntimeCause Value :=
        if length * (max count.toInt 0).toNat ≤ 2 ^ 24 then
          .ok (sequence.copies (max count.toInt 0).toNat)
        else .error .overflow
      Operator.mul.apply sequence (.integer count) = repeated ∧
        Operator.mul.apply (.integer count) sequence = repeated) ∧
    ∀ first second total : Integer, 0 ≤ first.toInt → 0 ≤ second.toInt →
      total.toInt = first.toInt + second.toInt →
      ∀ whole, Operator.mul.apply sequence (.integer total) = .ok whole →
        ∃ front back, Operator.mul.apply sequence (.integer first) = .ok front ∧
          Operator.mul.apply sequence (.integer second) = .ok back ∧
          Operator.add.apply front back = .ok whole := by
  constructor
  · intro count repeated
    have clamped : (max count.toInt 0).toNat = count.toInt.toNat := by omega
    have product : Operator.mul.apply sequence (.integer count) = repeated := by
      rw [Operator.mul_apply_eq sized]
      simp only [repeated, clamped]
      rfl
    exact ⟨product, (Operator.mul_apply_comm sized count).trans product⟩
  · intro first second total nonnegative positive sum whole repeated
    have parts : total.toInt.toNat = first.toInt.toNat + second.toInt.toNat := by omega
    rw [Operator.mul_apply_eq sized, parts] at repeated
    split at repeated
    · next within =>
        cases repeated
        rw [Nat.mul_add] at within
        refine ⟨sequence.copies first.toInt.toNat, sequence.copies second.toInt.toNat, ?_, ?_, ?_⟩
        · rw [Operator.mul_apply_eq sized, if_pos (by omega)]
        · rw [Operator.mul_apply_eq sized, if_pos (by omega)]
        · exact Operator.add_apply_copies sized _ _
    · cases repeated

end

/-- One character of two bytes: half as many copies as the limit has bytes are just allowed. -/
theorem repetition_exact_twoBytes :
    (Value.text "é").size? = some 2 ∧
      Operator.mul.apply (.text "é") (.integer 8388609) = .error .overflow ∧
      Operator.mul.apply (.integer (-1)) (.text "é") = .ok (.text "") ∧
      0 ≤ (1 : Integer).toInt ∧ 0 ≤ (2 : Integer).toInt ∧
      (3 : Integer).toInt = (1 : Integer).toInt + (2 : Integer).toInt ∧
      Operator.mul.apply (.text "é") (.integer 3) = .ok (.text "ééé") ∧
      ∃ front back, Operator.mul.apply (.text "é") (.integer 1) = .ok front ∧
        Operator.mul.apply (.text "é") (.integer 2) = .ok back ∧
        Operator.add.apply front back = .ok (.text "ééé") := by
  have sized : (Value.text "é").size? = some 2 := by rfl
  obtain ⟨products, sums⟩ := repetition_exact sized
  have beyond := (products 8388609).1
  have negative := (products (-1)).2
  have three : Operator.mul.apply (.text "é") (.integer 3) = .ok (.text "ééé") := by
    have product := (products 3).1
    rw [if_pos (by decide)] at product
    exact product
  rw [if_neg (by decide)] at beyond
  rw [if_pos (by decide)] at negative
  exact ⟨sized, beyond, negative, by decide, by decide, by decide, three,
    sums 1 2 3 (by decide) (by decide) (by decide) _ three⟩

end WindowScript
