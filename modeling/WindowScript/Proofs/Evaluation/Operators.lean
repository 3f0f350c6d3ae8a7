import WindowScript.Proofs.Evaluation.Repetition

/-!
# What operators make

An operator has few kinds of results: numbers, truth values, texts or lists that are joined, and
copies of a text or list within the limit on them.
-/

set_option autoImplicit false

namespace WindowScript.Operator

/-- The results that an operator has for its operands. -/
inductive Makes : Operator → Value → Value → Value → Prop where
  | number {operator left right value} : value.isNumber = true → Makes operator left right value
  | truth {left right equal} : Makes .equal left right (.boolean equal)
  | texts {first second} : Makes .add (.text first) (.text second) (.text (first ++ second))
  | lists {first second} : Makes .add (.list first) (.list second) (.list (first ++ second))
  | copies {sequence length count} : sequence.size? = some length →
      length * count.toInt.toNat ≤ maxRepeatedLength →
      Makes .mul sequence (.integer count) (sequence.copies count.toInt.toNat)
  | copiesBehind {sequence length count} : sequence.size? = some length →
      length * count.toInt.toNat ≤ maxRepeatedLength →
      Makes .mul (.integer count) sequence (sequence.copies count.toInt.toNat)

variable {operator : Operator} {left right value : Value}

private theorem checked_isNumber {result : Option Integer} (computed : checked result = .ok value) :
    value.isNumber = true := by
  cases result with
  | none => cases computed
  | some number => cases computed; rfl

private theorem isNumber_of_bind {α : Type} {stage : Except RuntimeCause α}
    {next : α → Except RuntimeCause Value}
    (onward : ∀ found, next found = .ok value → value.isNumber = true)
    (computed : (stage >>= next) = .ok value) : value.isNumber = true := by
  cases stage with
  | ok found => exact onward found computed
  | error cause => cases computed

private theorem quotient_isNumber (computed : quotient left right = .ok value) :
    value.isNumber = true := by
  refine isNumber_of_bind (fun divisor divided => ?_) computed
  split at divided
  · cases divided
  · refine isNumber_of_bind (fun dividend finished => ?_) divided
    cases finished
    rfl

private theorem scalar_isNumber (computed : operator.scalar left right = .ok value) :
    value.isNumber = true := by
  unfold scalar at computed
  split at computed
  · exact quotient_isNumber computed
  · exact checked_isNumber computed
  · exact checked_isNumber computed
  · exact checked_isNumber computed
  · cases computed
  · refine isNumber_of_bind (fun first onward => ?_) computed
    refine isNumber_of_bind (fun second finished => ?_) onward
    split at finished <;> cases finished <;> rfl

/-- A product with a text or list on either side is made of copies. -/
theorem makes_of_mul {sequence : Value} {length : Nat} (sized : sequence.size? = some length)
    {count : Integer} (computed : Operator.mul.apply sequence (.integer count) = .ok value) :
    length * count.toInt.toNat ≤ maxRepeatedLength ∧
      value = sequence.copies count.toInt.toNat := by
  rw [mul_apply_eq sized] at computed
  split at computed
  · next within => cases computed; exact ⟨within, rfl⟩
  · cases computed

private theorem makes_of_sequence (computed : operator.sequence left right = .ok value) :
    Makes operator left right value := by
  unfold sequence at computed
  split at computed
  · cases computed
    exact .texts
  · cases computed
    exact .lists
  · next text count =>
      have sized : (Value.text text).size? = some text.utf8ByteSize := rfl
      obtain ⟨within, rfl⟩ := makes_of_mul sized computed
      exact .copies sized within
  · next count text =>
      have sized : (Value.text text).size? = some text.utf8ByteSize := rfl
      obtain ⟨within, rfl⟩ := makes_of_mul sized computed
      exact .copiesBehind sized within
  · next items count =>
      have sized : (Value.list items).size? = some items.length := rfl
      obtain ⟨within, rfl⟩ := makes_of_mul sized computed
      exact .copies sized within
  · next count items =>
      have sized : (Value.list items).size? = some items.length := rfl
      obtain ⟨within, rfl⟩ := makes_of_mul sized computed
      exact .copiesBehind sized within
  · cases computed

theorem makes_of_apply (computed : operator.apply left right = .ok value) :
    Makes operator left right value := by
  have mixed {joined : Except RuntimeCause Value} (chosen : (if left.isNumber && right.isNumber
      then operator.scalar left right else joined) = .ok value)
      (otherwise : joined = .ok value → Makes operator left right value) :
      Makes operator left right value := by
    split at chosen
    · exact .number (scalar_isNumber chosen)
    · exact otherwise chosen
  cases operator with
  | equal => cases computed; exact .truth
  | add => exact mixed computed makes_of_sequence
  | mul => exact mixed computed makes_of_sequence
  | sub => exact mixed computed nofun
  | div => exact mixed computed nofun

end WindowScript.Operator
