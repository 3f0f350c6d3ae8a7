import Mathlib.Data.List.Perm.Subperm
import WindowScript.Proofs.Python.Phrases
import WindowScript.Proofs.Value.Bindings

/-!
# Evaluating Python expressions

What Python computes for phrases without variables and calls: integers without bounds,
booleans, texts, lists and dictionaries whose keys are texts. A dictionary keeps its keys in
the order in which they came first, each with the value that came last. A phrase that fails
in Python has no value here, nor has one whose value is a float.
-/

set_option autoImplicit false

namespace WindowScript.Python

inductive Object where
  | int (value : Int)
  | bool (value : Bool)
  | str (value : String)
  | list (items : List Object)
  | dict (entries : List (String × Object))

namespace Object

/-- The integer that an object is in arithmetic. Booleans are integers as well. -/
def whole? : Object → Option Int
  | .int value => some value
  | .bool value => some (if value then 1 else 0)
  | _ => none

mutual

/-- Equality by parts. Dictionaries are compared key by key, in whatever order. -/
def equals : Object → Object → Bool
  | .str left, .str right => left = right
  | .list left, .list right => equalItems left right
  | .dict left, .dict right => left.length = right.length && agreesWith left right
  | left, right =>
      match left.whole?, right.whole? with
      | some first, some second => first = second
      | _, _ => false

def equalItems : List Object → List Object → Bool
  | [], [] => true
  | left :: leftRest, right :: rightRest => equals left right && equalItems leftRest rightRest
  | _, _ => false

/-- Whether every key of the first dictionary has an equal value in the second. -/
def agreesWith : List (String × Object) → List (String × Object) → Bool
  | [], _ => true
  | (key, value) :: rest, others =>
      (match Bindings.find? key others with
        | some other => equals value other
        | none => false) && agreesWith rest others

end

def add? (left right : Object) : Option Object :=
  match left, right with
  | .str first, .str second => some (.str (first ++ second))
  | .list first, .list second => some (.list (first ++ second))
  | _, _ => do some (.int ((← left.whole?) + (← right.whole?)))

/-- A text or a list many times over. A negative number of times gives an empty one. -/
def repeated? (count : Int) : Object → Option Object
  | .str value => some (.str (String.ofList (List.replicate count.toNat value.toList).flatten))
  | .list items => some (.list (List.replicate count.toNat items).flatten)
  | _ => none

def multiply? (left right : Object) : Option Object :=
  match left.whole?, right.whole? with
  | some first, some second => some (.int (first * second))
  | some count, none => right.repeated? count
  | none, some count => left.repeated? count
  | none, none => none

def operate? (operator : Operator) (left right : Object) : Option Object :=
  match operator with
  | .add => left.add? right
  | .sub => do some (.int ((← left.whole?) - (← right.whole?)))
  | .mul => left.multiply? right
  | .div => none
  | .equal => some (.bool (left.equals right))

def store (key : String) (value : Object) : List (String × Object) → List (String × Object)
  | [] => [(key, value)]
  | (held, old) :: rest =>
      if held = key then (held, value) :: rest else (held, old) :: store key value rest

/-- The dictionary that entries make up, one stored behind the other. -/
def collect (entries : List (String × Object)) : List (String × Object) :=
  entries.foldl (fun held entry => store entry.1 entry.2 held) []

end Object

/-- An integer in decimal digits. No zero stands in front of another digit. -/
def integer? (spelling : List Char) : Option Int :=
  if spelling ≠ [] ∧ spelling.all Char.isDigit ∧
      (spelling.head? ≠ some '0' ∨ spelling.all (· = '0')) then
    some (Numeral.value spelling)
  else none

mutual

def Phrase.evaluate : Phrase → Option Object
  | .number spelling => (integer? spelling.toList).map .int
  | .name spelling =>
      if spelling = "True" then some (.bool true)
      else if spelling = "False" then some (.bool false)
      else none
  | .text value => some (.str value)
  | .operation operator left right => do
      let first ← left.evaluate
      let second ← right.evaluate
      first.operate? operator second
  | .dictionary entries => do
      let found ← Phrase.evaluateEntries entries
      some (.dict (Object.collect found))
  | .subscript object key => do
      match ← object.evaluate with
      | .dict entries => Bindings.find? key entries
      | _ => none
  | .list items => do
      let found ← Phrase.evaluateItems items
      some (.list found)
  | .call _ _ => none

def Phrase.evaluateItems : List Phrase → Option (List Object)
  | [] => some []
  | item :: rest => do
      let first ← item.evaluate
      let others ← Phrase.evaluateItems rest
      some (first :: others)

def Phrase.evaluateEntries : List (String × Phrase) → Option (List (String × Object))
  | [] => some []
  | (key, value) :: rest => do
      let first ← value.evaluate
      let others ← Phrase.evaluateEntries rest
      some ((key, first) :: others)

end

theorem Phrase.evaluateItems_of_forall₂ {items : List Phrase} {objects : List Object}
    (each : List.Forall₂ (fun item object => item.evaluate = some object) items objects) :
    Phrase.evaluateItems items = some objects := by
  induction each with
  | nil => rfl
  | cons first _ ih => rw [Phrase.evaluateItems, first, ih]; rfl

theorem Phrase.evaluateEntries_of_forall₂ {entries : List (String × Phrase)}
    {objects : List (String × Object)}
    (each : List.Forall₂ (fun entry object =>
      entry.1 = object.1 ∧ entry.2.evaluate = some object.2) entries objects) :
    Phrase.evaluateEntries entries = some objects := by
  induction each with
  | nil => rfl
  | @cons entry object _ _ first _ ih =>
      obtain ⟨key, value⟩ := entry
      obtain ⟨rfl, found⟩ := first
      simp only [Phrase.evaluateEntries, found, ih, Option.bind_eq_bind, Option.bind_some]

/-!
## Integers
-/

/-- The digits of a positive number do not begin with a zero. -/
theorem head?_toDigits {number : Nat} (positive : 0 < number) :
    (Nat.toDigits 10 number).head? ≠ some '0' := by
  have single : ∀ digit < 10, 0 < digit → [Nat.digitChar digit].head? ≠ some '0' := by decide
  induction number using Nat.strongRecOn with
  | ind number ih =>
      by_cases small : number < 10
      · rw [Nat.toDigits_of_lt_base small]
        exact single number small positive
      · rw [Nat.toDigits_of_base_le (by decide) (by omega),
          List.head?_append_of_ne_nil _ Nat.toDigits_ne_nil]
        exact ih (number / 10) (by omega) (by omega)

theorem integer?_text {value : Integer} (nonnegative : 0 ≤ value.toInt) :
    integer? (Integer.text value).toList = some value.toInt := by
  have digits := Integer.digits_text nonnegative
  have meant := Integer.value_text nonnegative
  rw [Integer.toList_text nonnegative] at digits meant ⊢
  rw [integer?, if_pos, meant]
  refine ⟨Nat.toDigits_ne_nil, List.all_eq_true.mpr digits, ?_⟩
  rcases Nat.eq_zero_or_pos value.toInt.natAbs with zero | positive
  · rw [zero]
    exact .inr rfl
  · exact .inl (head?_toDigits positive)

/-!
## Dictionaries
-/

namespace Object

theorem find?_store (key sought : String) (value : Object) (entries : List (String × Object)) :
    Bindings.find? sought (store key value entries) =
      if sought = key then some value else Bindings.find? sought entries := by
  induction entries with
  | nil => simp [store, Bindings.find?, eq_comm]
  | cons entry rest ih =>
      obtain ⟨held, old⟩ := entry
      unfold store
      split
      · next same =>
          subst same
          by_cases here : sought = held
          · simp [Bindings.find?, here]
          · simp [Bindings.find?, here, Ne.symm here]
      · next other =>
          by_cases here : held = sought
          · subst here
            simp [Bindings.find?, other]
          · rw [Bindings.find?_cons_of_ne here, Bindings.find?_cons_of_ne here, ih]

private theorem mem_keys_store {key sought : String} {value : Object}
    {entries : List (String × Object)} : sought ∈ (store key value entries).map Prod.fst ↔
      sought = key ∨ sought ∈ entries.map Prod.fst := by
  have found := find?_store key sought value entries
  rw [← not_iff_not, ← Bindings.find?_eq_none_iff, found, not_or, ← Bindings.find?_eq_none_iff]
  by_cases here : sought = key <;> simp [here]

theorem nodup_store {entries : List (String × Object)} (distinct : (entries.map Prod.fst).Nodup)
    (key : String) (value : Object) : ((store key value entries).map Prod.fst).Nodup := by
  induction entries with
  | nil => simp [store]
  | cons entry rest ih =>
      obtain ⟨held, old⟩ := entry
      obtain ⟨fresh, later⟩ := List.nodup_cons.mp distinct
      unfold store
      split
      · exact distinct
      · next other =>
          refine List.nodup_cons.mpr ⟨?_, ih later⟩
          rw [mem_keys_store, not_or]
          exact ⟨other, fresh⟩

private theorem agreesWith_iff {left right : List (String × Object)} :
    agreesWith left right = true ↔
      ∀ entry ∈ left, ∃ value, Bindings.find? entry.1 right = some value ∧
        entry.2.equals value = true := by
  induction left with
  | nil => simp [agreesWith]
  | cons entry rest ih =>
      obtain ⟨key, value⟩ := entry
      rw [agreesWith, Bool.and_eq_true, ih, List.forall_mem_cons]
      refine and_congr_left fun _ => ?_
      cases Bindings.find? key right <;> simp

/-- Dictionaries are equal when every key is missing from both or has equal values in both. -/
theorem equals_dict_iff {left right : List (String × Object)}
    (leftDistinct : (left.map Prod.fst).Nodup) (rightDistinct : (right.map Prod.fst).Nodup) :
    equals (.dict left) (.dict right) = true ↔
      ∀ key, Option.Rel (fun one other => equals one other = true)
        (Bindings.find? key left) (Bindings.find? key right) := by
  rw [equals, Bool.and_eq_true, decide_eq_true_eq, agreesWith_iff]
  constructor
  · rintro ⟨lengths, agree⟩ key
    have inside : left.map Prod.fst ⊆ right.map Prod.fst := by
      intro name member
      obtain ⟨entry, held, rfl⟩ := List.mem_map.mp member
      obtain ⟨value, found, _⟩ := agree entry held
      exact List.mem_map.mpr ⟨_, Bindings.mem_of_find? found, rfl⟩
    -- Distinct keys, as many on either side, and all of the one among those of the other.
    have same : (left.map Prod.fst).Perm (right.map Prod.fst) :=
      (leftDistinct.subperm inside).perm_of_length_le (by simp [lengths])
    cases found : Bindings.find? key left with
    | none =>
        rw [Bindings.find?_eq_none_iff, same.mem_iff, ← Bindings.find?_eq_none_iff] at found
        rw [found]
        exact .none
    | some value =>
        obtain ⟨other, otherFound, equal⟩ := agree _ (Bindings.mem_of_find? found)
        rw [otherFound]
        exact .some equal
  · intro all
    constructor
    · have same : (left.map Prod.fst).Perm (right.map Prod.fst) := by
        rw [List.perm_ext_iff_of_nodup leftDistinct rightDistinct]
        intro key
        have here := all key
        rw [← not_iff_not, ← Bindings.find?_eq_none_iff, ← Bindings.find?_eq_none_iff]
        generalize Bindings.find? key left = one at here ⊢
        generalize Bindings.find? key right = other at here ⊢
        cases here <;> simp
      simpa using same.length_eq
    · rintro ⟨key, value⟩ member
      have here := all key
      rw [Bindings.find?_of_mem leftDistinct member] at here
      generalize Bindings.find? key right = found at here ⊢
      cases here with
      | some equal => exact ⟨_, rfl, equal⟩

end Object

end WindowScript.Python
