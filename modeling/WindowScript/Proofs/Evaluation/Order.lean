import WindowScript.Proofs.Evaluation.Operators
import WindowScript.Proofs.Evaluation.Watching
import WindowScript.Proofs.Text.Bytes

/-!
# Records in order

Two records are compared, and a record is shown, entry by entry. Both are right because a record has
its keys in one order, which evaluation never breaks: a record is made by insertions, and what is
made of other values holds no records but theirs.
-/

set_option autoImplicit false

namespace WindowScript

/-- Bindings with their names in strictly increasing order of their bytes. -/
def Bindings.InByteOrder {α : Type} (bindings : List (String × α)) : Prop :=
  bindings.Pairwise fun left right => Text.bytes left.1 < Text.bytes right.1

theorem Bindings.inByteOrder_iff {α : Type} {bindings : List (String × α)} :
    InByteOrder bindings ↔ Sorted bindings := by
  simp only [InByteOrder, Sorted, Text.bytes_lt_bytes_iff]

/-- A value in which every record has its keys in order, be it the value itself, or in a list, a
record or a captured scope. -/
inductive Value.Ordered : Value → Prop where
  | plain {value : Value} : value.IsPlain → Ordered value
  | list {items : List Value} : (∀ item ∈ items, Ordered item) → Ordered (.list items)
  | record {entries : List (String × Value)} : Bindings.InByteOrder entries →
      (∀ entry ∈ entries, Ordered entry.2) → Ordered (.record entries)
  | function {definition : Function} {captured : Scope} :
      (∀ entry ∈ captured, Ordered entry.2) → Ordered (.function definition captured)
  | gui {described : Gui} : Ordered (.gui described)

namespace Value

private theorem ordered_list {items : List Value} :
    (Value.list items).Ordered ↔ ∀ item ∈ items, item.Ordered := by
  refine ⟨fun ordered => ?_, .list⟩
  cases ordered with
  | plain isPlain => exact isPlain.elim
  | list each => exact each

private theorem ordered_record {entries : List (String × Value)} :
    (Value.record entries).Ordered ↔
      Bindings.InByteOrder entries ∧ ∀ entry ∈ entries, entry.2.Ordered := by
  refine ⟨fun ordered => ?_, fun ordered => .record ordered.1 ordered.2⟩
  cases ordered with
  | plain isPlain => exact isPlain.elim
  | record inOrder each => exact ⟨inOrder, each⟩

private theorem ordered_function {definition : Function} {captured : Scope} :
    (Value.function definition captured).Ordered ↔ ∀ entry ∈ captured, entry.2.Ordered := by
  refine ⟨fun ordered => ?_, .function⟩
  cases ordered with
  | plain isPlain => exact isPlain.elim
  | function each => exact each

private theorem Ordered.copies {value : Value} (ordered : value.Ordered) (count : Nat) :
    (value.copies count).Ordered := by
  cases value with
  | text content => exact .plain trivial
  | list items =>
      refine .list fun item member => ?_
      obtain ⟨copy, repeated, among⟩ := List.mem_flatten.mp member
      rw [List.eq_of_mem_replicate repeated] at among
      exact ordered_list.mp ordered item among
  | _ => exact ordered

end Value

private theorem Evaluator.readAttribute_ordered {key : String} {object value : Value}
    (ordered : object.Ordered) (read : readAttribute key object = .ok value) : value.Ordered := by
  cases object with
  | record entries =>
      cases read
      cases found : Bindings.find? key entries with
      | none => exact .plain trivial
      | some held => exact Bindings.of_find? (Value.ordered_record.mp ordered).2 found
  | _ => cases read

private theorem Operator.Makes.ordered {operator : Operator} {left right value : Value}
    (makes : operator.Makes left right value) (first : left.Ordered) (second : right.Ordered) :
    value.Ordered := by
  cases makes with
  | number number => exact .plain (Value.isPlain_of_isNumber number)
  | truth => exact .plain trivial
  | texts => exact .plain trivial
  | lists =>
      exact .list (List.forall_mem_append.mpr
        ⟨Value.ordered_list.mp first, Value.ordered_list.mp second⟩)
  | copies => exact first.copies _
  | copiesBehind => exact second.copies _

/-- The values of a scope that are in order stay so in whatever is evaluated. -/
def Invariant.order (host : Host) : Invariant host where
  Allowed := fun _ => True
  Fits := fun _ => True
  FitsStatement := fun _ => True
  Holds := Value.Ordered
  Yields := fun _ _ => Value.Ordered
  position := fun _ => trivial
  child := fun _ _ => trivial
  binding := fun _ => trivial
  returning := fun _ => trivial
  expression := fun _ => trivial
  body := fun _ _ _ => trivial
  absent := .plain trivial
  gui := fun _ => .gui
  function := fun _ => .function
  opened := fun ordered => ⟨fun _ _ => trivial, Value.ordered_function.mp ordered⟩
  reads := Evaluator.readAttribute_ordered
  yields := id
  literal := by
    intro scope item value _ literal
    cases item <;> cases literal <;> exact .plain trivial
  list := fun _ _ => .list
  record := fun sorted => .record (Bindings.inByteOrder_iff.mpr sorted)
  operation := fun first second computed =>
    (Operator.makes_of_apply computed).ordered first second
  builtin := by
    intro scope item name builtin arguments position history value _ _ _ answered
    exact .plain ((builtin.call_answers host position history arguments).plain value answered)

theorem Scope.initial_ordered : ∀ entry ∈ Scope.initial, entry.2.Ordered := by
  apply Bindings.forall_mem_insertAll
  · intro entry member
    obtain ⟨builtin, _, rfl⟩ := List.mem_map.mp member
    exact .plain trivial
  · simp

end WindowScript
