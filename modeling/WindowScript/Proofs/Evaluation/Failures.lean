import WindowScript.Evaluation.Session
import WindowScript.Proofs.Evaluation.Builtins
import WindowScript.Proofs.Evaluation.Invariants
import WindowScript.Proofs.Evaluation.Operators
import WindowScript.Proofs.Program.Nodes

/-!
# Where evaluation fails

A call evaluates the body of a function far from where the function was defined, and the
function may have come there inside of other values. Every value that evaluation makes or
binds holds only such bodies as the program has, so that a failure is at a node of the program
wherever it arises.
-/

set_option autoImplicit false

namespace WindowScript

/-!
## Values
-/

/-- A value in which the bodies of all functions stand at allowed positions, whether the
value holds a function itself or in a list, a record or a captured scope. -/
inductive Value.At (allowed : Position → Prop) : Value → Prop where
  | plain {value : Value} : value.IsPlain → At allowed value
  | list {items : List Value} : (∀ item ∈ items, At allowed item) → At allowed (.list items)
  | record {entries : List (String × Value)} :
      (∀ entry ∈ entries, At allowed entry.2) → At allowed (.record entries)
  | function {definition : Function} {captured : Scope} :
      (∀ statement ∈ definition.body, statement.At allowed) →
      (∀ entry ∈ captured, At allowed entry.2) → At allowed (.function definition captured)
  | gui {described : Gui} : At allowed (.gui described)

def Scope.At (allowed : Position → Prop) (scope : Scope) : Prop :=
  ∀ entry ∈ scope, entry.2.At allowed

section

variable {allowed : Position → Prop}

private theorem Expr.At.child {child whole : Expr} (placed : whole.At allowed)
    (member : child ∈ whole.children) : child.At allowed := by
  suffices each : ∀ child ∈ whole.children, child.At allowed from each child member
  cases placed with
  | binary _ left right | pipe _ left right => simpa [Expr.children] using ⟨left, right⟩
  | record _ values => simpa [Expr.children] using fun value name held => values _ held
  | access _ object => simpa [Expr.children] using object
  | list _ items => exact items
  | call _ arguments => exact arguments
  | integer | real | text | boolean | name => simp [Expr.children]

theorem Scope.initial_at : Scope.initial.At allowed := by
  apply Bindings.forall_mem_insertAll
  · intro entry member
    obtain ⟨builtin, _, rfl⟩ := List.mem_map.mp member
    exact .plain trivial
  · simp

private theorem Value.At.items {items : List Value} (placed : (Value.list items).At allowed) :
    ∀ item ∈ items, item.At allowed := by
  cases placed with
  | plain isPlain => exact isPlain.elim
  | list each => exact each

private theorem Value.At.entries {entries : List (String × Value)}
    (placed : (Value.record entries).At allowed) : ∀ entry ∈ entries, entry.2.At allowed := by
  cases placed with
  | plain isPlain => exact isPlain.elim
  | record each => exact each

private theorem Value.At.opened {definition : Function} {captured : Scope}
    (placed : (Value.function definition captured).At allowed) :
    (∀ statement ∈ definition.body, statement.At allowed) ∧ captured.At allowed := by
  cases placed with
  | plain isPlain => exact isPlain.elim
  | function body captured => exact ⟨body, captured⟩

private theorem Value.At.copies {value : Value} (placed : value.At allowed) (count : Nat) :
    (value.copies count).At allowed := by
  cases value with
  | text content => exact .plain trivial
  | list items =>
      refine .list fun item member => ?_
      obtain ⟨copy, repeated, among⟩ := List.mem_flatten.mp member
      rw [List.eq_of_mem_replicate repeated] at among
      exact placed.items item among
  | _ => exact placed

private theorem Evaluator.readAttribute_at {key : String} {object value : Value}
    (placed : object.At allowed) (read : readAttribute key object = .ok value) :
    value.At allowed := by
  cases object with
  | record entries =>
      cases read
      cases found : Bindings.find? key entries with
      | none => exact .plain trivial
      | some held => exact Bindings.of_find? placed.entries found
  | _ => cases read

private theorem Operator.Makes.at {operator : Operator} {left right value : Value}
    (makes : operator.Makes left right value) (first : left.At allowed)
    (second : right.At allowed) : value.At allowed := by
  cases makes with
  | number number => exact .plain (Value.isPlain_of_isNumber number)
  | truth => exact .plain trivial
  | texts => exact .plain trivial
  | lists => exact .list (List.forall_mem_append.mpr ⟨first.items, second.items⟩)
  | copies => exact first.copies _
  | copiesBehind => exact second.copies _

end

/-!
## Evaluators
-/

/-- An evaluator that keeps to the allowed positions. -/
def Evaluator.KeepsTo (allowed : Position → Prop) (evaluate : Evaluator) : Prop :=
  ∀ ⦃item : Expr⦄ ⦃scope : Scope⦄, item.At allowed → scope.At allowed →
    Evaluation.Ensures allowed (Value.At allowed) (evaluate item scope)

variable (allowed : Position → Prop) (host : Host)

/-- Evaluation fails at allowed positions and ends with values that have no others. -/
def Invariant.positions : Invariant host where
  Allowed := allowed
  Fits := Expr.At allowed
  FitsStatement := Statement.At allowed
  Holds := Value.At allowed
  Yields := fun _ _ => Value.At allowed
  position := Expr.At.position
  child := Expr.At.child
  binding := fun | .binding value => value
  returning := fun | .returning value => value
  expression := fun | .expression value => value
  body := fun | .function body => body
  absent := .plain trivial
  gui := fun _ => .gui
  function := .function
  opened := Value.At.opened
  reads := Evaluator.readAttribute_at
  yields := id
  literal := by
    intro scope item value _ literal
    cases item <;> cases literal <;> exact .plain trivial
  list := fun _ _ => .list
  record := fun _ => .record
  operation := fun first second computed => (Operator.makes_of_apply computed).at first second
  builtin := by
    intro scope item name builtin arguments position history value _ _ _ answered
    exact .plain ((builtin.call_answers host position history arguments).plain value answered)

variable {allowed}

private theorem evaluateWithin_keepsTo (levels : Nat) :
    Evaluator.KeepsTo allowed (evaluateWithin host levels) := by
  induction levels with
  | zero => exact fun item scope placed bound => .fail placed.position _
  | succ levels ih =>
      intro item scope placed bound
      have keeps : (Invariant.positions allowed host).Keeps (evaluateWithin host levels) := ih
      exact .nested placed.position (keeps.step placed bound)

private theorem evaluate_keepsTo : Evaluator.KeepsTo allowed (evaluate host) :=
  evaluateWithin_keepsTo host (maxDepth + 1)

namespace Session

theorem run_blames {program : Program} (placed : ∀ next ∈ program, next.At allowed)
    {session : Session} (bound : session.globals.At allowed) {failure : RuntimeError}
    (failed : (session.run host program).1 = .error failure) : allowed failure.position := by
  have keeps : (Invariant.positions allowed host).Keeps (evaluate host) := evaluate_keepsTo host
  have outcome := (keeps.runFromBy placed bound (Invariant.positions allowed host).absent).1
  rw [runFromBy_evaluate] at outcome
  rw [run] at failed
  rw [failed] at outcome
  exact outcome

end Session

end WindowScript
