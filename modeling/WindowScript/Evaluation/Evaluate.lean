import WindowScript.Evaluation.Builtins

/-!
# Evaluation

Operands and arguments are evaluated from left to right. The scope of a call starts
from what the function captured, not from the scope of the caller. Evaluations are
counted while they last, and the count may not pass a fixed limit, which cuts off
runaway recursion.
-/

set_option autoImplicit false

namespace WindowScript

/-- How many evaluations may be under way at once, one inside the other. -/
def maxDepth : Nat := 200

/-- What evaluation works on: the history of the host, and the number of evaluations
that have begun and not ended. -/
structure Progress where
  history : History
  depth : Nat

abbrev Evaluation (α : Type) := Fallible Progress α

namespace Evaluation

variable {α : Type}

/-- What acts on the host does not see the count. -/
def ofHost (action : HostAction α) : Evaluation α := fun progress =>
  match action.run progress.history with
  | (result, history) => (result, { progress with history })

/-- Counts an evaluation while it lasts, whether it fails or not. Where too many are
under way it does not begin. -/
def nested (position : Position) (inner : Evaluation α) : Evaluation α := fun progress =>
  if maxDepth ≤ progress.depth then (.error ⟨.recursionLimit, position⟩, progress)
  else
    match inner.run { progress with depth := progress.depth + 1 } with
    | (result, after) => (result, { after with depth := after.depth - 1 })

theorem run_ofHost (action : HostAction α) (progress : Progress) :
    (ofHost action).run progress =
      ((action.run progress.history).1,
        { progress with history := (action.run progress.history).2 }) := rfl

theorem run_nested_of_le {progress : Progress} (full : maxDepth ≤ progress.depth)
    (position : Position) (inner : Evaluation α) :
    (nested position inner).run progress = (.error ⟨.recursionLimit, position⟩, progress) :=
  if_pos full

theorem run_nested_of_lt {progress : Progress} (room : progress.depth < maxDepth)
    (position : Position) (inner : Evaluation α) :
    (nested position inner).run progress =
      ((inner.run { progress with depth := progress.depth + 1 }).1,
        { history := (inner.run { progress with depth := progress.depth + 1 }).2.history
          depth := (inner.run { progress with depth := progress.depth + 1 }).2.depth - 1 }) :=
  if_neg (Nat.not_le.mpr room)

end Evaluation

abbrev Evaluator := Expr → Scope → Evaluation Value

namespace Evaluator

/-- Evaluates expressions in order, on top of the reversed `values`. -/
def all (evaluate : Evaluator) (scope : Scope) : List Value → List Expr → Evaluation (List Value)
  | values, [] => pure values.reverse
  | values, item :: rest => do
      let value ← evaluate item scope
      evaluate.all scope (value :: values) rest

/-- Evaluates the entries of a record in order, on top of `fields`. -/
def fields (evaluate : Evaluator) (scope : Scope) :
    List (String × Value) → List (String × Expr) → Evaluation (List (String × Value))
  | bound, [] => pure bound
  | bound, (name, item) :: rest => do
      let value ← evaluate item scope
      evaluate.fields scope (Bindings.insert name value bound) rest

/-- Evaluates a statement, and returns its value with the scope behind it. -/
def statement (evaluate : Evaluator) (scope : Scope) : Statement → Evaluation (Value × Scope)
  | .binding name item _ => do
      let value ← evaluate item scope
      pure (value, Bindings.insert name value scope)
  | .function name parameters body position =>
      let value := Value.function ⟨name, parameters, body, position⟩ scope
      pure (value, Bindings.insert name value scope)
  | .returning item _ | .expression item _ => do
      let value ← evaluate item scope
      pure (value, scope)
  | .gui described => pure (.gui described, scope)

/-- Evaluates the body of a function up to its first return. The value of the last
statement evaluated is the result. -/
def body (evaluate : Evaluator) : Value → Scope → List Statement → Evaluation Value
  | last, _, [] => pure last
  | _, scope, next :: rest => do
      let (value, following) ← evaluate.statement scope next
      if next.isReturn then pure value else evaluate.body value following rest

/-- The scope in which the body of a function is evaluated: what it captured, its own
name, and its parameters. Parameters without an argument stay unbound and arguments
without a parameter are dropped. -/
def callScope (definition : Function) (captured : Scope) (arguments : List Value) : Scope :=
  Bindings.insertAll (definition.parameters.zip arguments)
    (Bindings.insert definition.name (.function definition captured) captured)

def apply (evaluate : Evaluator) (host : Host) (name : String) (callee : Value)
    (arguments : List Value) (position : Position) : Evaluation Value :=
  match callee with
  | .function definition captured =>
      evaluate.body .absent (callScope definition captured arguments) definition.body
  | .builtin builtin => Evaluation.ofHost (builtin.call host arguments position)
  | other => Fallible.fail (.notCallable name other.kind) position

def resolve (name : String) (position : Position) (scope : Scope) : Evaluation Value :=
  match Bindings.find? name scope with
  | some callee => pure callee
  | none => Fallible.fail (.unknownFunction name) position

/-- Calls a function by name. The name is looked up before the arguments are evaluated,
and `leading` arguments that have values already come first. -/
def call (evaluate : Evaluator) (host : Host) (name : String) (leading : List Value)
    (arguments : List Expr) (position : Position) (scope : Scope) : Evaluation Value := do
  let callee ← resolve name position scope
  let values ← evaluate.all scope leading.reverse arguments
  evaluate.apply host name callee values position

/-- Passes a value on to the right side of a pipe. A right side that is neither a call
nor a name is not evaluated. -/
def pipeInto (evaluate : Evaluator) (host : Host) (value : Value) (right : Expr)
    (position : Position) (scope : Scope) : Evaluation Value :=
  match right with
  | .call name arguments origin => evaluate.call host name [value] arguments origin scope
  | .name name _ => evaluate.call host name [value] [] position scope
  | _ => pure value

/-- The attribute of a value. A record has an absent value for every other key. -/
def readAttribute (key : String) : Value → Except RuntimeCause Value
  | .record entries => .ok ((Bindings.find? key entries).getD .absent)
  | other => .error (.typeError (.noRecord key other.kind))

/-- Evaluates an expression, and the expressions in it by `evaluate`. -/
def step (evaluate : Evaluator) (host : Host) : Evaluator
  | .integer value _, _ => pure (.integer value)
  | .real value _, _ => pure (.real value)
  | .text value _, _ => pure (.text value)
  | .boolean value _, _ => pure (.boolean value)
  | .name name position, scope =>
      match Bindings.find? name scope with
      | some value => pure value
      | none => Fallible.fail (.unknownVariable name) position
  | .binary operator left right position, scope => do
      let first ← evaluate left scope
      let second ← evaluate right scope
      Fallible.place position (operator.apply first second)
  | .record entries _, scope => do
      let bound ← evaluate.fields scope [] entries
      pure (.record bound)
  | .access object key position, scope => do
      let value ← evaluate object scope
      Fallible.place position (readAttribute key value)
  | .list items _, scope => do
      let values ← evaluate.all scope [] items
      pure (.list values)
  | .call name arguments position, scope => evaluate.call host name [] arguments position scope
  | .pipe left right position, scope => do
      let value ← evaluate left scope
      evaluate.pipeInto host value right position scope

end Evaluator

/-- Evaluates an expression by at most `levels` evaluations inside each other. -/
def evaluateWithin (host : Host) : Nat → Evaluator
  | 0, item, _ => Fallible.fail .recursionLimit item.position
  | levels + 1, item, scope =>
      Evaluation.nested item.position ((evaluateWithin host levels).step host item scope)

/-- Evaluates an expression. There are more levels than evaluations that may be under way
at once, so that the count alone ends runaway recursion. -/
def evaluate (host : Host) : Evaluator := evaluateWithin host (maxDepth + 1)

end WindowScript
