import WindowScript.Proofs.Evaluation.Invariants

/-!
# Invariants on the way

What an invariant says of the values that evaluation ends with holds of every value on the way to
them. Evaluation that looks at each scope and at each value as it comes, and would do anything at
all where one is not as it should be, therefore does what evaluation does.
-/

set_option autoImplicit false

namespace WindowScript

/-!
## Evaluators that agree where an invariant holds
-/

namespace Evaluation

variable {α β : Type} {allowed : Position → Prop} {good : α → Prop}

/-- How a computation goes on matters for its good results alone. -/
theorem Ensures.bind_congr {first : Evaluation α} {next further : α → Evaluation β}
    (ensured : Ensures allowed good first)
    (same : ∀ value, good value → next value = further value) :
    first >>= next = first >>= further := by
  apply ExceptT.ext
  funext progress
  have outcome := ensured progress
  change (first >>= next).run progress = (first >>= further).run progress
  rw [Fallible.run_bind, Fallible.run_bind]
  rcases ran : first.run progress with ⟨result, after⟩
  rw [ran] at outcome
  cases result with
  | ok value => dsimp only; rw [same value outcome]
  | error failure => rfl

end Evaluation

namespace Invariant

open Evaluation

variable {host : Host} {kept : Invariant host} {one other : Evaluator}
  (agree : ∀ item scope, kept.Fits item → kept.Bound scope → other item scope = one item scope)
  {scope : Scope}

include agree

section

variable (bound : kept.Bound scope)

include bound

private theorem all_congr {items : List Expr} (fit : ∀ item ∈ items, kept.Fits item)
    (values : List Value) : other.all scope values items = one.all scope values items := by
  induction items generalizing values with
  | nil => rfl
  | cons item rest ih =>
      obtain ⟨head, tail⟩ := List.forall_mem_cons.mp fit
      simp only [Evaluator.all, agree item scope head bound, ih tail]

private theorem fields_congr {entries : List (String × Expr)}
    (fit : ∀ entry ∈ entries, kept.Fits entry.2) (made : List (String × Value)) :
    other.fields scope made entries = one.fields scope made entries := by
  induction entries generalizing made with
  | nil => rfl
  | cons entry rest ih =>
      obtain ⟨name, item⟩ := entry
      obtain ⟨head, tail⟩ := List.forall_mem_cons.mp fit
      simp only [Evaluator.fields, agree item scope head bound, ih tail]

private theorem statement_congr {next : Statement} (fit : kept.FitsStatement next) :
    other.statement scope next = one.statement scope next := by
  cases next with
  | binding name item position =>
      simp only [Evaluator.statement, agree item scope (kept.binding fit) bound]
  | returning item position =>
      simp only [Evaluator.statement, agree item scope (kept.returning fit) bound]
  | expression item position =>
      simp only [Evaluator.statement, agree item scope (kept.expression fit) bound]
  | function | gui => rfl

end

variable (keeps : kept.Keeps one)

include keeps

private theorem body_congr (bound : kept.Bound scope) {statements : List Statement}
    (fit : ∀ next ∈ statements, kept.FitsStatement next) (last : Value) :
    other.body last scope statements = one.body last scope statements := by
  induction statements generalizing last scope with
  | nil => rfl
  | cons next rest ih =>
      obtain ⟨head, tail⟩ := List.forall_mem_cons.mp fit
      rw [Evaluator.body, Evaluator.body, statement_congr agree bound head]
      apply (keeps.statement bound head).bind_congr
      rintro ⟨value, following⟩ ⟨_, followingBound⟩
      dsimp only
      rw [ih followingBound tail]

private theorem apply_congr {callee : Value} (holds : kept.Holds callee) {arguments : List Value}
    (each : ∀ argument ∈ arguments, kept.Holds argument) (name : String) (position : Position) :
    other.apply host name callee arguments position =
      one.apply host name callee arguments position := by
  cases callee with
  | function definition captured =>
      obtain ⟨bodyFits, capturedBound⟩ := kept.opened holds
      refine body_congr agree keeps ?_ bodyFits .absent
      apply Bindings.forall_mem_insertAll
      · intro entry member
        exact each entry.2 (List.of_mem_zip member).2
      · exact Bindings.forall_mem_insert holds _ capturedBound
  | _ => rfl

private theorem call_congr (bound : kept.Bound scope) {arguments : List Expr}
    (fit : ∀ argument ∈ arguments, kept.Fits argument) {leading : List Value}
    (before : ∀ value ∈ leading, kept.Holds value) (name : String) (position : Position) :
    other.call host name leading arguments position scope =
      one.call host name leading arguments position scope := by
  have resolved : Ensures (fun _ => True) kept.Holds (Evaluator.resolve name position scope) := by
    unfold Evaluator.resolve
    split
    · next found => exact .pure (Bindings.of_find? bound found)
    · exact .fail trivial _
  apply resolved.bind_congr
  intro callee holds
  rw [all_congr agree bound fit]
  apply (keeps.all bound fit (by simpa using before)).bind_congr
  intro values each
  exact apply_congr agree keeps holds each.2 name position

private theorem pipeInto_congr (bound : kept.Bound scope) {value : Value} (holds : kept.Holds value)
    {right : Expr} (fit : kept.Fits right) (position : Position) :
    other.pipeInto host value right position scope =
      one.pipeInto host value right position scope := by
  have before : ∀ leading ∈ [value], kept.Holds leading := by simpa using holds
  cases right with
  | call name arguments origin =>
      exact call_congr agree keeps bound (fun _ => kept.child fit) before name origin
  | name name origin => exact call_congr agree keeps bound (by simp) before name position
  | _ => rfl

/-- Steps in a scope where the invariant holds lead to such scopes only. -/
theorem step_congr (bound : kept.Bound scope) {item : Expr} (fit : kept.Fits item) :
    other.step host item scope = one.step host item scope := by
  have same (child : Expr) (member : child ∈ item.children) :
      other child scope = one child scope := agree child scope (kept.child fit member) bound
  have inside (child : Expr) (member : child ∈ item.children) : kept.Fits child :=
    kept.child fit member
  cases item with
  | integer | real | text | boolean | name => rfl
  | binary operator left right position =>
      simp only [Expr.children, List.forall_mem_cons] at same
      simp only [Evaluator.step, same.1, same.2.1]
  | record entries position =>
      have fits : ∀ entry ∈ entries, kept.Fits entry.2 := fun entry member =>
        inside entry.2 (List.mem_map_of_mem member)
      simp only [Evaluator.step, fields_congr agree bound fits]
  | access object key position => simp only [Evaluator.step, same object List.mem_cons_self]
  | list items position =>
      have fits : ∀ child ∈ items, kept.Fits child := inside
      simp only [Evaluator.step, all_congr agree bound fits]
  | call name arguments position =>
      exact call_congr agree keeps bound inside (by simp) name position
  | pipe left right position =>
      simp only [Expr.children, List.forall_mem_cons] at inside
      simp only [Evaluator.step, same left List.mem_cons_self]
      apply (keeps inside.1 bound).bind_congr
      intro value holds
      exact pipeInto_congr agree keeps bound holds inside.2.1 position

private theorem runFromBy_congr {program : Program}
    (fit : ∀ next ∈ program, kept.FitsStatement next) {session : Session}
    (bound : kept.Bound session.globals) (last : Value) :
    Session.runFromBy other last session program = Session.runFromBy one last session program := by
  induction program generalizing session last with
  | nil => rfl
  | cons next rest ih =>
      obtain ⟨head, tail⟩ := List.forall_mem_cons.mp fit
      have outcome := keeps.statement bound head session.progress
      rw [Session.runFromBy, Session.runFromBy, statement_congr agree bound head]
      rcases ran : (one.statement session.globals next).run session.progress with ⟨result, after⟩
      rw [ran] at outcome
      cases result with
      | ok found => exact ih tail outcome.2 found.1
      | error failure => rfl

end Invariant

/-!
## Watching
-/

open Classical in
/-- Evaluates an expression, and does what the `alarm` says instead where a value in the scope, or
the value that the expression comes to, is not as it should be. So does every evaluation inside. -/
noncomputable def evaluateWatched (holds : Value → Prop) (alarm : Evaluator) (host : Host) :
    Nat → Evaluator
  | 0, item, _ => Fallible.fail .recursionLimit item.position
  | levels + 1, item, scope =>
      if ∀ entry ∈ scope, holds entry.2 then
        Evaluation.nested item.position do
          let value ← (evaluateWatched holds alarm host levels).step host item scope
          if holds value then pure value else alarm item scope
      else alarm item scope

namespace Invariant

variable {host : Host} {kept : Invariant host}
  (steady : ∀ {scope item value}, kept.Yields scope item value → kept.Holds value)

include steady

private theorem keeps_evaluateWithin (levels : Nat) : kept.Keeps (evaluateWithin host levels) := by
  induction levels with
  | zero => exact fun item scope fit _ => .fail (kept.position fit) _
  | succ levels ih =>
      intro item scope fit bound
      exact .nested (kept.position fit) ((ih.step fit bound).mono fun _ => steady)

/-- A program whose globals the invariant holds of ends with values and globals that it holds of. -/
theorem run_keeps {program : Program} (fit : ∀ next ∈ program, kept.FitsStatement next)
    {session : Session} (bound : kept.Bound session.globals) :
    (∀ value, (session.run host program).1 = .ok value → kept.Holds value) ∧
      kept.Bound (session.run host program).2.globals := by
  have outcome := (keeps_evaluateWithin steady (maxDepth + 1)).runFromBy fit bound kept.absent
  have plain : Session.runFromBy (evaluateWithin host (maxDepth + 1)) .absent session program =
      session.run host program := Session.runFromBy_evaluate host program .absent session
  rw [plain] at outcome
  refine ⟨fun value ended => ?_, outcome.2⟩
  have holds := outcome.1
  rw [ended] at holds
  exact holds

/-- No alarm is raised where the invariant holds. -/
theorem evaluateWatched_eq (alarm : Evaluator) (levels : Nat) (item : Expr) (scope : Scope)
    (fit : kept.Fits item) (bound : kept.Bound scope) :
    evaluateWatched kept.Holds alarm host levels item scope =
      evaluateWithin host levels item scope := by
  induction levels generalizing item scope with
  | zero => rfl
  | succ levels ih =>
      have keeps := keeps_evaluateWithin steady levels
      have entered : ∀ entry ∈ scope, kept.Holds entry.2 := bound
      rw [evaluateWatched, if_pos entered, step_congr ih keeps bound fit, evaluateWithin]
      apply congrArg (Evaluation.nested item.position)
      calc
        _ = (evaluateWithin host levels).step host item scope >>= pure :=
          (keeps.step fit bound).bind_congr fun value yields => if_pos (steady yields)
        _ = _ := bind_pure _

/-- A program whose globals the invariant holds of runs as if it were watched all the way. -/
theorem runFromBy_evaluateWatched (alarm : Evaluator) {program : Program}
    (fit : ∀ next ∈ program, kept.FitsStatement next) {session : Session}
    (bound : kept.Bound session.globals) :
    Session.runFromBy (evaluateWatched kept.Holds alarm host (maxDepth + 1)) .absent session
      program = session.run host program := by
  have keeps := keeps_evaluateWithin steady (maxDepth + 1)
  have agree := evaluateWatched_eq steady alarm (maxDepth + 1)
  rw [runFromBy_congr agree keeps fit bound .absent, Session.run, ← Session.runFromBy_evaluate]
  rfl

end Invariant

end WindowScript
