import WindowScript.Proofs.Evaluation.Builtins
import WindowScript.Proofs.Evaluation.Termination
import WindowScript.Proofs.Program.Vocabulary
import WindowScript.Proofs.Value.Bindings

/-!
# Invariants of evaluation

There are few ways for a value to arise: from a literal, a list, a record, an attribute, an
operator, a function or a builtin. What each of them keeps, a whole evaluation keeps, through the
bodies of functions that were captured elsewhere and from each statement of a program to the next.
-/

set_option autoImplicit false

namespace WindowScript

/-!
## Computations
-/

namespace Evaluation

variable {α β : Type} {allowed : Position → Prop} {good : α → Prop} {fine : β → Prop}

/-- From whatever progress it starts, a computation ends with a good result or fails at an
allowed position. -/
def Ensures (allowed : Position → Prop) (good : α → Prop) (action : Evaluation α) : Prop :=
  ∀ progress,
    match (action.run progress).1 with
    | .ok value => good value
    | .error failure => allowed failure.position

namespace Ensures

theorem pure {value : α} (holds : good value) :
    Ensures allowed good (Pure.pure value : Evaluation α) := fun _ => holds

theorem fail {position : Position} (here : allowed position) (cause : RuntimeCause) :
    Ensures allowed good (Fallible.fail cause position : Evaluation α) := fun _ => here

theorem mono {better : α → Prop} {action : Evaluation α} (ensured : Ensures allowed good action)
    (weaker : ∀ value, good value → better value) : Ensures allowed better action := by
  intro progress
  have outcome := ensured progress
  cases result : (action.run progress).1 with
  | ok value => rw [result] at outcome; exact weaker value outcome
  | error failure => rw [result] at outcome; exact outcome

theorem bind {first : Evaluation α} {next : α → Evaluation β}
    (ensured : Ensures allowed good first)
    (onward : ∀ value, good value → Ensures allowed fine (next value)) :
    Ensures allowed fine (first >>= next) := by
  intro progress
  have outcome := ensured progress
  rw [Fallible.run_bind]
  rcases ran : first.run progress with ⟨result, after⟩
  rw [ran] at outcome
  cases result with
  | ok value => exact onward value outcome after
  | error failure => exact outcome

theorem place {result : Except RuntimeCause α} {position : Position} (here : allowed position)
    (holds : ∀ value, result = .ok value → good value) :
    Ensures allowed good (Fallible.place position result : Evaluation α) := by
  cases result with
  | ok value => exact .pure (holds value rfl)
  | error cause => exact .fail here cause

theorem nested {position : Position} {inner : Evaluation α} (here : allowed position)
    (ensured : Ensures allowed good inner) : Ensures allowed good (nested position inner) := by
  intro progress
  rcases Nat.lt_or_ge progress.depth maxDepth with room | full
  · rw [run_nested_of_lt room]
    exact ensured _
  · rw [run_nested_of_le full]
    exact here

theorem builtin {position : Position} (here : allowed position) {host : Host}
    {builtin : Builtin} {arguments : List Value} {good : Value → Prop}
    (holds : ∀ history value,
      ((builtin.call host arguments position).run history).1 = .ok value → good value) :
    Ensures allowed good (ofHost (builtin.call host arguments position)) := by
  intro progress
  have answers := builtin.call_answers host position progress.history arguments
  rw [run_ofHost]
  cases outcome : ((builtin.call host arguments position).run progress.history).1 with
  | ok value => exact holds progress.history value outcome
  | error failure =>
      have placed := answers.placed failure outcome
      subst placed
      exact here

end Ensures

end Evaluation

/-!
## What is kept
-/

/-- The value of a literal. -/
def Expr.literal? : Expr → Option Value
  | .integer value _ => some (.integer value)
  | .real value _ => some (.real value)
  | .text value _ => some (.text value)
  | .boolean value _ => some (.boolean value)
  | _ => none

/-- The name of what an expression calls, be it with a value that is passed on to it. -/
def Expr.callee? : Expr → Option String
  | .call callee _ _ | .pipe _ (.call callee _ _) _ | .pipe _ (.name callee _) _ => some callee
  | _ => none

/-- What is asked of the expressions that are evaluated and kept of the values they have. One step
of evaluation may keep less, which is made good before the value is used. -/
structure Invariant (host : Host) where
  Allowed : Position → Prop
  Fits : Expr → Prop
  FitsStatement : Statement → Prop
  Holds : Value → Prop
  /-- What one step keeps of the value that it has for an expression in a scope. -/
  Yields : Scope → Expr → Value → Prop
  position : ∀ {item}, Fits item → Allowed item.position
  child : ∀ {item child}, Fits item → child ∈ item.children → Fits child
  binding : ∀ {name item position}, FitsStatement (.binding name item position) → Fits item
  returning : ∀ {item position}, FitsStatement (.returning item position) → Fits item
  expression : ∀ {item position}, FitsStatement (.expression item position) → Fits item
  body : ∀ {name parameters statements position},
    FitsStatement (.function name parameters statements position) →
      ∀ next ∈ statements, FitsStatement next
  absent : Holds .absent
  gui : ∀ described, Holds (.gui described)
  function : ∀ {definition captured}, (∀ next ∈ definition.body, FitsStatement next) →
    (∀ entry ∈ captured, Holds entry.2) → Holds (.function definition captured)
  opened : ∀ {definition captured}, Holds (.function definition captured) →
    (∀ next ∈ definition.body, FitsStatement next) ∧ ∀ entry ∈ captured, Holds entry.2
  reads : ∀ {key object value}, Holds object → Evaluator.readAttribute key object = .ok value →
    Holds value
  yields : ∀ {scope item value}, Holds value → Yields scope item value
  literal : ∀ {scope item value}, Fits item → item.literal? = some value → Yields scope item value
  list : ∀ {scope items position values}, Fits (.list items position) →
    values.length = items.length → (∀ value ∈ values, Holds value) →
    Yields scope (.list items position) (.list values)
  record : ∀ {scope item entries}, Bindings.Sorted entries → (∀ entry ∈ entries, Holds entry.2) →
    Yields scope item (.record entries)
  operation : ∀ {scope operator first second position left right value}, Holds left → Holds right →
    Operator.apply operator left right = .ok value →
    Yields scope (.binary operator first second position) value
  builtin : ∀ {scope item name builtin arguments position history value},
    item.callee? = some name → Bindings.find? name scope = some (.builtin builtin) →
    (∀ argument ∈ arguments, Holds argument) →
    ((Builtin.call host builtin arguments position).run history).1 = .ok value →
    Yields scope item value

namespace Invariant

open Evaluation

variable {host : Host} (kept : Invariant host)

/-- What is kept of the names of a scope. -/
def Bound (scope : Scope) : Prop := ∀ entry ∈ scope, kept.Holds entry.2

/-- An evaluator that keeps the invariant. -/
def Keeps (evaluate : Evaluator) : Prop :=
  ∀ ⦃item : Expr⦄ ⦃scope : Scope⦄, kept.Fits item → kept.Bound scope →
    Ensures kept.Allowed kept.Holds (evaluate item scope)

end Invariant

/-!
## Evaluators
-/

namespace Invariant.Keeps

open Evaluation

variable {host : Host} {kept : Invariant host} {evaluate : Evaluator}
  (keeps : kept.Keeps evaluate) {scope : Scope}
  (bound : kept.Bound scope)

include keeps

section

include bound

theorem all {items : List Expr} (fit : ∀ item ∈ items, kept.Fits item) {values : List Value}
    (before : ∀ value ∈ values, kept.Holds value) :
    Ensures kept.Allowed
      (fun found => found.length = values.length + items.length ∧
        ∀ value ∈ found, kept.Holds value)
      (evaluate.all scope values items) := by
  induction items generalizing values with
  | nil => exact .pure ⟨by simp, fun value member => before value (List.mem_reverse.mp member)⟩
  | cons item rest ih =>
      obtain ⟨head, tail⟩ := List.forall_mem_cons.mp fit
      apply (keeps head bound).bind
      intro value holds
      refine (ih tail (List.forall_mem_cons.mpr ⟨holds, before⟩)).mono ?_
      intro found each
      refine ⟨?_, each.2⟩
      rw [each.1, List.length_cons, List.length_cons]
      omega

theorem fields {entries : List (String × Expr)} (fit : ∀ entry ∈ entries, kept.Fits entry.2)
    {made : List (String × Value)} (sorted : Bindings.Sorted made)
    (before : ∀ entry ∈ made, kept.Holds entry.2) :
    Ensures kept.Allowed
      (fun found => Bindings.Sorted found ∧ ∀ entry ∈ found, kept.Holds entry.2)
      (evaluate.fields scope made entries) := by
  induction entries generalizing made with
  | nil => exact .pure ⟨sorted, before⟩
  | cons entry rest ih =>
      obtain ⟨head, tail⟩ := List.forall_mem_cons.mp fit
      apply (keeps head bound).bind
      intro value holds
      exact ih tail (sorted.insert entry.1 value) (Bindings.forall_mem_insert holds entry.1 before)

theorem statement {next : Statement} (fit : kept.FitsStatement next) :
    Ensures kept.Allowed (fun found => kept.Holds found.1 ∧ kept.Bound found.2)
      (evaluate.statement scope next) := by
  cases next with
  | binding name item position =>
      apply (keeps (kept.binding fit) bound).bind
      intro found holds
      exact .pure ⟨holds, Bindings.forall_mem_insert holds name bound⟩
  | function name parameters body position =>
      have made : kept.Holds (.function ⟨name, parameters, body, position⟩ scope) :=
        kept.function (kept.body fit) bound
      exact .pure ⟨made, Bindings.forall_mem_insert made name bound⟩
  | returning item position =>
      exact (keeps (kept.returning fit) bound).bind fun found holds => .pure ⟨holds, bound⟩
  | gui described => exact .pure ⟨kept.gui described, bound⟩
  | expression item position =>
      exact (keeps (kept.expression fit) bound).bind fun found holds => .pure ⟨holds, bound⟩

theorem body {statements : List Statement} (fit : ∀ next ∈ statements, kept.FitsStatement next)
    {last : Value} (holds : kept.Holds last) :
    Ensures kept.Allowed kept.Holds (evaluate.body last scope statements) := by
  induction statements generalizing last scope with
  | nil => exact .pure holds
  | cons next rest ih =>
      obtain ⟨head, tail⟩ := List.forall_mem_cons.mp fit
      apply (keeps.statement bound head).bind
      rintro ⟨value, following⟩ ⟨valueHolds, followingBound⟩
      dsimp only
      split
      · exact .pure valueHolds
      · exact ih followingBound tail valueHolds

end

/-- A closure is evaluated in the scope that it captured and not in that of the caller. -/
theorem apply {callee : Value} (holds : kept.Holds callee) {arguments : List Value}
    (each : ∀ argument ∈ arguments, kept.Holds argument) {position : Position}
    (here : kept.Allowed position) (name : String) {good : Value → Prop}
    (weaker : ∀ value, kept.Holds value → good value)
    (answers : ∀ builtin history value, callee = .builtin builtin →
      ((builtin.call host arguments position).run history).1 = .ok value → good value) :
    Ensures kept.Allowed good (evaluate.apply host name callee arguments position) := by
  cases callee with
  | function definition captured =>
      obtain ⟨bodyFits, capturedBound⟩ := kept.opened holds
      refine (keeps.body ?_ bodyFits kept.absent).mono weaker
      apply Bindings.forall_mem_insertAll
      · intro entry member
        exact each entry.2 (List.of_mem_zip member).2
      · exact Bindings.forall_mem_insert holds _ capturedBound
  | builtin builtin =>
      exact .builtin here fun history value answered => answers builtin history value rfl answered
  | _ => exact .fail here _

/-- A call is a step of the expression `whole` that calls the name. -/
theorem call (bound : kept.Bound scope) {arguments : List Expr}
    (fit : ∀ argument ∈ arguments, kept.Fits argument) {leading : List Value}
    (before : ∀ value ∈ leading, kept.Holds value) {position : Position}
    (here : kept.Allowed position) {name : String} {whole : Expr}
    (calls : whole.callee? = some name) :
    Ensures kept.Allowed (kept.Yields scope whole)
      (evaluate.call host name leading arguments position scope) := by
  unfold Evaluator.call Evaluator.resolve
  cases found : Bindings.find? name scope with
  | none => exact .bind (.fail here _) (fun _ (impossible : False) => impossible.elim)
  | some callee =>
      have holds : kept.Holds callee := Bindings.of_find? bound found
      have known : Ensures kept.Allowed (· = callee) (Pure.pure callee) := .pure rfl
      refine known.bind ?_
      rintro _ rfl
      apply (keeps.all bound fit (by simpa using before)).bind
      intro values each
      refine keeps.apply holds each.2 here name (fun _ => kept.yields) ?_
      rintro builtin history value rfl answered
      exact kept.builtin calls found each.2 answered

theorem pipeInto (bound : kept.Bound scope) {value : Value} (holds : kept.Holds value)
    {left right : Expr} (fit : kept.Fits right) {position : Position}
    (here : kept.Allowed position) :
    Ensures kept.Allowed (kept.Yields scope (.pipe left right position))
      (evaluate.pipeInto host value right position scope) := by
  have before : ∀ leading ∈ [value], kept.Holds leading := by simpa using holds
  cases right with
  | call name arguments origin =>
      exact keeps.call bound (fun _ => kept.child fit) before (kept.position fit) rfl
  | name name origin => exact keeps.call bound (by simp) before here rfl
  | _ => exact .pure (kept.yields holds)

theorem step {item : Expr} (fit : kept.Fits item) (bound : kept.Bound scope) :
    Ensures kept.Allowed (kept.Yields scope item) (evaluate.step host item scope) := by
  have here := kept.position fit
  have inside (child : Expr) (member : child ∈ item.children) : kept.Fits child :=
    kept.child fit member
  cases item with
  | integer value position => exact .pure (kept.literal fit rfl)
  | real value position => exact .pure (kept.literal fit rfl)
  | text value position => exact .pure (kept.literal fit rfl)
  | boolean value position => exact .pure (kept.literal fit rfl)
  | name name position =>
      unfold Evaluator.step
      dsimp only
      split
      · next found => exact .pure (kept.yields (Bindings.of_find? bound found))
      · exact .fail here _
  | binary operator left right position =>
      simp only [Expr.children, List.forall_mem_cons] at inside
      apply (keeps inside.1 bound).bind
      intro first firstHolds
      apply (keeps inside.2.1 bound).bind
      intro second secondHolds
      exact .place here fun value => kept.operation firstHolds secondHolds
  | record entries position =>
      have fits : ∀ entry ∈ entries, kept.Fits entry.2 := fun entry member =>
        inside entry.2 (List.mem_map_of_mem member)
      apply (keeps.fields bound fits .nil (by simp)).bind
      intro made each
      exact .pure (kept.record each.1 each.2)
  | access object key position =>
      apply (keeps (inside object List.mem_cons_self) bound).bind
      intro value holds
      exact .place here fun found read => kept.yields (kept.reads holds read)
  | list items position =>
      have fits : ∀ child ∈ items, kept.Fits child := inside
      apply (keeps.all bound fits (by simp)).bind
      intro values each
      exact .pure (kept.list fit (by simpa using each.1) each.2)
  | call name arguments position => exact keeps.call bound inside (by simp) here rfl
  | pipe left right position =>
      simp only [Expr.children, List.forall_mem_cons] at inside
      apply (keeps inside.1 bound).bind
      intro value holds
      exact keeps.pipeInto bound holds inside.2.1 here

/-!
## Programs
-/

/-- The globals that a program binds are values like any other, so that each statement of the
program starts from what the one before has kept. A failure leaves them as they were. -/
theorem runFromBy {program : Program} (fit : ∀ next ∈ program, kept.FitsStatement next)
    {session : Session} (bound : kept.Bound session.globals) {last : Value}
    (holds : kept.Holds last) :
    (match (Session.runFromBy evaluate last session program).1 with
      | .ok value => kept.Holds value
      | .error failure => kept.Allowed failure.position) ∧
      kept.Bound (Session.runFromBy evaluate last session program).2.globals := by
  induction program generalizing session last with
  | nil => exact ⟨holds, bound⟩
  | cons next rest ih =>
      obtain ⟨head, tail⟩ := List.forall_mem_cons.mp fit
      have outcome := keeps.statement bound head session.progress
      rw [Session.runFromBy]
      rcases ran : (evaluate.statement session.globals next).run session.progress with
        ⟨result, after⟩
      rw [ran] at outcome
      cases result with
      | ok found => exact ih tail outcome.2 outcome.1
      | error failure => exact ⟨outcome, bound⟩

end Invariant.Keeps

end WindowScript
