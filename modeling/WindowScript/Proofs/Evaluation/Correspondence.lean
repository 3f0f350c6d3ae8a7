import Mathlib.Data.List.Forall2
import WindowScript.Evaluation.Evaluate

/-!
# Evaluators side by side

Evaluation puts its parts together only in sequence, and reaches the host only through
builtins. A relation that agrees with both therefore passes from evaluators to the evaluations
that are built on them. It relates one computation to any number of others at once, mostly to
just one.
-/

set_option autoImplicit false

namespace WindowScript

/-- A relation of several computations to one that sequencing and the builtins keep. -/
structure Correspondence (Index : Type) (host : Host) where
  Rel : {α : Type} → (Index → Evaluation α) → Evaluation α → Prop
  pure : ∀ {α : Type} (value : α), Rel (fun _ => Pure.pure value) (Pure.pure value)
  fail : ∀ {α : Type} (cause : RuntimeCause) (position : Position),
    Rel (fun _ => (Fallible.fail cause position : Evaluation α)) (Fallible.fail cause position)
  bind : ∀ {α β : Type} {first : Index → Evaluation α} {second : Evaluation α}
      {onward : Index → α → Evaluation β} {further : α → Evaluation β},
    Rel first second → (∀ value, Rel (fun index => onward index value) (further value)) →
      Rel (fun index => first index >>= onward index) (second >>= further)
  builtin : ∀ (builtin : Builtin) (arguments : List Value) (position : Position),
    Rel (fun _ => Evaluation.ofHost (builtin.call host arguments position))
      (Evaluation.ofHost (builtin.call host arguments position))

namespace Correspondence

variable {Index : Type} {host : Host} (alike : Correspondence Index host)
  (left : Index → Evaluator) (right : Evaluator)

theorem place {α : Type} (position : Position) (result : Except RuntimeCause α) :
    alike.Rel (fun _ => Fallible.place position result) (Fallible.place position result) := by
  cases result with
  | ok value => exact alike.pure value
  | error cause => exact alike.fail cause position

/-- Lists of expressions correspond when they do so one by one. -/
theorem all {scope : Scope} {items others : List Expr}
    (each : List.Forall₂ (fun item other =>
      alike.Rel (fun index => left index item scope) (right other scope)) items others)
    (values : List Value) :
    alike.Rel (fun index => (left index).all scope values items)
      (right.all scope values others) := by
  induction each generalizing values with
  | nil => exact alike.pure _
  | cons first _ ih => exact alike.bind first fun value => ih (value :: values)

theorem fields {scope : Scope} {entries others : List (String × Expr)}
    (each : List.Forall₂ (fun entry other => entry.1 = other.1 ∧
      alike.Rel (fun index => left index entry.2 scope) (right other.2 scope)) entries others)
    (bound : List (String × Value)) :
    alike.Rel (fun index => (left index).fields scope bound entries)
      (right.fields scope bound others) := by
  induction each generalizing bound with
  | nil => exact alike.pure _
  | @cons entry other _ _ first _ ih =>
      obtain ⟨name, item⟩ := entry
      obtain ⟨_, otherItem⟩ := other
      obtain ⟨rfl, first⟩ := first
      exact alike.bind first fun value => ih (Bindings.insert name value bound)

section

variable (agree : ∀ item scope,
  alike.Rel (fun index => left index item scope) (right item scope))

include agree

theorem statement (scope : Scope) (next : Statement) :
    alike.Rel (fun index => (left index).statement scope next) (right.statement scope next) := by
  cases next with
  | binding name item position => exact alike.bind (agree item scope) fun value => alike.pure _
  | function name parameters body position => exact alike.pure _
  | returning item position => exact alike.bind (agree item scope) fun value => alike.pure _
  | gui described => exact alike.pure _
  | expression item position => exact alike.bind (agree item scope) fun value => alike.pure _

theorem body (statements : List Statement) (last : Value) (scope : Scope) :
    alike.Rel (fun index => (left index).body last scope statements)
      (right.body last scope statements) := by
  induction statements generalizing last scope with
  | nil => exact alike.pure _
  | cons next rest ih =>
      apply alike.bind (alike.statement left right agree scope next)
      rintro ⟨value, following⟩
      dsimp only
      split
      · exact alike.pure value
      · exact ih value following

theorem apply (name : String) (callee : Value) (arguments : List Value) (position : Position) :
    alike.Rel (fun index => (left index).apply host name callee arguments position)
      (right.apply host name callee arguments position) := by
  cases callee with
  | function definition captured => exact alike.body left right agree definition.body .absent _
  | builtin builtin => exact alike.builtin builtin arguments position
  | _ => exact alike.fail _ position

theorem call {scope : Scope} {arguments others : List Expr}
    (each : List.Forall₂ (fun item other =>
      alike.Rel (fun index => left index item scope) (right other scope)) arguments others)
    (name : String) (leading : List Value) (position : Position) :
    alike.Rel (fun index => (left index).call host name leading arguments position scope)
      (right.call host name leading others position scope) := by
  have resolved : alike.Rel (fun _ => Evaluator.resolve name position scope)
      (Evaluator.resolve name position scope) := by
    unfold Evaluator.resolve
    split
    · exact alike.pure _
    · exact alike.fail _ position
  apply alike.bind resolved
  intro callee
  apply alike.bind (alike.all left right each leading.reverse)
  intro values
  exact alike.apply left right agree name callee values position

theorem pipeInto (value : Value) (next : Expr) (position : Position) (scope : Scope) :
    alike.Rel (fun index => (left index).pipeInto host value next position scope)
      (right.pipeInto host value next position scope) := by
  have same (items : List Expr) :
      List.Forall₂ (fun item other =>
        alike.Rel (fun index => left index item scope) (right other scope)) items items :=
    List.forall₂_same.mpr fun item _ => agree item scope
  cases next with
  | call name arguments origin => exact alike.call left right agree (same arguments) name [value] origin
  | name name origin => exact alike.call left right agree (same []) name [value] position
  | _ => exact alike.pure value

/-- One round of evaluation keeps the relation. -/
theorem step (item : Expr) (scope : Scope) :
    alike.Rel (fun index => (left index).step host item scope) (right.step host item scope) := by
  have same (items : List Expr) :
      List.Forall₂ (fun item other =>
        alike.Rel (fun index => left index item scope) (right other scope)) items items :=
    List.forall₂_same.mpr fun item _ => agree item scope
  cases item with
  | integer value position => exact alike.pure _
  | real value position => exact alike.pure _
  | text value position => exact alike.pure _
  | boolean value position => exact alike.pure _
  | name name position =>
      unfold Evaluator.step
      dsimp only
      split
      · exact alike.pure _
      · exact alike.fail _ position
  | binary operator first second position =>
      apply alike.bind (agree first scope)
      intro one
      apply alike.bind (agree second scope)
      intro other
      exact alike.place position _
  | record entries position =>
      refine alike.bind (alike.fields left right (List.forall₂_same.mpr ?_) []) fun bound =>
        alike.pure _
      exact fun entry _ => ⟨rfl, agree entry.2 scope⟩
  | access object key position =>
      exact alike.bind (agree object scope) fun value => alike.place position _
  | list items position =>
      exact alike.bind (alike.all left right (same items) []) fun values => alike.pure _
  | call name arguments position =>
      exact alike.call left right agree (same arguments) name [] position
  | pipe first next position =>
      apply alike.bind (agree first scope)
      intro value
      exact alike.pipeInto left right agree value next position scope

end

end Correspondence

end WindowScript
