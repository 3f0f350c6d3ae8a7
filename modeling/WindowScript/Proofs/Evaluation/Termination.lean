import WindowScript.Proofs.Evaluation.Sessions

/-!
# Evaluation ends

Functions can be passed to one another and to themselves, so that nothing in a program says
how far calls go inside each other. The count of evaluations does, since every way back into
evaluation counts one more. An evaluation that may go no further than a budget allows, of which
every evaluation inside another one spends one, therefore never comes to the end of a budget
that is greater by one than the room the count has left.
-/

set_option autoImplicit false

namespace WindowScript

/-- Evaluates with a budget, one of which goes on every evaluation inside another one. What is
done where nothing of it is left is up to `spent`; a failure there would be the outcome of the
whole run, as none is ever caught. -/
def evaluateBudgeted (spent : Evaluator) (host : Host) : Nat → Evaluator
  | 0, item, scope => spent item scope
  | budget + 1, item, scope =>
      Evaluation.nested item.position ((evaluateBudgeted spent host budget).step host item scope)

theorem evaluateWithin_eq_budgeted (host : Host) (levels : Nat) :
    evaluateWithin host levels =
      evaluateBudgeted (fun item _ => Fallible.fail .recursionLimit item.position) host levels := by
  induction levels with
  | zero => rfl
  | succ levels ih =>
      funext item scope
      rw [evaluateWithin, evaluateBudgeted, ih]

/-!
## Computations that begin at one depth
-/

/-- Two computations that do the same where they begin at some depth, and leave it as it was. -/
structure AlikeAt (depth : Nat) {α : Type} (one other : Evaluation α) : Prop where
  same : ∀ history, one.run ⟨history, depth⟩ = other.run ⟨history, depth⟩
  depth : ∀ history, (one.run ⟨history, depth⟩).2.depth = depth

namespace AlikeAt

variable {depth : Nat} {α β : Type}

private theorem of_orderly {action : Evaluation α} (orderly : Orderly action) :
    AlikeAt depth action action :=
  ⟨fun _ => rfl, fun history => orderly.depth ⟨history, depth⟩⟩

private theorem exists_run_eq {one other : Evaluation α} (alike : AlikeAt depth one other)
    (history : History) :
    ∃ result reached, one.run ⟨history, depth⟩ = (result, ⟨reached, depth⟩) ∧
      other.run ⟨history, depth⟩ = (result, ⟨reached, depth⟩) := by
  have same := alike.same history
  have kept := alike.depth history
  rcases ended : one.run ⟨history, depth⟩ with ⟨result, reached, after⟩
  rw [ended] at same kept
  cases kept
  exact ⟨result, reached, rfl, same.symm⟩

private theorem bind {one other : Evaluation α} {onward further : α → Evaluation β}
    (begun : AlikeAt depth one other) (next : ∀ value, AlikeAt depth (onward value) (further value)) :
    AlikeAt depth (one >>= onward) (other >>= further) := by
  have both (history : History) :
      (one >>= onward).run ⟨history, depth⟩ = (other >>= further).run ⟨history, depth⟩ ∧
        ((one >>= onward).run ⟨history, depth⟩).2.depth = depth := by
    obtain ⟨result, reached, here, there⟩ := begun.exists_run_eq history
    rw [Fallible.run_bind, Fallible.run_bind, here, there]
    cases result with
    | error failure => exact ⟨rfl, rfl⟩
    | ok value => exact ⟨(next value).same reached, (next value).depth reached⟩
  exact ⟨fun history => (both history).1, fun history => (both history).2⟩

/-- An evaluation inside begins one deeper, and not at all where the count is full. -/
theorem nested {inner other : Evaluation α}
    (deeper : depth < maxDepth → AlikeAt (depth + 1) inner other) (position : Position) :
    AlikeAt depth (Evaluation.nested position inner) (Evaluation.nested position other) := by
  by_cases room : depth < maxDepth
  · have inside := deeper room
    constructor
    · intro history
      rw [Evaluation.run_nested_of_lt room, Evaluation.run_nested_of_lt room, inside.same]
    · intro history
      rw [Evaluation.run_nested_of_lt room]
      exact congrArg (· - 1) (inside.depth history)
  · have full := Nat.not_lt.mp room
    constructor
    · intro history
      rw [Evaluation.run_nested_of_le full, Evaluation.run_nested_of_le full]
    · intro history
      rw [Evaluation.run_nested_of_le full]

def correspondence (depth : Nat) (host : Host) : Correspondence Unit host where
  Rel := fun one other => AlikeAt depth (one ()) other
  pure := fun value => of_orderly (.pure value)
  fail := fun cause position => of_orderly (.fail cause position)
  bind := bind
  builtin := fun builtin arguments position => of_orderly (.builtin host builtin arguments position)

end AlikeAt

/-- Neither how much of a budget is more than enough nor what follows its end makes a difference.
The induction is on one of the two budgets; as it goes down by one the depth goes up by one. -/
theorem evaluateBudgeted_alikeAt (host : Host) (spent finished : Evaluator)
    {depth budget more : Nat} (within : depth ≤ maxDepth) (enough : maxDepth + 1 - depth ≤ budget)
    (plenty : maxDepth + 1 - depth ≤ more) (item : Expr) (scope : Scope) :
    AlikeAt depth (evaluateBudgeted spent host budget item scope)
      (evaluateBudgeted finished host more item scope) := by
  induction budget generalizing depth more item scope with
  | zero => omega
  | succ budget ih =>
      cases more with
      | zero => omega
      | succ more =>
          refine AlikeAt.nested (fun room => ?_) item.position
          exact (AlikeAt.correspondence (depth + 1) host).step
            (fun _ => evaluateBudgeted spent host budget) (evaluateBudgeted finished host more)
            (ih (by omega) (by omega) (by omega)) item scope

theorem evaluateBudgeted_alikeAt_evaluate (host : Host) (spent : Evaluator) {depth budget : Nat}
    (within : depth ≤ maxDepth) (enough : maxDepth + 1 - depth ≤ budget) (item : Expr)
    (scope : Scope) :
    AlikeAt depth (evaluateBudgeted spent host budget item scope) (evaluate host item scope) := by
  rw [evaluate, evaluateWithin_eq_budgeted]
  exact evaluateBudgeted_alikeAt host spent _ within enough (Nat.sub_le _ _) item scope

/-!
## Programs
-/

namespace Session

/-- Runs statements in order, with the expressions in them evaluated by `evaluate`. -/
def runFromBy (evaluate : Evaluator) :
    Value → Session → Program → Except RuntimeError Value × Session
  | last, session, [] => (.ok last, session)
  | _, session, next :: rest =>
      match (evaluate.statement session.globals next).run session.progress with
      | (.ok (value, globals), after) =>
          runFromBy evaluate value ⟨globals, after.history, after.depth⟩ rest
      | (.error failure, after) =>
          (.error failure, ⟨session.globals, after.history, after.depth⟩)

theorem runFromBy_evaluate (host : Host) (program : Program) (last : Value) (session : Session) :
    runFromBy (evaluate host) last session program = runFrom host last session program := by
  induction program generalizing last session with
  | nil => rfl
  | cons next rest ih =>
      rw [runFromBy, runFrom]
      rcases ((evaluate host).statement session.globals next).run session.progress with
        ⟨result, after⟩
      cases result with
      | error failure => rfl
      | ok answer => exact ih answer.1 ⟨answer.2, after.history, after.depth⟩

private theorem runFromBy_congr {one other : Evaluator} {depth : Nat}
    (alike : ∀ item scope, AlikeAt depth (one item scope) (other item scope)) (host : Host)
    (program : Program) (last : Value) (globals : Scope) (history : History) :
    runFromBy one last ⟨globals, history, depth⟩ program =
      runFromBy other last ⟨globals, history, depth⟩ program := by
  induction program generalizing last globals history with
  | nil => rfl
  | cons next rest ih =>
      have begun := (AlikeAt.correspondence depth host).statement (fun _ => one) other alike
        globals next
      obtain ⟨result, reached, here, there⟩ := begun.exists_run_eq history
      rw [runFromBy, runFromBy, progress, here, there]
      cases result with
      | error failure => rfl
      | ok answer => exact ih answer.1 answer.2 reached

end Session

/-- Whatever the scope, the functions in it and the host, an evaluation that begins at a depth
within the limit never comes to the end of a budget of one more than the limit leaves it, nor of
any greater one, as it does the same whatever would be done there: it ends with the value or the
failure that evaluation without a budget has. So does a statement, a call of any value, and a
whole program. -/
theorem evaluation_ends_within_budget (host : Host) (spent : Evaluator) {depth budget : Nat}
    (within : depth ≤ maxDepth) (enough : maxDepth + 1 - depth ≤ budget) (history : History) :
    let budgeted := evaluateBudgeted spent host budget
    (∀ item scope, (budgeted item scope).run ⟨history, depth⟩ =
      (evaluate host item scope).run ⟨history, depth⟩) ∧
    (∀ scope next, (budgeted.statement scope next).run ⟨history, depth⟩ =
      ((evaluate host).statement scope next).run ⟨history, depth⟩) ∧
    (∀ name callee arguments position,
      (budgeted.apply host name callee arguments position).run ⟨history, depth⟩ =
        ((evaluate host).apply host name callee arguments position).run ⟨history, depth⟩) ∧
    ∀ globals program, Session.runFromBy budgeted .absent ⟨globals, history, depth⟩ program =
      Session.run host ⟨globals, history, depth⟩ program := by
  intro budgeted
  have alike : ∀ item scope, AlikeAt depth (budgeted item scope) (evaluate host item scope) :=
    evaluateBudgeted_alikeAt_evaluate host spent within enough
  refine ⟨?_, ?_, ?_, ?_⟩
  · intro item scope
    exact (alike item scope).same history
  · intro scope next
    have stated := (AlikeAt.correspondence depth host).statement (fun _ => budgeted)
      (evaluate host) alike scope next
    exact stated.same history
  · intro name callee arguments position
    have applied := (AlikeAt.correspondence depth host).apply (fun _ => budgeted)
      (evaluate host) alike name callee arguments position
    exact applied.same history
  · intro globals program
    rw [Session.run, ← Session.runFromBy_evaluate]
    exact Session.runFromBy_congr alike host program .absent globals history

/-- The function of `func again(g) { g(g) }`. -/
def callsItsArgument : Function :=
  ⟨"again", ["g"], [.expression (.call "g" [.name "g" ⟨1, 19⟩] ⟨1, 17⟩) ⟨1, 17⟩], ⟨1, 1⟩⟩

theorem evaluation_ends_within_budget_callsItsArgument :
    195 ≤ maxDepth ∧ maxDepth + 1 - 195 ≤ 6 ∧
      (evaluateBudgeted (fun _ _ => pure .absent) .quiet 6
          (.call "again" [.name "again" ⟨2, 7⟩] ⟨2, 1⟩)
          [("again", .function callsItsArgument [])]).run ⟨[], 195⟩ =
        (.error ⟨.recursionLimit, ⟨1, 19⟩⟩, ⟨[], 195⟩) := by
  have within : 195 ≤ maxDepth := by decide
  have enough : maxDepth + 1 - 195 ≤ 6 := by decide
  refine ⟨within, enough, ?_⟩
  rw [(evaluation_ends_within_budget .quiet _ within enough []).1]
  rfl

end WindowScript
