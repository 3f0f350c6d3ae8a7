import WindowScript.Evaluation.Session
import WindowScript.Proofs.Evaluation.Depth

/-!
# What lasts from run to run

Between runs no evaluation is under way, whatever the runs before came to. A program
therefore runs as it would in a session newly made with the same globals and the same
host, and a program of two parts runs as the two parts do one after the other.
-/

set_option autoImplicit false

namespace WindowScript

private theorem evaluate_statement_orderly (host : Host) (scope : Scope) (next : Statement) :
    Orderly ((evaluate host).statement scope next) :=
  (Orderly.correspondence host).statement (fun _ => evaluate host) (evaluate host)
    (evaluateWithin_orderly host _) scope next

namespace Session

/-- The session that programs leave, run one after the other. A failure ends no more than
the run of its own program. -/
def afterAll (host : Host) : Session → List Program → Session
  | session, [] => session
  | session, program :: rest => afterAll host (session.run host program).2 rest

private theorem runFrom_depth (host : Host) (program : Program) (last : Value) (session : Session) :
    (runFrom host last session program).2.depth = session.depth := by
  induction program generalizing last session with
  | nil => rfl
  | cons next rest ih =>
      have kept := (evaluate_statement_orderly host session.globals next).depth session.progress
      rw [runFrom]
      rcases ran : ((evaluate host).statement session.globals next).run session.progress with
        ⟨result, after⟩
      rw [ran] at kept
      cases result with
      | error failure => exact kept
      | ok answer => exact (ih answer.1 ⟨answer.2, after.history, after.depth⟩).trans kept

private theorem afterAll_depth (host : Host) (programs : List Program) (session : Session) :
    (session.afterAll host programs).depth = session.depth := by
  induction programs generalizing session with
  | nil => rfl
  | cons program rest ih =>
      exact (ih (session.run host program).2).trans (runFrom_depth host program .absent session)

/-- A session that no evaluation has left unfinished is like a newly made one. -/
theorem eq_opened {session : Session} (idle : session.depth = 0) :
    session = opened session.globals session.history := by
  obtain ⟨globals, history, depth⟩ := session
  cases idle
  rfl

private theorem runFrom_append (host : Host) (first second : Program) (last : Value)
    (session : Session) : runFrom host last session (first ++ second) =
      match runFrom host last session first with
      | (.ok value, after) => runFrom host value after second
      | (.error failure, after) => (.error failure, after) := by
  induction first generalizing last session with
  | nil => rfl
  | cons next rest ih =>
      rw [List.cons_append, runFrom, runFrom]
      rcases ((evaluate host).statement session.globals next).run session.progress with
        ⟨result, after⟩
      cases result with
      | error failure => rfl
      | ok answer => exact ih answer.1 ⟨answer.2, after.history, after.depth⟩

/-- What came before counts only where no statement follows. -/
theorem runFrom_eq (host : Host) (program : Program) (last : Value) (session : Session) :
    runFrom host last session program =
      if program.isEmpty then (.ok last, session) else session.run host program := by
  cases program with
  | nil => rfl
  | cons next rest => rfl

end Session

/-- Whatever programs ran before in a session, and however they ended, the next one runs as
in a newly made session with the same globals and a host with the same history. Two programs
run as one when the second is run behind the first, unless that has failed. -/
theorem session_forgets_all_but_globals_and_history (host : Host) :
    (∀ (globals : Scope) (history : History) (earlier : List Program) (program : Program),
      let session := (Session.opened globals history).afterAll host earlier
      session.run host program =
        (Session.opened session.globals session.history).run host program) ∧
    ∀ (session : Session) (first second : Program),
      session.run host (first ++ second) =
        match session.run host first with
        | (.ok value, after) =>
            if second.isEmpty then (.ok value, after) else after.run host second
        | (.error failure, after) => (.error failure, after) := by
  constructor
  · intro globals history earlier program session
    have idle : session.depth = 0 := Session.afterAll_depth host earlier (.opened globals history)
    exact congrArg (fun session => Session.run host session program) (Session.eq_opened idle)
  · intro session first second
    rw [Session.run, Session.runFrom_append]
    change (match session.run host first with
      | (.ok value, after) => Session.runFrom host value after second
      | (.error failure, after) => (.error failure, after)) = _
    rcases session.run host first with ⟨result, after⟩
    cases result with
    | error failure => rfl
    | ok value => exact Session.runFrom_eq host second value after

end WindowScript
