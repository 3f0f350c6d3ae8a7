import WindowScript.Evaluation.Evaluate

/-!
# Sessions

Programs run one after the other in a session share its global names, its history with
the host and its count of evaluations.
-/

set_option autoImplicit false

namespace WindowScript

/-- What lasts from one program to the next, the count of evaluations under way among it. -/
structure Session where
  globals : Scope
  history : History
  depth : Nat

namespace Session

/-- A newly made session that has given globals and a host with a given history. -/
def opened (globals : Scope) (history : History) : Session := ⟨globals, history, 0⟩

def fresh : Session := opened Scope.initial []

def progress (session : Session) : Progress := ⟨session.history, session.depth⟩

/-- Runs the statements of a program in order, behind statements the last of which had
the value `last`. A failure ends the run; the names bound before it stay bound. A return
outside of a function does not end the run. -/
def runFrom (host : Host) : Value → Session → Program → Except RuntimeError Value × Session
  | last, session, [] => (.ok last, session)
  | _, session, next :: rest =>
      match ((evaluate host).statement session.globals next).run session.progress with
      | (.ok (value, globals), after) =>
          runFrom host value ⟨globals, after.history, after.depth⟩ rest
      | (.error failure, after) =>
          (.error failure, ⟨session.globals, after.history, after.depth⟩)

/-- Runs a program. Its result is the value of its last statement. -/
def run (host : Host) (session : Session) (program : Program) :
    Except RuntimeError Value × Session :=
  runFrom host .absent session program

end Session

end WindowScript
