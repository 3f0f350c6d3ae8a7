import WindowScript.Proofs.Evaluation.Depth
import WindowScript.Proofs.Value.Bindings
import WindowScript.Evaluation.Session

/-!
# What a run can change

The body of a function is evaluated in a scope of its own, so that a statement changes the
scope it stands in only by the name it binds itself, and only when it succeeds. A run
therefore changes no other global than those its own statements bind, and a statement that
fails leaves the globals as it found them.
-/

set_option autoImplicit false

namespace WindowScript

/-- The name that a statement binds in the scope it stands in. -/
def Statement.target? : Statement → Option String
  | .binding name _ _ | .function name _ _ _ => some name
  | .returning _ _ | .gui _ | .expression _ _ => none

/-- The scope behind a statement that has a value. -/
def Statement.extend (next : Statement) (value : Value) (scope : Scope) : Scope :=
  match next.target? with
  | some label => Bindings.insert label value scope
  | none => scope

def Program.Rebinds (program : Program) (label : String) : Prop :=
  ∃ next ∈ program, next.target? = some label

private theorem Statement.find?_extend {next : Statement} {label : String}
    (other : next.target? ≠ some label) (value : Value) (scope : Scope) :
    Bindings.find? label (next.extend value scope) = Bindings.find? label scope := by
  unfold extend
  split
  · next bound target =>
      have apart : label ≠ bound := by
        rintro rfl
        exact other target
      rw [Bindings.find?_insert, if_neg apart]
  · rfl

/-- Whatever is evaluated on the way, a statement adds its own binding and nothing else. -/
theorem Evaluator.eq_extend_of_statement {evaluate : Evaluator} {scope following : Scope}
    {next : Statement} {value : Value} {progress after : Progress}
    (ran : (evaluate.statement scope next).run progress = (.ok (value, following), after)) :
    following = next.extend value scope := by
  have finished {item : Expr} {bound : Value → Scope}
      (ran : ((do let found ← evaluate item scope; pure (found, bound found)) :
        Evaluation (Value × Scope)).run progress = (.ok (value, following), after)) :
      following = bound value := by
    rw [Fallible.run_bind] at ran
    split at ran <;> cases ran
    rfl
  cases next with
  | binding name item position => exact finished ran
  | function name parameters body position => cases ran; rfl
  | returning item position => exact finished ran
  | gui described => cases ran; rfl
  | expression item position => exact finished ran

namespace Session

variable {host : Host}

/-- One step of a run: the next statement succeeds and extends the globals, or it ends the
run with the globals as they were. -/
theorem runFrom_cons_cases (host : Host) (last : Value) (session : Session) (next : Statement)
    (rest : Program) :
    (∃ value after, ((evaluate host).statement session.globals next).run session.progress =
        (.ok (value, next.extend value session.globals), after) ∧
      runFrom host last session (next :: rest) =
        runFrom host value ⟨next.extend value session.globals, after.history, after.depth⟩ rest) ∨
    ∃ failure after, ((evaluate host).statement session.globals next).run session.progress =
        (.error failure, after) ∧
      runFrom host last session (next :: rest) =
        (.error failure, ⟨session.globals, after.history, after.depth⟩) := by
  rw [runFrom]
  rcases ran : ((evaluate host).statement session.globals next).run session.progress with
    ⟨result, after⟩
  cases result with
  | error failure => exact .inr ⟨failure, after, rfl, rfl⟩
  | ok answer =>
      obtain ⟨value, following⟩ := answer
      obtain rfl := Evaluator.eq_extend_of_statement ran
      exact .inl ⟨value, after, rfl, rfl⟩

theorem find?_runFrom {program : Program} {label : String} (untouched : ¬ program.Rebinds label)
    (last : Value) (session : Session) :
    Bindings.find? label (runFrom host last session program).2.globals =
      Bindings.find? label session.globals := by
  induction program generalizing last session with
  | nil => rfl
  | cons next rest ih =>
      have other : next.target? ≠ some label := fun target => untouched ⟨next, .head _, target⟩
      have later : ¬ Program.Rebinds rest label := by
        rintro ⟨statement, member, target⟩
        exact untouched ⟨statement, .tail _ member, target⟩
      rcases runFrom_cons_cases host last session next rest with
        ⟨value, after, _, onward⟩ | ⟨failure, after, _, stopped⟩
      · rw [onward, ih later]
        exact Statement.find?_extend other value session.globals
      · rw [stopped]

/-- A run that fails has run the statements in front of one that fails, and has the globals
that these left. -/
theorem exists_of_runFrom_eq_error {program : Program} {last : Value} {session after : Session}
    {failure : RuntimeError}
    (failed : runFrom host last session program = (.error failure, after)) :
    ∃ done next rest value reached, program = done ++ next :: rest ∧
      runFrom host last session done = (.ok value, reached) ∧
      ((evaluate host).statement reached.globals next).run reached.progress =
        (.error failure, after.progress) ∧
      after.globals = reached.globals := by
  induction program generalizing last session with
  | nil => cases failed
  | cons first rest ih =>
      rcases runFrom_cons_cases host last session first rest with
        ⟨value, reached, ran, onward⟩ | ⟨fault, reached, ran, stopped⟩
      · rw [onward] at failed
        obtain ⟨done, next, behind, found, last, rfl, finished, fails, kept⟩ := ih failed
        refine ⟨first :: done, next, behind, found, last, rfl, ?_, fails, kept⟩
        rw [runFrom, ran]
        exact finished
      · rw [stopped] at failed
        cases failed
        exact ⟨[], first, rest, last, session, rfl, rfl, ran, rfl⟩

end Session

/-- A run, whether it fails or not, keeps the binding of every global name that no statement
of its program binds. A run that fails does so at one statement, and ends with the globals that
the statements in front of it left, whatever that statement called or wrote before it failed. -/
theorem run_changes_only_targets (host : Host) (session : Session) (program : Program) :
    (∀ label, ¬ program.Rebinds label →
      Bindings.find? label (session.run host program).2.globals =
        Bindings.find? label session.globals) ∧
    ∀ failure after, session.run host program = (.error failure, after) →
      ∃ done next rest value reached, program = done ++ next :: rest ∧
        session.run host done = (.ok value, reached) ∧
        ((evaluate host).statement reached.globals next).run reached.progress =
          (.error failure, after.progress) ∧
        after.globals = reached.globals := by
  constructor
  · intro label untouched
    exact Session.find?_runFrom untouched .absent session
  · intro failure after failed
    exact Session.exists_of_runFrom_eq_error failed

/-- The program of the source
`let a = 1; func f(n) { let a = n; let len = echo(a); missing }; let b = f(5); let c = 2`. -/
def failsInCall : Program :=
  [.binding "a" (.integer 1 ⟨1, 9⟩) ⟨1, 1⟩,
    .function "f" ["n"]
      [.binding "a" (.name "n" ⟨1, 32⟩) ⟨1, 24⟩,
        .binding "len" (.call "echo" [.name "a" ⟨1, 50⟩] ⟨1, 45⟩) ⟨1, 35⟩,
        .expression (.name "missing" ⟨1, 54⟩) ⟨1, 54⟩] ⟨1, 12⟩,
    .binding "b" (.call "f" [.integer 5 ⟨1, 75⟩] ⟨1, 73⟩) ⟨1, 65⟩,
    .binding "c" (.integer 2 ⟨1, 87⟩) ⟨1, 79⟩]

theorem run_changes_only_targets_failsInCall :
    let ran := Session.fresh.run .quiet failsInCall
    ran.1 = .error ⟨.unknownVariable "missing", ⟨1, 54⟩⟩ ∧ ran.2.history.output = "5\n" ∧
      Bindings.find? "len" ran.2.globals = some (.builtin .len) ∧
      ∃ done next rest value reached, failsInCall = done ++ next :: rest ∧
        Session.fresh.run .quiet done = (.ok value, reached) ∧
        ran.2.globals = reached.globals := by
  intro ran
  have failed : ran.1 = .error ⟨.unknownVariable "missing", ⟨1, 54⟩⟩ := by rfl
  have untouched : ¬ Program.Rebinds failsInCall "len" := by
    simp [Program.Rebinds, failsInCall, Statement.target?]
  obtain ⟨frame, atomic⟩ := run_changes_only_targets .quiet .fresh failsInCall
  obtain ⟨done, next, rest, value, reached, split, finished, _, kept⟩ :=
    atomic _ ran.2 (Prod.ext failed rfl)
  exact ⟨failed, by rfl, (frame "len" untouched).trans rfl, done, next, rest, value, reached, split,
    finished, kept⟩

end WindowScript
