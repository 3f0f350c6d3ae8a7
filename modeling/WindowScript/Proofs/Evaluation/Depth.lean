import WindowScript.Proofs.Evaluation.Builtins
import WindowScript.Proofs.Evaluation.Correspondence

/-!
# Depth

Every evaluation leaves the count of evaluations as it found it, and only adds to the
history. The limit on the count is then invisible except where it is met: a run that
begins deeper either ends like one that begins less deep, or is cut off on the way.
-/

set_option autoImplicit false

namespace WindowScript

/-!
## Histories that grow
-/

private theorem History.output_cons (event : Event) (history : History) :
    output (event :: history) =
      match event with
      | .wrote text => history.output ++ text
      | _ => history.output := by
  unfold output
  rw [List.reverse_cons, List.foldl_append]
  rfl

private theorem History.exists_output_eq {earlier later : History} (grown : earlier <:+ later) :
    ∃ more, later.output = earlier.output ++ more := by
  obtain ⟨new, rfl⟩ := grown
  induction new with
  | nil => exact ⟨"", by simp⟩
  | cons event new ih =>
      obtain ⟨more, shape⟩ := ih
      rw [List.cons_append, output_cons, shape]
      cases event with
      | wrote text => exact ⟨more ++ text, String.append_assoc ..⟩
      | _ => exact ⟨more, rfl⟩

private theorem History.commands_isPrefix {earlier later : History} (grown : earlier <:+ later) :
    earlier.commands <+: later.commands :=
  (List.reverse_prefix.mpr grown).filterMap _

/-!
## What every evaluation leaves alone
-/

/-- A computation that leaves the count as it was and takes nothing out of the history. -/
structure Orderly {α : Type} (action : Evaluation α) : Prop where
  depth : ∀ progress, (action.run progress).2.depth = progress.depth
  history : ∀ progress, progress.history <:+ (action.run progress).2.history

namespace Orderly

variable {α β : Type}

theorem pure (value : α) : Orderly (Pure.pure value) where
  depth := fun _ => rfl
  history := fun _ => List.suffix_rfl

theorem fail (cause : RuntimeCause) (position : Position) :
    Orderly (Fallible.fail cause position : Evaluation α) where
  depth := fun _ => rfl
  history := fun _ => List.suffix_rfl

private theorem bind {first : Evaluation α} {next : α → Evaluation β} (orderly : Orderly first)
    (onward : ∀ value, Orderly (next value)) : Orderly (first >>= next) := by
  constructor
  · intro progress
    have before := orderly.depth progress
    rw [Fallible.run_bind]
    rcases outcome : first.run progress with ⟨result, after⟩
    rw [outcome] at before
    cases result with
    | error failure => exact before
    | ok value => exact ((onward value).depth after).trans before
  · intro progress
    have before := orderly.history progress
    rw [Fallible.run_bind]
    rcases outcome : first.run progress with ⟨result, after⟩
    rw [outcome] at before
    cases result with
    | error failure => exact before
    | ok value => exact before.trans ((onward value).history after)

theorem builtin (host : Host) (builtin : Builtin) (arguments : List Value) (position : Position) :
    Orderly (Evaluation.ofHost (builtin.call host arguments position)) := by
  constructor
  · intro progress
    rfl
  · intro progress
    have answers := builtin.call_answers host position progress.history arguments
    rw [Evaluation.run_ofHost]
    obtain same | ⟨event, shape⟩ := answers.asked
    · simp [same]
    · rw [shape]
      exact List.suffix_cons event progress.history

/-- Counting is undone however the inner evaluation ends. -/
theorem nested {inner : Evaluation α} (orderly : Orderly inner) (position : Position) :
    Orderly (Evaluation.nested position inner) := by
  constructor
  · intro progress
    by_cases room : progress.depth < maxDepth
    · rw [Evaluation.run_nested_of_lt room]
      exact congrArg (· - 1) (orderly.depth _)
    · rw [Evaluation.run_nested_of_le (Nat.not_lt.mp room)]
  · intro progress
    by_cases room : progress.depth < maxDepth
    · rw [Evaluation.run_nested_of_lt room]
      exact orderly.history { progress with depth := progress.depth + 1 }
    · simp [Evaluation.run_nested_of_le (Nat.not_lt.mp room)]

def correspondence (host : Host) : Correspondence Unit host where
  Rel := fun action _ => Orderly (action ())
  pure := pure
  fail := fail
  bind := bind
  builtin := builtin host

end Orderly

theorem evaluateWithin_orderly (host : Host) (levels : Nat) (item : Expr) (scope : Scope) :
    Orderly (evaluateWithin host levels item scope) := by
  induction levels generalizing item scope with
  | zero => exact .fail _ _
  | succ levels ih =>
      have inner : Orderly ((evaluateWithin host levels).step host item scope) :=
        (Orderly.correspondence host).step (fun _ => evaluateWithin host levels)
          (evaluateWithin host levels) ih item scope
      exact inner.nested item.position

/-!
## Runs that are cut off
-/

/-- How one run ends as against another: it was cut off by the limit with part of the
history of the other, or it ends in the same way. -/
inductive Shortened {α : Type} :
    Except RuntimeError α × Progress → Except RuntimeError α × Progress → Prop where
  | limited {position : Position} {cut whole : Progress} {result : Except RuntimeError α}
      (grown : cut.history <:+ whole.history) :
      Shortened (.error ⟨.recursionLimit, position⟩, cut) (result, whole)
  | same {result : Except RuntimeError α} {cut whole : Progress}
      (equal : cut.history = whole.history) : Shortened (result, cut) (result, whole)

namespace Shortened

variable {α : Type} {cut whole : Except RuntimeError α × Progress}

private theorem grown (ended : Shortened cut whole) : cut.2.history <:+ whole.2.history := by
  cases ended with
  | limited grown => exact grown
  | same equal => exact equal ▸ List.suffix_rfl

theorem same_of_unlimited (ended : Shortened cut whole)
    (unlimited : ∀ position, cut.1 ≠ .error ⟨.recursionLimit, position⟩) :
    whole.1 = cut.1 ∧ whole.2.history = cut.2.history := by
  cases ended with
  | limited _ => exact absurd rfl (unlimited _)
  | same equal => exact ⟨rfl, equal.symm⟩

end Shortened

/-- The first computation does what the second does, as far as the limit lets it, wherever
it begins at least as deep. -/
structure CutShort {α : Type} (cut whole : Evaluation α) : Prop where
  cutOrderly : Orderly cut
  wholeOrderly : Orderly whole
  shortened : ∀ history {shallow deep : Nat}, shallow ≤ deep →
    Shortened (cut.run ⟨history, deep⟩) (whole.run ⟨history, shallow⟩)

namespace CutShort

variable {α β : Type}

/-- What cannot see the count ends in the same way at any depth. -/
theorem of_same {action : Evaluation α} (orderly : Orderly action)
    (same : ∀ history shallow deep,
      Shortened (action.run ⟨history, deep⟩) (action.run ⟨history, shallow⟩)) :
    CutShort action action :=
  ⟨orderly, orderly, fun history shallow deep _ => same history shallow deep⟩

private theorem limit {whole : Evaluation α} (orderly : Orderly whole) (position : Position) :
    CutShort (Fallible.fail .recursionLimit position) whole :=
  ⟨.fail _ _, orderly, fun history shallow _ _ => .limited (orderly.history ⟨history, shallow⟩)⟩

private theorem bind {first second : Evaluation α} {onward further : α → Evaluation β}
    (begun : CutShort first second) (next : ∀ value, CutShort (onward value) (further value)) :
    CutShort (first >>= onward) (second >>= further) where
  cutOrderly := begun.cutOrderly.bind fun value => (next value).cutOrderly
  wholeOrderly := begun.wholeOrderly.bind fun value => (next value).wholeOrderly
  shortened := by
    intro history shallow deep le
    have ended := begun.shortened history le
    have cutDepth := begun.cutOrderly.depth ⟨history, deep⟩
    have wholeDepth := begun.wholeOrderly.depth ⟨history, shallow⟩
    rw [Fallible.run_bind, Fallible.run_bind]
    generalize first.run ⟨history, deep⟩ = cutEnd at ended cutDepth ⊢
    generalize second.run ⟨history, shallow⟩ = wholeEnd at ended wholeDepth ⊢
    cases ended with
    | @limited position cut whole result grown =>
        cases result with
        | error failure => exact .limited grown
        | ok value => exact .limited (grown.trans ((next value).wholeOrderly.history whole))
    | @same result cut whole equal =>
        cases result with
        | error failure => exact .same equal
        | ok value =>
            obtain ⟨reached, _⟩ := cut
            obtain ⟨_, _⟩ := whole
            cases cutDepth
            cases wholeDepth
            cases equal
            exact (next value).shortened reached le

private theorem nested {inner other : Evaluation α} (short : CutShort inner other)
    (position : Position) :
    CutShort (Evaluation.nested position inner) (Evaluation.nested position other) where
  cutOrderly := short.cutOrderly.nested position
  wholeOrderly := short.wholeOrderly.nested position
  shortened := by
    intro history shallow deep le
    by_cases room : deep < maxDepth
    · have begun := short.shortened history (Nat.succ_le_succ le)
      rw [Evaluation.run_nested_of_lt room, Evaluation.run_nested_of_lt (Nat.lt_of_le_of_lt le room)]
      generalize inner.run ⟨history, deep + 1⟩ = cutEnd at begun ⊢
      generalize other.run ⟨history, shallow + 1⟩ = wholeEnd at begun ⊢
      cases begun with
      | limited grown => exact .limited grown
      | same equal => exact .same equal
    · rw [Evaluation.run_nested_of_le (Nat.not_lt.mp room)]
      exact .limited ((short.wholeOrderly.nested position).history ⟨history, shallow⟩)

def correspondence (host : Host) : Correspondence Unit host where
  Rel := fun cut whole => CutShort (cut ()) whole
  pure := fun value => .of_same (.pure value) fun _ _ _ => .same rfl
  fail := fun cause position => .of_same (.fail cause position) fun _ _ _ => .same rfl
  bind := bind
  builtin := fun builtin arguments position =>
    .of_same (.builtin host builtin arguments position) fun _ _ _ => .same rfl

end CutShort

/-- More levels do no harm either. -/
theorem evaluateWithin_cutShort (host : Host) {few many : Nat} (le : few ≤ many) (item : Expr)
    (scope : Scope) :
    CutShort (evaluateWithin host few item scope) (evaluateWithin host many item scope) := by
  induction few generalizing many item scope with
  | zero => exact .limit (evaluateWithin_orderly host many item scope) item.position
  | succ few ih =>
      cases many with
      | zero => cases le
      | succ many =>
          have agree := ih (Nat.le_of_succ_le_succ le)
          have stepped := (CutShort.correspondence host).step (fun _ => evaluateWithin host few)
            (evaluateWithin host many) agree item scope
          exact stepped.nested item.position

/-- An evaluation that does not meet the limit ends in the same way when it begins less
deep. One that meets it has written and run a first part of what it would have. -/
theorem evaluate_shallower (host : Host) (item : Expr) (scope : Scope) (history : History)
    {shallow deep : Nat} (le : shallow ≤ deep) :
    let cut := (evaluate host item scope).run ⟨history, deep⟩
    let whole := (evaluate host item scope).run ⟨history, shallow⟩
    ((∀ position, cut.1 ≠ .error ⟨.recursionLimit, position⟩) →
      whole.1 = cut.1 ∧ whole.2.history = cut.2.history) ∧
    ∀ position, cut.1 = .error ⟨.recursionLimit, position⟩ →
      (∃ more, whole.2.history.output = cut.2.history.output ++ more) ∧
        cut.2.history.commands <+: whole.2.history.commands := by
  intro cut whole
  have ended : Shortened cut whole :=
    (evaluateWithin_cutShort host (Nat.le_refl _) item scope).shortened history le
  constructor
  · exact ended.same_of_unlimited
  · intro position _
    exact ⟨History.exists_output_eq ended.grown, History.commands_isPrefix ended.grown⟩

/-- The items of `[echo(), [1]]` are one and two evaluations inside that of the list. -/
def echoThenNested : Expr :=
  .list [.call "echo" [] ⟨1, 2⟩, .list [.integer 1 ⟨1, 11⟩] ⟨1, 10⟩] ⟨1, 1⟩

/-- A host that writes everything and whose commands print nothing. -/
def Host.quiet : Host := ⟨fun _ _ => none, fun _ _ => .ok ""⟩

theorem evaluate_shallower_echoThenNested :
    (∃ more, ((evaluate .quiet echoThenNested .initial).run ⟨[], 0⟩).2.history.output =
      "\n" ++ more) ∧
    ((evaluate .quiet echoThenNested .initial).run ⟨[], 0⟩).1 =
      .ok (.list [.absent, .list [.integer 1]]) := by
  have cutOff : (evaluate .quiet echoThenNested .initial).run ⟨[], 198⟩ =
      (.error ⟨.recursionLimit, ⟨1, 11⟩⟩, ⟨[.wrote "\n"], 198⟩) := by rfl
  have finished : ((evaluate .quiet echoThenNested .initial).run ⟨[], 197⟩).1 =
      .ok (.list [.absent, .list [.integer 1]]) := by rfl
  have part := (evaluate_shallower .quiet echoThenNested .initial [] (Nat.zero_le 198)).2
    ⟨1, 11⟩ (by rw [cutOff])
  have same := (evaluate_shallower .quiet echoThenNested .initial [] (Nat.zero_le 197)).1
    (by rw [finished]; exact fun _ limited => nomatch limited)
  rw [cutOff] at part
  exact ⟨part.1, same.1.trans finished⟩

end WindowScript
