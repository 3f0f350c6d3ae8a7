import WindowScript.Proofs.Evaluation.Invariants
import WindowScript.Proofs.Evaluation.Operators

/-!
# How long texts and lists become

The limit on repetitions bounds all texts and lists there are, but for two ways to make one: a sum
of two of them, and the text of a value. Evaluation that raises an alarm where one of these passes
the limit never passes it at all, and evaluation as it is does the same up to the first such place.
-/

set_option autoImplicit false

namespace WindowScript

/-!
## Values within a limit
-/

/-- Whether a value is no text or list longer than a limit. What it holds is not looked at. -/
def Value.IsShort (limit : Nat) (value : Value) : Prop := value.size?.getD 0 ≤ limit

instance (limit : Nat) (value : Value) : Decidable (value.IsShort limit) :=
  inferInstanceAs (Decidable (value.size?.getD 0 ≤ limit))

/-- Whether an expression is no text or list literal longer than a limit. -/
def Expr.IsShort (limit : Nat) : Expr → Prop
  | .text value _ => value.utf8ByteSize ≤ limit
  | .list items _ => items.length ≤ limit
  | _ => True

/-- An expression no literal of which is longer than a limit. -/
def Expr.Within (limit : Nat) (whole : Expr) : Prop :=
  ∀ part : Expr, part.Part whole → part.IsShort limit

/-- A statement no literal of which is longer than a limit, those in the bodies of functions
included. The expressions of an interface are never evaluated. -/
inductive Statement.Within (limit : Nat) : Statement → Prop where
  | binding {name value position} : value.Within limit → Within limit (.binding name value position)
  | function {name parameters body position} :
      (∀ statement ∈ body, Within limit statement) →
      Within limit (.function name parameters body position)
  | returning {value position} : value.Within limit → Within limit (.returning value position)
  | gui {described} : Within limit (.gui described)
  | expression {value position} : value.Within limit → Within limit (.expression value position)

/-- A value in which no text or list is longer than a limit, be it the value itself, or in a list,
a record, a captured scope or the body of a function. -/
inductive Value.Within (limit : Nat) : Value → Prop where
  | plain {value : Value} : value.IsPlain → value.IsShort limit → Within limit value
  | list {items : List Value} :
      items.length ≤ limit → (∀ item ∈ items, Within limit item) → Within limit (.list items)
  | record {entries : List (String × Value)} :
      (∀ entry ∈ entries, Within limit entry.2) → Within limit (.record entries)
  | function {definition : Function} {captured : Scope} :
      (∀ statement ∈ definition.body, statement.Within limit) →
      (∀ entry ∈ captured, Within limit entry.2) → Within limit (.function definition captured)
  | gui {described : Gui} : Within limit (.gui described)

/-- A value that holds nothing longer than a limit, however long it is itself. -/
def Value.PartsWithin (limit : Nat) : Value → Prop
  | .text _ => True
  | .list items => ∀ item ∈ items, item.Within limit
  | other => other.Within limit

section

variable {limit : Nat}

namespace Value

private theorem Within.items {items : List Value} (within : (Value.list items).Within limit) :
    items.length ≤ limit ∧ ∀ item ∈ items, item.Within limit := by
  cases within with
  | plain isPlain => exact isPlain.elim
  | list short each => exact ⟨short, each⟩

private theorem Within.entries {entries : List (String × Value)}
    (within : (Value.record entries).Within limit) : ∀ entry ∈ entries, entry.2.Within limit := by
  cases within with
  | plain isPlain => exact isPlain.elim
  | record each => exact each

private theorem Within.opened {definition : Function} {captured : Scope}
    (within : (Value.function definition captured).Within limit) :
    (∀ statement ∈ definition.body, statement.Within limit) ∧
      ∀ entry ∈ captured, entry.2.Within limit := by
  cases within with
  | plain isPlain => exact isPlain.elim
  | function body captured => exact ⟨body, captured⟩

private theorem Within.parts {value : Value} (within : value.Within limit) :
    value.PartsWithin limit := by
  cases value with
  | text content => trivial
  | list items => exact within.items.2
  | _ => exact within

private theorem Within.isShort {value : Value} (within : value.Within limit) :
    value.IsShort limit := by
  cases within with
  | plain _ short => exact short
  | list short => exact short
  | record | function | gui => exact Nat.zero_le limit

private theorem PartsWithin.within {value : Value} (parts : value.PartsWithin limit)
    (short : value.IsShort limit) : value.Within limit := by
  cases value with
  | text content => exact .plain trivial short
  | list items => exact .list short parts
  | _ => exact parts

private theorem IsPlain.partsWithin {value : Value} (isPlain : value.IsPlain) :
    value.PartsWithin limit := by
  cases value with
  | text content => trivial
  | list | record | function | gui => exact isPlain.elim
  | _ => exact .plain trivial (Nat.zero_le limit)

private theorem Within.copies {value : Value} (within : value.Within limit) (count : Nat) :
    (value.copies count).PartsWithin limit := by
  cases value with
  | text content => trivial
  | list items =>
      intro item member
      obtain ⟨copy, repeated, among⟩ := List.mem_flatten.mp member
      rw [List.eq_of_mem_replicate repeated] at among
      exact within.items.2 item among
  | _ => exact within

theorem utf8ByteSize_repeatText (text : String) (count : Nat) :
    (repeatText text count).utf8ByteSize = text.utf8ByteSize * count := by
  induction count with
  | zero => rfl
  | succ count ih =>
      change (repeatText text count ++ text).utf8ByteSize = _
      rw [String.utf8ByteSize_append, ih, Nat.mul_succ]

private theorem size?_copies {sequence : Value} {length : Nat}
    (sized : sequence.size? = some length) (count : Nat) :
    (sequence.copies count).size? = some (length * count) := by
  rcases sequence_cases sized with ⟨content, rfl, rfl⟩ | ⟨items, rfl, rfl⟩
  · rw [copies, size?, ← repeatText_eq, utf8ByteSize_repeatText]
  · simp [copies, size?, Nat.mul_comm]

end Value

private theorem Evaluator.readAttribute_within {key : String} {object value : Value}
    (within : object.Within limit) (read : readAttribute key object = .ok value) :
    value.Within limit := by
  cases object with
  | record entries =>
      cases read
      cases found : Bindings.find? key entries with
      | none => exact .plain trivial (Nat.zero_le limit)
      | some held => exact Bindings.of_find? within.entries found
  | _ => cases read

private theorem Expr.Within.child {child whole : Expr} (within : whole.Within limit)
    (member : child ∈ whole.children) : child.Within limit :=
  fun part inside => within part (.inside member inside)

/-!
## What steps make
-/

namespace Operator.Makes

variable {operator : Operator} {left right value : Value}

private theorem partsWithin (makes : operator.Makes left right value) (first : left.Within limit)
    (second : right.Within limit) : value.PartsWithin limit := by
  cases makes with
  | number number => exact (Value.isPlain_of_isNumber number).partsWithin
  | truth => exact .plain trivial (Nat.zero_le limit)
  | texts => trivial
  | lists => exact List.forall_mem_append.mpr ⟨first.items.2, second.items.2⟩
  | copies => exact first.copies _
  | copiesBehind => exact second.copies _

/-- Only a sum can be longer than a repetition may be. -/
theorem isShort (makes : operator.Makes left right value) (other : operator ≠ .add)
    (repeats : maxRepeatedLength ≤ limit) : value.IsShort limit := by
  have copied {sequence : Value} {length : Nat} {count : Integer}
      (sized : sequence.size? = some length)
      (within : length * count.toInt.toNat ≤ maxRepeatedLength) :
      (sequence.copies count.toInt.toNat).IsShort limit := by
    rw [Value.IsShort, Value.size?_copies sized]
    exact within.trans repeats
  cases makes with
  | number number =>
      cases value with
      | integer | real => exact Nat.zero_le limit
      | _ => cases number
  | truth => exact Nat.zero_le limit
  | texts | lists => exact absurd rfl other
  | copies sized within => exact copied sized within
  | copiesBehind sized within => exact copied sized within

end Operator.Makes

end

namespace Builtin

private theorem ne_text_of_integerOfCount {count : Nat} {text : String} :
    integerOfCount count ≠ .ok (.text text) := by
  unfold integerOfCount
  split <;> nofun

private theorem length_ne_text {argument : Value} {text : String} :
    length argument ≠ .ok (.text text) := by
  cases argument with
  | text | list | record => exact ne_text_of_integerOfCount
  | _ => nofun

private theorem toInteger_ne_text {argument : Value} {text : String} :
    toInteger argument ≠ .ok (.text text) := by
  unfold toInteger integerPart
  repeat' split
  all_goals nofun

private theorem toReal_ne_text {argument : Value} {text : String} :
    toReal argument ≠ .ok (.text text) := by
  unfold toReal
  split
  · cases (Value.integer _).toReal <;> nofun
  · nofun
  · nofun
  · split <;> nofun
  · nofun

private theorem assertion_ne_text {argument : Value} {text : String} :
    assertion argument ≠ .ok (.text text) := by
  unfold assertion
  split <;> nofun

/-- Only `str` makes a text, unless a command has printed it. -/
theorem text_of_call {host : Host} {builtin : Builtin} {arguments : List Value}
    {position : Position} {history : History} {text : String}
    (answered : ((builtin.call host arguments position).run history).1 = .ok (.text text)) :
    builtin = .str ∨ ∃ before command, host.reply before command = .ok text := by
  have converted {result : Except RuntimeCause Value} (other : result ≠ .ok (.text text)) :
      ((Fallible.place position result : HostAction Value).run history).1 ≠ .ok (.text text) := by
    rw [Fallible.run_place]
    cases result with
    | ok value => exact fun same => other (congrArg _ (Except.ok.inj same))
    | error cause => nofun
  have written (line : String) : ((do
      host.write line position
      pure Value.absent : HostAction Value).run history).1 ≠ .ok (.text text) := by
    rw [Fallible.run_bind, Host.run_write]
    cases host.refusal? history line <;> nofun
  unfold call apply at answered
  split at answered
  · split at answered
    · exact absurd answered (written _)
    · next argument _ _ =>
        cases builtin with
        | echo => exact absurd answered (written _)
        | run =>
            cases argument with
            | text command =>
                rw [applyOne, runCommand, Fallible.run_bind, Host.run_run] at answered
                cases replied : host.reply history command with
                | ok printed =>
                    rw [replied] at answered
                    cases answered
                    exact .inr ⟨history, command, replied⟩
                | error reason => rw [replied] at answered; cases answered
            | _ => cases answered
        | len => exact absurd answered (converted length_ne_text)
        | str => exact .inl rfl
        | int => exact absurd answered (converted toInteger_ne_text)
        | float => exact absurd answered (converted toReal_ne_text)
        | assert => exact absurd answered (converted assertion_ne_text)
    · cases answered
  · cases answered

end Builtin

/-!
## What has no limit of its own
-/

/-- Whether an expression is a sum or a call of `str`: of these alone the result has no limit of
its own. -/
def Expr.isUnlimited (scope : Scope) (item : Expr) : Bool :=
  match item with
  | .binary .add _ _ _ => true
  | _ =>
      match item.callee?.bind (Bindings.find? · scope) with
      | some (.builtin .str) => true
      | _ => false

private theorem Expr.isUnlimited_of_calls {scope : Scope} {item : Expr} {name : String}
    (calls : item.callee? = some name)
    (found : Bindings.find? name scope = some (.builtin .str)) :
    item.isUnlimited scope = true := by
  unfold isUnlimited
  split
  · rfl
  · rw [calls, Option.bind_some, found]

/-- Evaluates an expression, and does what the `alarm` says instead where a sum or a call of `str`
comes to more than the limit. -/
def evaluateLimited (limit : Nat) (alarm : Evaluator) (host : Host) : Nat → Evaluator
  | 0, item, _ => Fallible.fail .recursionLimit item.position
  | levels + 1, item, scope =>
      Evaluation.nested item.position do
        let value ← (evaluateLimited limit alarm host levels).step host item scope
        if item.isUnlimited scope ∧ ¬ value.IsShort limit then alarm item scope else pure value

section

variable {limit : Nat} {host : Host} (repeats : maxRepeatedLength ≤ limit)
  (answers : ∀ history command printed, host.reply history command = .ok printed →
    printed.utf8ByteSize ≤ limit)

/-- Limited evaluation ends with values within the limit. -/
def Invariant.lengths : Invariant host where
  Allowed := fun _ => True
  Fits := Expr.Within limit
  FitsStatement := Statement.Within limit
  Holds := Value.Within limit
  Yields := fun scope item value => value.PartsWithin limit ∧
    (item.isUnlimited scope = false → value.IsShort limit)
  position := fun _ => trivial
  child := Expr.Within.child
  binding := fun | .binding value => value
  returning := fun | .returning value => value
  expression := fun | .expression value => value
  body := fun | .function body => body
  absent := .plain trivial (Nat.zero_le limit)
  gui := fun _ => .gui
  function := .function
  opened := Value.Within.opened
  reads := Evaluator.readAttribute_within
  yields := fun within => ⟨within.parts, fun _ => within.isShort⟩
  literal := by
    intro scope item value fit literal
    have short := fit item (.self item)
    cases item with
    | text content position => cases literal; exact ⟨trivial, fun _ => short⟩
    | integer | real | boolean =>
        cases literal
        exact ⟨.plain trivial (Nat.zero_le limit), fun _ => Nat.zero_le limit⟩
    | _ => cases literal
  list := by
    intro scope items position values fit count each
    refine ⟨each, fun _ => ?_⟩
    have short := fit _ (.self _)
    exact (count ▸ short : values.length ≤ limit)
  record := fun _ each => ⟨.record each, fun _ => Nat.zero_le limit⟩
  operation := by
    intro scope operator first second position left right value leftWithin rightWithin computed
    have makes := Operator.makes_of_apply computed
    refine ⟨makes.partsWithin leftWithin rightWithin, fun limited => makes.isShort ?_ repeats⟩
    rintro rfl
    cases limited
  builtin := by
    intro scope item name builtin arguments position history value calls found _ answered
    have isPlain := (builtin.call_answers host position history arguments).plain value answered
    refine ⟨isPlain.partsWithin, fun limited => ?_⟩
    cases value with
    | text content =>
        rcases Builtin.text_of_call answered with rfl | ⟨before, command, replied⟩
        · rw [Expr.isUnlimited_of_calls calls found] at limited
          cases limited
        · exact answers before command content replied
    | list | record | function | gui => exact isPlain.elim
    | _ => exact Nat.zero_le limit

theorem evaluateLimited_keeps {alarm : Evaluator}
    (silent : ∀ item scope progress value after,
      (alarm item scope).run progress = (.ok value, after) → value.Within limit) (levels : Nat) :
    (Invariant.lengths repeats answers).Keeps (evaluateLimited limit alarm host levels) := by
  induction levels with
  | zero => exact fun item scope _ _ => .fail trivial _
  | succ levels ih =>
      intro item scope fit bound
      refine .nested trivial ((ih.step fit bound).bind fun value yields => ?_)
      split
      · intro progress
        rcases ran : (alarm item scope).run progress with ⟨result, after⟩
        cases result with
        | ok value => exact silent item scope progress value after ran
        | error failure => trivial
      · next within =>
          refine .pure (yields.1.within ?_)
          cases unlimited : item.isUnlimited scope with
          | false => exact yields.2 unlimited
          | true => exact Decidable.byContradiction fun long => within ⟨unlimited, long⟩

end

/-!
## Where evaluation goes on
-/

/-- A place where evaluation comes to more than the limit: a sum or a call of `str`, the scope in
which it is evaluated, and what is reached when its value is there. -/
inductive Passes (limit : Nat) (host : Host) : Expr → Scope → Progress → Prop where
  | value {item : Expr} {scope : Scope} {levels : Nat} {progress after : Progress} {value : Value} :
      item.isUnlimited scope = true → ¬ value.IsShort limit →
      ((evaluateWithin host levels).step host item scope).run progress = (.ok value, after) →
      Passes limit host item scope after

/-- Computations, one for each alarm, that all do the same as another one, or all come to the same
place beyond the limit. An alarm that fails there ends its computation. -/
def Follows (limit : Nat) (host : Host) {α : Type} (limited : Evaluator → Evaluation α)
    (plain : Evaluation α) : Prop :=
  ∀ progress,
    (∀ alarm, (limited alarm).run progress = plain.run progress) ∨
    ∃ item scope reached, Passes limit host item scope reached ∧
      ∀ alarm failure stopped, (alarm item scope).run reached = (.error failure, stopped) →
        ∃ after, (limited alarm).run progress = (.error failure, after) ∧
          after.history = stopped.history

namespace Follows

variable {limit : Nat} {host : Host} {α β : Type}

private theorem refl (action : Evaluation α) : Follows limit host (fun _ => action) action :=
  fun _ => .inl fun _ => rfl

private theorem bind {limited : Evaluator → Evaluation α} {plain : Evaluation α}
    {onward : Evaluator → α → Evaluation β} {further : α → Evaluation β}
    (begun : Follows limit host limited plain)
    (next : ∀ value, Follows limit host (fun alarm => onward alarm value) (further value)) :
    Follows limit host (fun alarm => limited alarm >>= onward alarm) (plain >>= further) := by
  intro progress
  simp only [Fallible.run_bind]
  rcases begun progress with same | ⟨item, scope, reached, passes, stops⟩
  · simp only [same]
    rcases plain.run progress with ⟨result, after⟩
    cases result with
    | ok value => exact next value after
    | error failure => exact .inl fun _ => rfl
  · refine .inr ⟨item, scope, reached, passes, fun alarm failure stopped raised => ?_⟩
    obtain ⟨after, ended, history⟩ := stops alarm failure stopped raised
    exact ⟨after, by rw [ended], history⟩

private theorem nested {limited : Evaluator → Evaluation α} {plain : Evaluation α}
    (inside : Follows limit host limited plain) (position : Position) :
    Follows limit host (fun alarm => Evaluation.nested position (limited alarm))
      (Evaluation.nested position plain) := by
  intro progress
  rcases Nat.lt_or_ge progress.depth maxDepth with room | full
  · simp only [Evaluation.run_nested_of_lt room]
    rcases inside { progress with depth := progress.depth + 1 } with
      same | ⟨item, scope, reached, passes, stops⟩
    · exact .inl fun alarm => by rw [same]
    · refine .inr ⟨item, scope, reached, passes, fun alarm failure stopped raised => ?_⟩
      obtain ⟨after, ended, history⟩ := stops alarm failure stopped raised
      exact ⟨{ after with depth := after.depth - 1 }, by rw [ended], history⟩
  · exact .inl fun _ => by
      rw [Evaluation.run_nested_of_le full, Evaluation.run_nested_of_le full]

def correspondence (limit : Nat) (host : Host) : Correspondence Evaluator host where
  Rel := Follows limit host
  pure := fun _ => refl _
  fail := fun _ _ => refl _
  bind := bind
  builtin := fun _ _ _ => refl _

end Follows

theorem evaluateLimited_follows (limit : Nat) (host : Host) (levels : Nat) (item : Expr)
    (scope : Scope) :
    Follows limit host (fun alarm => evaluateLimited limit alarm host levels item scope)
      (evaluateWithin host levels item scope) := by
  induction levels generalizing item scope with
  | zero => exact .refl _
  | succ levels ih =>
      refine Follows.nested ?_ item.position
      intro progress
      have stepped := (Follows.correspondence limit host).step
        (fun alarm => evaluateLimited limit alarm host levels) (evaluateWithin host levels) ih item
        scope
      simp only [Fallible.run_bind]
      rcases stepped progress with same | ⟨inner, around, reached, passes, stops⟩
      · simp only [same]
        rcases ran : ((evaluateWithin host levels).step host item scope).run progress with
          ⟨result, after⟩
        cases result with
        | error failure => exact .inl fun _ => rfl
        | ok value =>
            dsimp only
            by_cases beyond : item.isUnlimited scope ∧ ¬ value.IsShort limit
            · simp only [if_pos beyond]
              exact .inr ⟨item, scope, after, .value beyond.1 beyond.2 ran,
                fun alarm failure stopped raised => ⟨stopped, raised, rfl⟩⟩
            · simp only [if_neg beyond]
              exact .inl fun _ => rfl
      · refine .inr ⟨inner, around, reached, passes, fun alarm failure stopped raised => ?_⟩
        obtain ⟨after, ended, history⟩ := stops alarm failure stopped raised
        exact ⟨after, by rw [ended], history⟩

/-- A program runs the same under every alarm, or comes to a place beyond the limit, where each
alarm that fails ends its run. -/
theorem Session.runFromBy_follows {limit : Nat} {host : Host} {limited : Evaluator → Evaluator}
    {plain : Evaluator}
    (follows : ∀ item scope,
      Follows limit host (fun alarm => limited alarm item scope) (plain item scope))
    (program : Program) (last : Value) (session : Session) :
    (∀ alarm, runFromBy (limited alarm) last session program =
        runFromBy plain last session program) ∨
      ∃ item scope reached, Passes limit host item scope reached ∧
        ∀ alarm failure stopped, (alarm item scope).run reached = (.error failure, stopped) →
          (runFromBy (limited alarm) last session program).1 = .error failure ∧
            (runFromBy (limited alarm) last session program).2.history = stopped.history := by
  induction program generalizing last session with
  | nil => exact .inl fun _ => rfl
  | cons next rest ih =>
      have begun := (Follows.correspondence limit host).statement limited plain follows
        session.globals next
      simp only [runFromBy]
      rcases begun session.progress with same | ⟨item, scope, reached, passes, stops⟩
      · simp only [same]
        rcases (plain.statement session.globals next).run session.progress with ⟨result, after⟩
        cases result with
        | ok found => exact ih found.1 _
        | error failure => exact .inl fun _ => rfl
      · refine .inr ⟨item, scope, reached, passes, fun alarm failure stopped raised => ?_⟩
        obtain ⟨after, ended, history⟩ := stops alarm failure stopped raised
        rw [ended]
        exact ⟨rfl, history⟩

end WindowScript
