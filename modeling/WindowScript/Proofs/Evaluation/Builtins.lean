import WindowScript.Evaluation.Builtins

/-!
# What builtins answer

A call of a builtin asks at most one thing of the host. It ends with a value that holds no
other values, or with a failure at the position of the call.
-/

set_option autoImplicit false

namespace WindowScript

theorem Fallible.run_place {σ α : Type} (position : Position) (result : Except RuntimeCause α)
    (state : σ) :
    (place position result : Fallible σ α).run state =
      (result.mapError (⟨·, position⟩), state) := by
  cases result with
  | ok value => rfl
  | error cause => rfl

/-- A value that holds no other values and no definition. -/
def Value.IsPlain : Value → Prop
  | .list _ | .record _ | .function _ _ | .gui _ => False
  | _ => True

theorem Value.isPlain_of_isNumber {value : Value} (number : value.isNumber = true) :
    value.IsPlain := by
  cases value with
  | integer number | real number => trivial
  | _ => cases number

/-- What a call at `position` comes to, when the host has the given history. -/
structure Answers (position : Position) (history : History)
    (outcome : Except RuntimeError Value × History) : Prop where
  asked : outcome.2 = history ∨ ∃ event, outcome.2 = event :: history
  plain : ∀ value, outcome.1 = .ok value → value.IsPlain
  placed : ∀ failure, outcome.1 = .error failure → failure.position = position

namespace Answers

variable {position : Position} {history : History}

private theorem value {value : Value} (plain : value.IsPlain) :
    Answers position history (.ok value, history) where
  asked := .inl rfl
  plain := by
    intro found answered
    cases answered
    exact plain
  placed := by
    intro failure failed
    cases failed

private theorem failure (cause : RuntimeCause) :
    Answers position history (.error ⟨cause, position⟩, history) where
  asked := .inl rfl
  plain := by
    intro value answered
    cases answered
  placed := by
    intro failure failed
    cases failed
    rfl

/-- The host may have been asked for something first. -/
theorem after {event : Event} {result : Except RuntimeError Value}
    (answers : Answers position (event :: history) (result, event :: history)) :
    Answers position history (result, event :: history) :=
  ⟨.inr ⟨event, rfl⟩, answers.plain, answers.placed⟩

private theorem place {result : Except RuntimeCause Value}
    (plain : ∀ value, result = .ok value → value.IsPlain) :
    Answers position history ((Fallible.place position result : HostAction Value).run history) := by
  cases result with
  | ok found => exact value (plain found rfl)
  | error cause => exact failure cause

end Answers

namespace Builtin

private theorem integerOfCount_plain {count : Nat} {value : Value}
    (counted : integerOfCount count = .ok value) : value.IsPlain := by
  unfold integerOfCount at counted
  split at counted <;> cases counted
  trivial

private theorem length_plain {argument value : Value} (measured : length argument = .ok value) :
    value.IsPlain := by
  cases argument with
  | text content => exact integerOfCount_plain measured
  | list items => exact integerOfCount_plain measured
  | record entries => exact integerOfCount_plain measured
  | _ => cases measured

private theorem toInteger_plain {argument value : Value}
    (converted : toInteger argument = .ok value) : value.IsPlain := by
  unfold toInteger integerPart at converted
  split at converted
  · cases converted; trivial
  · split at converted <;> cases converted
    trivial
  · cases converted; trivial
  · split at converted <;> cases converted
    trivial
  · cases converted

private theorem toReal_plain {argument value : Value} (converted : toReal argument = .ok value) :
    value.IsPlain := by
  unfold toReal at converted
  split at converted
  · cases shape : (Value.integer _).toReal with
    | error cause => rw [shape] at converted; cases converted
    | ok real => rw [shape] at converted; cases converted; trivial
  · cases converted; trivial
  · cases converted; trivial
  · split at converted <;> cases converted
    trivial
  · cases converted

private theorem assertion_plain {argument value : Value} (held : assertion argument = .ok value) :
    value.IsPlain := by
  unfold assertion at held
  split at held <;> cases held
  trivial

variable (host : Host) (position : Position) (history : History)

private theorem write_answers (text : String) :
    Answers position history
      ((do host.write text position; pure Value.absent : HostAction Value).run history) := by
  rw [Fallible.run_bind, Host.run_write]
  cases host.refusal? history text with
  | none => exact .after (.value trivial)
  | some reason => exact .after (.failure (.outputFailed reason))

private theorem runCommand_answers (argument : Value) :
    Answers position history ((runCommand host argument position).run history) := by
  cases argument with
  | text command =>
      unfold runCommand
      rw [Fallible.run_bind, Host.run_run]
      cases host.reply history command with
      | ok printed => exact .after (.value trivial)
      | error reason => exact .after (.failure (.commandFailed command reason))
  | _ => exact .failure _

private theorem applyOne_answers (builtin : Builtin) (argument : Value) :
    Answers position history ((builtin.applyOne host argument position).run history) := by
  cases builtin with
  | echo => exact write_answers host position history _
  | run => exact runCommand_answers host position history argument
  | len => exact .place fun _ => length_plain
  | str => exact .value trivial
  | int => exact .place fun _ => toInteger_plain
  | float => exact .place fun _ => toReal_plain
  | assert => exact .place fun _ => assertion_plain

theorem call_answers (builtin : Builtin) (arguments : List Value) :
    Answers position history ((builtin.call host arguments position).run history) := by
  unfold call
  split
  · unfold apply
    split
    · exact write_answers host position history _
    · exact applyOne_answers host position history builtin _
    · exact .failure _
  · exact .failure _

end Builtin

end WindowScript
