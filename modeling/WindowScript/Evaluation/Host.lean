import WindowScript.Evaluation.Error

/-!
# The host of a run

A program acts on the outside through its host: it writes text and runs commands.
How the host answers may depend on everything that was asked of it before. A run
leaves a history of what it asked.
-/

set_option autoImplicit false

namespace WindowScript

inductive Event where
  | wrote (text : String)
  | refused (text : String)
  | ran (command : String)
deriving DecidableEq, Repr

/-- The requests made so far, the latest first. -/
abbrev History := List Event

namespace History

/-- The text written, in order. -/
def output (history : History) : String :=
  history.reverse.foldl
    (fun written event =>
      match event with
      | .wrote text => written ++ text
      | _ => written)
    ""

/-- The commands run, in order, whether they succeeded or not. -/
def commands (history : History) : List String :=
  history.reverse.filterMap fun event =>
    match event with
    | .ran command => some command
    | _ => none

end History

structure Host where
  /-- The reason for which a text cannot be written, if there is one. -/
  refusal? : History → String → Option String
  /-- What a command prints, or the reason for which it fails. -/
  reply : History → String → Except String String

/-- A computation on a state that can fail. What it did to the state stays in either case. -/
abbrev Fallible (σ α : Type) := ExceptT RuntimeError (StateM σ) α

namespace Fallible

variable {σ α : Type}

/-- Fails. -/
def fail (cause : RuntimeCause) (position : Position) : Fallible σ α :=
  throw ⟨cause, position⟩

/-- Gives a failure the position of the expression that met it. -/
def place (position : Position) : Except RuntimeCause α → Fallible σ α
  | .ok result => pure result
  | .error cause => fail cause position

theorem run_bind {β : Type} (first : Fallible σ α) (next : α → Fallible σ β) (state : σ) :
    (first >>= next).run state =
      match first.run state with
      | (.ok value, after) => (next value).run after
      | (.error failure, after) => (.error failure, after) := by
  change (ExceptT.bindCont next (first.run state).1) (first.run state).2 = _
  rcases first.run state with ⟨result, after⟩
  cases result <;> rfl

end Fallible

/-- A computation that acts on nothing but the host, and so adds to the history. -/
abbrev HostAction (α : Type) := Fallible History α

namespace Host

def write (host : Host) (text : String) (position : Position) : HostAction Unit := do
  let history ← get
  match host.refusal? history text with
  | none => set (Event.wrote text :: history)
  | some reason =>
      set (Event.refused text :: history)
      Fallible.fail (.outputFailed reason) position

def run (host : Host) (command : String) (position : Position) : HostAction String := do
  let history ← get
  set (Event.ran command :: history)
  match host.reply history command with
  | .ok printed => pure printed
  | .error reason => Fallible.fail (.commandFailed command reason) position

theorem run_write (host : Host) (text : String) (position : Position) (history : History) :
    (host.write text position).run history =
      match host.refusal? history text with
      | none => (.ok (), .wrote text :: history)
      | some reason => (.error ⟨.outputFailed reason, position⟩, .refused text :: history) := by
  change (match host.refusal? history text with
    | none => set (Event.wrote text :: history)
    | some reason => do
        set (Event.refused text :: history)
        Fallible.fail (.outputFailed reason) position : HostAction Unit).run history = _
  cases host.refusal? history text <;> rfl

theorem run_run (host : Host) (command : String) (position : Position) (history : History) :
    (host.run command position).run history =
      match host.reply history command with
      | .ok printed => (.ok printed, .ran command :: history)
      | .error reason => (.error ⟨.commandFailed command reason, position⟩,
          .ran command :: history) := by
  change (match host.reply history command with
    | .ok printed => pure printed
    | .error reason =>
        Fallible.fail (.commandFailed command reason) position : HostAction String).run
      (.ran command :: history) = _
  cases host.reply history command <;> rfl

end Host

end WindowScript
