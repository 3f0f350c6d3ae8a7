import WindowScript.Evaluation.Host
import WindowScript.Evaluation.Operators
import WindowScript.Number.Numeral
import WindowScript.Text.Blank
import WindowScript.Value.Display

/-!
# Builtins

What the functions that every program starts with do to their arguments.
-/

set_option autoImplicit false

namespace WindowScript.Builtin

/-- The failure of a builtin on an argument of the wrong kind. -/
def unaccepted (builtin : Builtin) (argument : Value) : RuntimeCause :=
  .typeError (.argument builtin argument.kind)

def integerOfCount (count : Nat) : Except RuntimeCause Value :=
  match Integer.ofInt? count with
  | some value => .ok (.integer value)
  | none => .error .overflow

def length : Value → Except RuntimeCause Value
  | .text value => integerOfCount value.length
  | .list items => integerOfCount items.length
  | .record entries => integerOfCount entries.length
  | other => .error (unaccepted .len other)

def integerPart (real : Float) : Except RuntimeCause Value :=
  match Real.truncate real with
  | .ok value => .ok (.integer value)
  | .error .outOfRange => .error .overflow
  | .error .notFinite => .error (.invalidArgument (.noIntegerPart real))

/-- A value as an integer. White space around a numeral is passed over. -/
def toInteger : Value → Except RuntimeCause Value
  | .integer value => .ok (.integer value)
  | .real value => integerPart value
  | .boolean value => .ok (.integer (if value then 1 else 0))
  | .text value =>
      match Numeral.readInteger? (Text.trimBlank value.toList) with
      | some integer => .ok (.integer integer)
      | none => .error (.invalidArgument (.noInteger value))
  | other => .error (unaccepted .int other)

/-- A value as a real. White space around a numeral is passed over. -/
def toReal : Value → Except RuntimeCause Value
  | .integer value => (Value.integer value).toReal.map .real
  | .real value => .ok (.real value)
  | .boolean value => .ok (.real (if value then 1.0 else 0.0))
  | .text value =>
      match Numeral.readReal? (Text.trimBlank value.toList) with
      | some real => .ok (.real real)
      | none => .error (.invalidArgument (.noReal value))
  | other => .error (unaccepted .float other)

/-- Holds of `true` alone. -/
def assertion : Value → Except RuntimeCause Value
  | .boolean true => .ok (.boolean true)
  | _ => .error .assertionFailed

/-- The line that shows some values, with spaces between them. -/
def line (arguments : List Value) : String :=
  " ".intercalate (arguments.map (Value.display false)) ++ "\n"

def runCommand (host : Host) (argument : Value) (position : Position) : HostAction Value :=
  match argument with
  | .text command => do
      let printed ← host.run command position
      pure (.text printed)
  | other => Fallible.fail (unaccepted .run other) position

def applyOne (host : Host) (builtin : Builtin) (argument : Value) (position : Position) :
    HostAction Value :=
  match builtin with
  | .echo => do
      host.write (line [argument]) position
      pure .absent
  | .run => runCommand host argument position
  | .len => Fallible.place position (length argument)
  | .str => pure (.text (Value.display false argument))
  | .int => Fallible.place position (toInteger argument)
  | .float => Fallible.place position (toReal argument)
  | .assert => Fallible.place position (assertion argument)

def apply (host : Host) (builtin : Builtin) (arguments : List Value) (position : Position) :
    HostAction Value :=
  match builtin, arguments with
  | .echo, _ => do
      host.write (line arguments) position
      pure .absent
  | _, [argument] => builtin.applyOne host argument position
  | _, _ => Fallible.fail (.argumentCount builtin (.exactly 1) arguments.length) position

/-- Calls a builtin, the number of its arguments first of all. -/
def call (host : Host) (builtin : Builtin) (arguments : List Value) (position : Position) :
    HostAction Value :=
  if builtin.arity.accepts arguments.length then builtin.apply host arguments position
  else Fallible.fail (.argumentCount builtin builtin.arity arguments.length) position

end WindowScript.Builtin
