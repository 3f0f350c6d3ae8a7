import WindowScript.Number.Shortest
import WindowScript.Value.Basic

/-!
# Failures of evaluation

Why a run stops early. Each failure has a cause and the position of the expression
that met it; the wording of every cause is in one place.
-/

set_option autoImplicit false

namespace WindowScript

inductive Mismatch where
  | operands (operator : Operator) (left right : Kind)
  | noRecord (key : String) (found : Kind)
  | noNumber (found : Kind)
  | argument (builtin : Builtin) (found : Kind)
deriving DecidableEq, Repr

def Mismatch.details : Mismatch → String
  | .operands operator left right =>
      s!"unsupported operand types for {operator.spelling}: {left.name} and {right.name}"
  | .noRecord key found => s!"cannot read attribute `{key}` of a {found.name} value"
  | .noNumber found => s!"expected a number, found {found.name}"
  | .argument builtin found => s!"{builtin.name}() does not accept a {found.name} argument"

/-- An argument of the right kind that has no meaning for its function. -/
inductive Unusable where
  | noInteger (text : String)
  | noReal (text : String)
  | noIntegerPart (real : Float)

def Unusable.details : Unusable → String
  | .noInteger text => s!"invalid literal for int(): '{text}'"
  | .noReal text => s!"could not convert string to float: '{text}'"
  | .noIntegerPart real => s!"cannot convert {Real.text real} to int"

inductive RuntimeCause where
  | unknownVariable (name : String)
  | unknownFunction (name : String)
  | typeError (mismatch : Mismatch)
  | notCallable (name : String) (found : Kind)
  | divisionByZero
  | overflow
  | argumentCount (builtin : Builtin) (accepted : Arity) (found : Nat)
  | invalidArgument (argument : Unusable)
  | commandFailed (command reason : String)
  | assertionFailed
  | outputFailed (reason : String)
  | recursionLimit

namespace RuntimeCause

def message : RuntimeCause → String
  | .unknownVariable name => s!"Unknown variable '{name}'."
  | .unknownFunction name => s!"Unknown function '{name}'."
  | .typeError mismatch => s!"Type error: {mismatch.details}."
  | .notCallable name found => s!"'{name}' is a {found.name}, not a function."
  | .divisionByZero => "Division by zero."
  | .overflow => "Overflow while trying to compute result."
  | .argumentCount builtin accepted found =>
      s!"'{builtin.name}' takes {accepted.text} argument(s) but {found} were given."
  | .invalidArgument argument => s!"Invalid argument: {argument.details}."
  | .commandFailed command reason => s!"Command '{command}' failed: {reason}."
  | .assertionFailed => "Assertion failed."
  | .outputFailed reason => s!"Could not write output: {reason}."
  | .recursionLimit => "Maximum recursion depth exceeded."

def isUnresolvedName : RuntimeCause → Bool
  | .unknownVariable _ | .unknownFunction _ => true
  | _ => false

end RuntimeCause

/-- A failed evaluation, and the position of what failed. -/
structure RuntimeError where
  cause : RuntimeCause
  position : Position

def RuntimeError.message (failure : RuntimeError) : String :=
  s!"Error on {failure.position.text}: {failure.cause.message}"

end WindowScript
