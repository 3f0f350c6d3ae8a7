import WindowScript.Evaluation.Session
import WindowScript.Parser.Program
import WindowScript.Python.Program
import WindowScript.Token.Lexer

/-!
# Scripts

What can be done with a source text: read it as a program, run it, or compile it. The
first stage that fails ends the work.
-/

set_option autoImplicit false

namespace WindowScript

inductive ScriptError where
  | lexical (failure : LexError)
  | grammatical (failure : ParseError)
  | runtime (failure : RuntimeError)

namespace ScriptError

def position : ScriptError → Position
  | .lexical failure => failure.position
  | .grammatical failure => failure.position
  | .runtime failure => failure.position

def message : ScriptError → String
  | .lexical failure => failure.message
  | .grammatical failure => failure.message
  | .runtime failure => failure.message

end ScriptError

namespace Script

def read (source : String) : Except ScriptError Program :=
  match tokenize source with
  | .error failure => .error (.lexical failure)
  | .ok tokens =>
      match parse tokens with
      | .error failure => .error (.grammatical failure)
      | .ok program => .ok program

/-- Runs a source text in a session. A text that is no program runs not at all. -/
def runIn (host : Host) (session : Session) (source : String) :
    Except ScriptError Value × Session :=
  match read source with
  | .error failure => (.error failure, session)
  | .ok program =>
      match session.run host program with
      | (.ok value, after) => (.ok value, after)
      | (.error failure, after) => (.error (.runtime failure), after)

def run (host : Host) (source : String) : Except ScriptError Value × History :=
  let (result, session) := runIn host .fresh source
  (result, session.history)

/-- The line that shows the result of a run, unless it is absent. -/
def shownResult (value : Value) : String :=
  if value.isAbsent then "" else Value.display false value ++ "\n"

def compile (source : String) : Except ScriptError String :=
  (read source).map Python.generate

end Script

end WindowScript
