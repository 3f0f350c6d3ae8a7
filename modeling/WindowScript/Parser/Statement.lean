import WindowScript.Parser.Expression
import WindowScript.Program.Statement

/-!
# Reading statements

The first token decides which kind of statement follows. Every statement may end
with one semicolon.
-/

set_option autoImplicit false

namespace WindowScript.Parser

/-- Reads one attribute of a window or widget: a word, a colon and an expression. -/
def attributeEntry (expression : Parser Expr) : Parser (String × Expr) := fun tokens => do
  let (name, rest) ← word .attributeName tokens
  let (_, rest) ← symbol .colon rest
  let (value, rest) ← expression rest
  .ok ((name, value), rest)

/-- Reads the attributes of a window or widget between round brackets. -/
def attributes (rounds : Nat) (expression : Parser Expr) : Parser Attributes := fun tokens => do
  let (_, rest) ← symbol .openRound tokens
  let (entries, rest) ← separated (attributeEntry expression) .closeRound rounds [] rest
  .ok (Attributes.ofEntries entries, rest)

def widget (rounds : Nat) (expression : Parser Expr) : Parser Widget
  | (.widget kind, position) :: rest => do
      let (entries, rest) ← attributes rounds expression rest
      .ok (⟨kind, entries, position⟩, skipSemicolon rest)
  | tokens => refuse .widget tokens

/-- Reads a window behind its word, which stands at `position`. -/
def window (rounds : Nat) (expression : Parser Expr) (position : Position) : Parser Window :=
  fun tokens => do
    let (entries, rest) ← attributes rounds expression tokens
    let (_, rest) ← symbol .openCurly rest
    let (children, rest) ← delimited (widget rounds expression) .closeCurly rounds [] rest
    .ok (⟨entries, children, position⟩, rest)

/-- Reads a part of an interface that begins at `origin`. -/
def element (rounds : Nat) (expression : Parser Expr) (origin : Position) : Parser Element :=
  fun tokens =>
    match tokens with
    | (.keyword .window, position) :: rest => do
        let (found, rest) ← window rounds expression position rest
        .ok (.window found, rest)
    | (.widget _, _) :: _ => do
        let (found, rest) ← widget rounds expression tokens
        .ok (.widget found, rest)
    | _ :: _ => refuse .element tokens
    | [] => .error ⟨.unexpectedEnd, origin⟩

def binding (expression : Parser Expr) (position : Position) : Parser Statement :=
  fun tokens => do
    let (name, rest) ← identifier tokens
    let (_, rest) ← symbol .assign rest
    let (value, rest) ← expression rest
    .ok (.binding name value position, rest)

/-- Reads the name, the parameters and the body of a function. -/
def function (rounds : Nat) (statement : Parser Statement) (position : Position) :
    Parser Statement :=
  fun tokens => do
    let (name, rest) ← identifier tokens
    let (_, rest) ← symbol .openRound rest
    let (parameters, rest) ← separated identifier .closeRound rounds [] rest
    let (_, rest) ← symbol .openCurly rest
    let (body, rest) ← delimited statement .closeCurly rounds [] rest
    .ok (.function name parameters body position, rest)

def gui (rounds : Nat) (expression : Parser Expr) (position : Position) : Parser Statement :=
  fun tokens => do
    let (name, rest) ← identifier tokens
    let (_, rest) ← symbol .openCurly rest
    let (elements, rest) ←
      delimited (element rounds expression position) .closeCurly rounds [] rest
    .ok (.gui ⟨name, elements, position⟩, rest)

def statementCore (rounds : Nat) (expression : Parser Expr) (statement : Parser Statement) :
    Parser Statement :=
  fun tokens =>
    match tokens with
    | (.keyword .letWord, position) :: rest => binding expression position rest
    | (.keyword .func, position) :: rest => function rounds statement position rest
    | (.keyword .gui, position) :: rest => gui rounds expression position rest
    | (.keyword .returnWord, position) :: rest => do
        let (value, rest) ← expression rest
        .ok (.returning value position, rest)
    | _ => do
        let (value, rest) ← expression tokens
        .ok (.expression value (nextPosition tokens), rest)

/-- Reads a statement in which statements and expressions nest at most `depth` deep. -/
def statement (rounds : Nat) : Nat → Parser Statement
  | 0, tokens => .error ⟨.nestingTooDeep, nextPosition tokens⟩
  | depth + 1, tokens => do
      let (found, rest) ←
        statementCore rounds (expression rounds depth) (statement rounds depth) tokens
      .ok (found, skipSemicolon rest)

end WindowScript.Parser
