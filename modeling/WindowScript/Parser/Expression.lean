import WindowScript.Parser.Basic
import WindowScript.Program.Attributes

/-!
# Reading expressions

Operators bind at four levels, from the loosest: the pipe, equality, sums and
products. All of them group to the left. Tighter than any operator bind attribute
reads and calls, and only a plain name can be called.
-/

set_option autoImplicit false

namespace WindowScript

def Symbol.operator? : Symbol → Option Operator
  | .plus => some .add
  | .minus => some .sub
  | .star => some .mul
  | .slash => some .div
  | .equals => some .equal
  | _ => none

def Token.operator? : Token → Option Operator
  | .symbol mark => mark.operator?
  | _ => none

inductive Level where
  | pipeline | equality | sum | product
deriving DecidableEq, Repr

def Operator.level : Operator → Level
  | .equal => .equality
  | .add | .sub => .sum
  | .mul | .div => .product

namespace Level

/-- Every level, from the loosest. -/
def all : List Level := [.pipeline, .equality, .sum, .product]

/-- How a token of this level joins the expressions on its two sides. -/
def join? (level : Level) : Token → Option (Expr → Expr → Position → Expr)
  | .symbol .pipe => if level = .pipeline then some .pipe else none
  | token =>
      match token.operator? with
      | some operator => if operator.level = level then some (.binary operator) else none
      | none => none

end Level

namespace Parser

/-- Reads one entry of a record: a word, an equals sign, an expression and perhaps a
semicolon. -/
def recordEntry (nested : Parser Expr) : Parser (String × Expr) := fun tokens => do
  let (name, rest) ← word .attributeNameOrEnd tokens
  let (_, rest) ← symbol .assign rest
  let (value, rest) ← nested rest
  .ok ((name, value), skipSemicolon rest)

/-- Reads a literal, a name, or an expression between delimiters. -/
def primary (rounds : Nat) (nested : Parser Expr) : Parser Expr
  | (.integer value, position) :: rest => .ok (.integer value position, rest)
  | (.real value, position) :: rest => .ok (.real value position, rest)
  | (.text value, position) :: rest => .ok (.text value position, rest)
  | (.keyword .trueWord, position) :: rest => .ok (.boolean true position, rest)
  | (.keyword .falseWord, position) :: rest => .ok (.boolean false position, rest)
  | (.identifier name, position) :: rest => .ok (.name name position, rest)
  | (.symbol .openRound, _) :: rest => do
      let (inner, rest) ← nested rest
      let (_, rest) ← symbol .closeRound rest
      .ok (inner, rest)
  | (.symbol .openCurly, position) :: rest => do
      let (entries, rest) ← delimited (recordEntry nested) .closeCurly rounds [] rest
      .ok (.record (Attributes.ofEntries entries) position, rest)
  | (.symbol .openSquare, position) :: rest => do
      let (items, rest) ← separated nested .closeSquare rounds [] rest
      .ok (.list items position, rest)
  | tokens => refuse .expression tokens

/-- Reads the attribute reads and calls that follow `node`. -/
def suffixes (rounds : Nat) (nested : Parser Expr) : Nat → Expr → Parser Expr
  | 0, node, tokens => .ok (node, tokens)
  | more + 1, node, tokens =>
      match tokens with
      | (.symbol .dot, position) :: rest => do
          let (key, rest) ← word .attributeName rest
          suffixes rounds nested more (.access node key position) rest
      | (.symbol .openRound, position) :: rest =>
          match node with
          | .name callee origin => do
              let (arguments, rest) ← separated nested .closeRound rounds [] rest
              suffixes rounds nested more (.call callee arguments origin) rest
          | _ => .error ⟨.invalidCallTarget, position⟩
      | _ => .ok (node, tokens)

def applied (rounds : Nat) (nested : Parser Expr) : Parser Expr := fun tokens => do
  let (node, rest) ← primary rounds nested tokens
  suffixes rounds nested rounds node rest

/-- Reads the operators of one level and their right sides, which group to the left. -/
def chain (level : Level) (operand : Parser Expr) : Nat → Expr → Parser Expr
  | 0, left, tokens => .ok (left, tokens)
  | more + 1, left, tokens =>
      match tokens with
      | (token, position) :: rest =>
          match level.join? token with
          | some join => do
              let (right, rest) ← operand rest
              chain level operand more (join left right position) rest
          | none => .ok (left, tokens)
      | [] => .ok (left, tokens)

/-- Reads an expression whose operators are of the given levels, loosest first. -/
def levels (rounds : Nat) (nested : Parser Expr) : List Level → Parser Expr
  | [], tokens => applied rounds nested tokens
  | level :: tighter, tokens => do
      let (left, rest) ← levels rounds nested tighter tokens
      chain level (levels rounds nested tighter) rounds left rest

/-- Reads an expression in which expressions nest at most `depth` deep. No sequence
that it is read from may have more than `rounds` tokens. -/
def expression (rounds : Nat) : Nat → Parser Expr
  | 0, tokens => .error ⟨.nestingTooDeep, nextPosition tokens⟩
  | depth + 1, tokens => levels rounds (expression rounds depth) Level.all tokens

end Parser

end WindowScript
