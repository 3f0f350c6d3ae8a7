import WindowScript.Parser.Statement

/-!
# Reading programs

A token sequence is a program when its delimiters never nest deeper than a fixed
limit and it consists of statements up to the end of input. What follows the end of
input is not read.
-/

set_option autoImplicit false

namespace WindowScript

/-- How many delimiters may be open at once. -/
def maxNesting : Nat := 128

namespace Parser

/-- Fails at the first opening delimiter that stands inside too many others. A closing
delimiter ends whichever was opened last, and one that closes nothing is passed over. -/
def checkNesting (depth : Nat) : List PlacedToken → Except ParseError Unit
  | [] => .ok ()
  | (token, position) :: rest =>
      match token with
      | .symbol mark =>
          if mark.opens then
            if maxNesting ≤ depth then .error ⟨.nestingTooDeep, position⟩
            else checkNesting (depth + 1) rest
          else if mark.closes then checkNesting (depth - 1) rest
          else checkNesting depth rest
      | _ => checkNesting depth rest

/-- Reads statements up to the end of input, behind those in `read`, which are kept in
reverse. A sequence without an end of input fails at its `last` token. -/
def statements (one : Parser Statement) (last : Position) :
    Nat → List Statement → List PlacedToken → Except ParseError Program
  | _, _, [] => .error ⟨.unexpectedEnd, last⟩
  | _, read, (.endOfInput, _) :: _ => .ok read.reverse
  | 0, _, _ :: _ => .error ⟨.unexpectedEnd, last⟩
  | rounds + 1, read, tokens => do
      let (found, rest) ← one tokens
      statements one last rounds (found :: read) rest

/-- Before any other token than the end of input, one more statement is read. -/
theorem statements_step (one : Parser Statement) (last : Position) (rounds : Nat)
    (read : List Statement) {token : Token} (position : Position) (rest : List PlacedToken)
    (going : token ≠ .endOfInput) :
    statements one last (rounds + 1) read ((token, position) :: rest) =
      (one ((token, position) :: rest)).bind fun answer =>
        statements one last rounds (answer.1 :: read) answer.2 := by
  rw [statements]
  · rfl
  · simp
  · simpa using going

def lastPosition (tokens : List PlacedToken) : Position :=
  (tokens.getLast?.map Prod.snd).getD .nowhere

/-- Reads a program in which statements and expressions nest at most `depth` deep. -/
def programWithin (depth : Nat) (tokens : List PlacedToken) : Except ParseError Program := do
  checkNesting 0 tokens
  let rounds := tokens.length + 1
  statements (statement rounds depth) (lastPosition tokens) rounds [] tokens

end Parser

/-- The program that a token sequence stands for. Every level of nesting takes a token
of its own, so that the number of tokens bounds the depth. -/
def parse (tokens : List PlacedToken) : Except ParseError Program :=
  Parser.programWithin (tokens.length + 2) tokens

end WindowScript
