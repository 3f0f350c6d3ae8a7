import WindowScript.Proofs.Parser.Correspondence

/-!
# Positions do not steer the parser

The parser copies positions and never looks at them. When the positions of the tokens
are replaced by their images under a map, the program that is read, or the failure, is
the former one with its positions replaced in the same way. The map has to keep the
position of no character, which the parser makes up where the tokens have run out.
-/

set_option autoImplicit false

namespace WindowScript

def ParseError.relocate (move : Position → Position) (failure : ParseError) : ParseError :=
  ⟨failure.cause, move failure.position⟩

namespace Parser

/-- The reply of a parser with its positions replaced, where `image` does so for results. -/
def relocateReply {α β : Type} (move : Position → Position) (image : α → β) :
    Except ParseError (α × List PlacedToken) → Except ParseError (β × List PlacedToken)
  | .ok (result, rest) => .ok (image result, relocateTokens move rest)
  | .error failure => .error (failure.relocate move)

section

variable {move : Position → Position}

/-- Two parsers in sequence follow when each of them does. -/
private theorem relocateReply_bind {α β γ δ : Type} {image : α → β} {result : γ → δ}
    {reply : Except ParseError (α × List PlacedToken)}
    {next : α × List PlacedToken → Except ParseError (γ × List PlacedToken)}
    {moved : β × List PlacedToken → Except ParseError (δ × List PlacedToken)}
    (follows : ∀ found rest, moved (image found, relocateTokens move rest) =
      relocateReply move result (next (found, rest))) :
    (relocateReply move image reply >>= moved) = relocateReply move result (reply >>= next) := by
  cases reply with
  | error failure => rfl
  | ok answer =>
      obtain ⟨found, rest⟩ := answer
      exact follows found rest

theorem refuse_relocate (kept : move .nowhere = .nowhere) {α β : Type} (image : α → β)
    (expected : Expectation) (tokens : List PlacedToken) :
    refuse expected (relocateTokens move tokens) =
      relocateReply move image (refuse expected tokens) := by
  cases tokens with
  | nil => simp only [relocateTokens_nil, refuse, relocateReply, ParseError.relocate, kept]
  | cons head rest => rfl

/-- Moved tokens are answered by the moved reply. -/
def moved (kept : move .nowhere = .nowhere) : Correspondence where
  move := move
  Keeps _ := True
  Misses _ := True
  Rel image one other := other = relocateReply move image one
  nowhere := kept
  behind _ _ := trivial
  interface _ := trivial
  ok _ _ _ := rfl
  bind first onward := by
    subst first
    exact relocateReply_bind fun found rest => onward found rest trivial
  refuse image expected _ := refuse_relocate kept image expected _
  callTarget _ _ := rfl
  missing _ _ _ := rfl

private theorem statement_relocate (kept : move .nowhere = .nowhere) (rounds depth : Nat)
    (tokens : List PlacedToken) :
    statement rounds depth (relocateTokens move tokens) =
      relocateReply move (Statement.relocate move) (statement rounds depth tokens) := by
  refine (moved kept).statement (fun image _ => ?_) rounds depth trivial
  rw [(moved kept).nextPosition_relocate]
  rfl

end

/-!
## Programs
-/

private theorem checkNesting_relocate (move : Position → Position) (depth : Nat)
    (tokens : List PlacedToken) :
    checkNesting depth (relocateTokens move tokens) =
      (checkNesting depth tokens).mapError (ParseError.relocate move) := by
  induction tokens generalizing depth with
  | nil => rfl
  | cons head rest ih =>
      obtain ⟨token, position⟩ := head
      cases token with
      | symbol mark =>
          simp only [relocateTokens_cons, checkNesting]
          split
          · split
            · rfl
            · exact ih (depth + 1)
          · split
            · exact ih (depth - 1)
            · exact ih depth
      | _ => exact ih depth

private theorem lastPosition_relocate {move : Position → Position} (kept : move .nowhere = .nowhere)
    (tokens : List PlacedToken) :
    lastPosition (relocateTokens move tokens) = move (lastPosition tokens) := by
  unfold lastPosition relocateTokens
  rw [List.getLast?_map]
  cases tokens.getLast? with
  | none => exact kept.symm
  | some last => rfl

end Parser

def relocateAnswer (move : Position → Position) :
    Except ParseError Program → Except ParseError Program
  | .ok program => .ok (program.relocate move)
  | .error failure => .error (failure.relocate move)

namespace Parser

private theorem statements_relocate {move : Position → Position} {one : Parser Statement}
    (follows : ∀ tokens, one (relocateTokens move tokens) =
      relocateReply move (Statement.relocate move) (one tokens)) (last : Position) (rounds : Nat)
    (read : List Statement) (tokens : List PlacedToken) :
    statements one (move last) rounds (read.map (Statement.relocate move))
        (relocateTokens move tokens) =
      relocateAnswer move (statements one last rounds read tokens) := by
  induction rounds generalizing read tokens with
  | zero =>
      cases tokens with
      | nil => rfl
      | cons head rest =>
          obtain ⟨token, position⟩ := head
          cases token with
          | endOfInput =>
              simp only [relocateTokens_cons, statements, relocateAnswer, Program.relocate,
                List.map_reverse]
          | _ => rfl
  | succ rounds ih =>
      cases tokens with
      | nil => rfl
      | cons head rest =>
          obtain ⟨token, position⟩ := head
          by_cases ended : token = .endOfInput
          · subst ended
            simp only [relocateTokens_cons, statements, relocateAnswer, Program.relocate,
              List.map_reverse]
          · have first := follows ((token, position) :: rest)
            rw [relocateTokens_cons] at first ⊢
            rw [statements_step _ _ _ _ _ _ ended, statements_step _ _ _ _ _ _ ended, first]
            cases one ((token, position) :: rest) with
            | error failure => rfl
            | ok answer =>
                obtain ⟨found, behind⟩ := answer
                exact ih (found :: read) behind

end Parser

/-- The positions of the tokens reach the program, or the failure, and nothing else of
the answer depends on them. -/
theorem parse_relocate {move : Position → Position} (kept : move .nowhere = .nowhere)
    (tokens : List PlacedToken) :
    parse (relocateTokens move tokens) = relocateAnswer move (parse tokens) := by
  unfold parse Parser.programWithin
  rw [Parser.checkNesting_relocate, length_relocateTokens, Parser.lastPosition_relocate kept]
  cases Parser.checkNesting 0 tokens with
  | error failure => rfl
  | ok checked =>
      exact Parser.statements_relocate (Parser.statement_relocate kept _ _)
        (Parser.lastPosition tokens) (tokens.length + 1) [] tokens

end WindowScript
