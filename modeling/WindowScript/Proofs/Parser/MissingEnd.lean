import WindowScript.Proofs.Parser.Correspondence
import WindowScript.Proofs.Parser.Separators

/-!
# Tokens without an end of input

A program is never read from tokens without an end of input. When nothing else is missing, the
failure is at the last of the tokens. When they run out inside of a statement, the failure has
no position at all, or that of the word of an interface.
-/

set_option autoImplicit false

namespace WindowScript

namespace Parser

/-!
## Where parsers miss a token

The parsers inside of a statement give no position to a missing token, but for the parts of an
interface, which give it the position of the word that the interface begins with.
-/

/-- A missing token may be reported at no position, and at the words of interfaces among the
tokens. -/
def Allows (place : Position → Prop) (tokens : List PlacedToken) : Prop :=
  place .nowhere ∧ ∀ position, (.keyword .gui, position) ∈ tokens → place position

/-- Where a failure is for want of tokens, it is at a place for it. -/
def MissesAt (place : Position → Prop) (failure : ParseError) : Prop :=
  failure.cause = .unexpectedEnd → place failure.position

private theorem Allows.behind {place : Position → Prop} {token : PlacedToken}
    {rest : List PlacedToken} (allows : Allows place (token :: rest)) : Allows place rest :=
  ⟨allows.1, fun position member => allows.2 position (List.mem_cons_of_mem token member)⟩

private theorem allows_of_suffix {tokens rest : List PlacedToken} (later : rest <:+ tokens) :
    Allows (fun position => position = .nowhere ∨ (.keyword .gui, position) ∈ tokens) rest :=
  ⟨.inl rfl, fun _ member => .inr (later.subset member)⟩

/-- Parsers miss tokens where they are allowed to, and leave tokens for which the same places
still allow all that they should. -/
def missing (place : Position → Prop) : Account where
  Keeps := Allows place
  Misses := place
  Fails := MissesAt place
  behind _ allows := allows.behind
  interface allows := allows.2 _ List.mem_cons_self
  refuse {_ tokens} _ allows := by
    cases tokens with
    | nil => exact fun _ => allows.1
    | cons head rest => rintro ⟨⟩
  callTarget _ := by rintro ⟨⟩
  missing misses _ := fun _ => misses
  exhausted _ := by rintro ⟨⟩

private theorem statement_misses {place : Position → Prop} (rounds depth : Nat)
    {tokens : List PlacedToken} (allows : Allows place tokens) :
    Accounts (Allows place) (MissesAt place) (statement rounds depth tokens) :=
  (missing place).statement rounds depth allows

/-!
## Programs
-/

/-- An end of input opens and closes nothing. -/
theorem checkNesting_append_end (depth : Nat) (tokens : List PlacedToken) (final : Position) :
    checkNesting depth (tokens ++ [(.endOfInput, final)]) = checkNesting depth tokens := by
  induction tokens generalizing depth with
  | nil => rfl
  | cons head rest ih =>
      obtain ⟨token, position⟩ := head
      simp only [List.cons_append, checkNesting_cons, ih]

private theorem checkNesting_cause {depth : Nat} {tokens : List PlacedToken} {failure : ParseError}
    (failed : checkNesting depth tokens = .error failure) : failure.cause = .nestingTooDeep := by
  induction tokens generalizing depth with
  | nil => cases failed
  | cons head rest ih =>
      obtain ⟨token, position⟩ := head
      rw [checkNesting_cons] at failed
      split at failed
      · split at failed
        · cases failed
          rfl
        · exact ih failed
      · exact ih failed

/-- Tokens have one end of input that comes first. -/
theorem eq_of_endless {left right rest others : List PlacedToken} {final other : Position}
    (leftEndless : Endless left) (rightEndless : Endless right)
    (same : left ++ (.endOfInput, final) :: rest = right ++ (.endOfInput, other) :: others) :
    left = right := by
  induction left generalizing right with
  | nil =>
      cases right with
      | nil => rfl
      | cons head right =>
          cases same
          exact absurd rfl ((endless_cons _ _).mp rightEndless).1
  | cons head left ih =>
      cases right with
      | nil =>
          cases same
          exact absurd rfl ((endless_cons _ _).mp leftEndless).1
      | cons other right =>
          rw [List.cons_append, List.cons_append, List.cons.injEq] at same
          obtain ⟨rfl, same⟩ := same
          rw [ih ((endless_cons _ _).mp leftEndless).2 ((endless_cons _ _).mp rightEndless).2 same]

end Parser

open WindowScript.Parser

/-- A program is read from tokens in front of an end of input when the loop over statements
comes to the end of the tokens without it. -/
theorem parse_append_end_eq_ok_iff {tokens : List PlacedToken} {program : Program}
    (endless : Endless tokens) (final : Position) :
    parse (tokens ++ [(.endOfInput, final)]) = .ok program ↔
      checkNesting 0 tokens = .ok () ∧ Loops (statementOf tokens) tokens program [] := by
  have ended : Apart [(Token.endOfInput, final)] := apart_endOfInput final []
  have empty : Apart [] := ⟨trivial, rfl⟩
  constructor
  · intro parsed
    obtain ⟨body, other, rest, shape, bodyEndless, derived⟩ := parse_sound parsed
    obtain rfl : tokens = body := eq_of_endless endless bodyEndless shape
    obtain ⟨checked, _, _, loops⟩ := parse_eq_ok_iff.mp parsed
    rw [checkNesting_append_end] at checked
    have phrases := Grammar.Padded.repeated_self Grammar.Padded.derivesStatement_self derived
    have onward := loops_statementOf phrases (.inl ⟨ended, empty⟩) loops
    rw [List.append_nil] at onward
    exact ⟨checked, onward⟩
  · rintro ⟨checked, loops⟩
    obtain ⟨body, shape, derived⟩ := phrases_of_loops (statement_sound _) loops
    obtain rfl : tokens = body := by rwa [List.append_nil] at shape
    have phrases := Grammar.Padded.repeated_self Grammar.Padded.derivesStatement_self derived
    rw [shape] at loops
    have onward := loops_statementOf phrases (.inl ⟨empty, ended⟩) loops
    rw [← checkNesting_append_end 0 tokens final] at checked
    exact parse_eq_ok_iff.mpr ⟨checked, final, [], onward⟩

/-- Tokens without an end of input are never read as a program. When nothing but the end of
input is missing, the failure is at the last of them. Otherwise a failure for want of tokens has
no position, or that of the word of an interface. -/
theorem missing_end_fails {tokens : List PlacedToken}
    (endless : ∀ token ∈ tokens, token.1 ≠ .endOfInput) :
    (∀ final program, parse (tokens ++ [(.endOfInput, final)]) = .ok program →
      parse tokens = .error ⟨.unexpectedEnd, lastPosition tokens⟩) ∧
    ((∀ final program, parse (tokens ++ [(.endOfInput, final)]) ≠ .ok program) →
      ∃ failure, parse tokens = .error failure ∧
        (failure.cause = .unexpectedEnd →
          failure.position = .nowhere ∨ (.keyword .gui, failure.position) ∈ tokens)) := by
  constructor
  · intro final program parsed
    obtain ⟨checked, loops⟩ := (parse_append_end_eq_ok_iff endless final).mp parsed
    have count := Nat.le_trans (length_le_of_loops loops) (Nat.le_add_right _ 1)
    obtain ⟨more, enough⟩ := Nat.exists_eq_add_of_le' count
    rw [parse_eq, checked, Except.bind, enough, statements_of_loops loops]
    cases more <;> rfl
  · intro incomplete
    rw [parse_eq]
    cases checked : checkNesting 0 tokens with
    | error failure =>
        refine ⟨failure, rfl, fun cause => ?_⟩
        rw [checkNesting_cause checked] at cause
        cases cause
    | ok passed =>
        rw [Except.bind]
        have outcome := parse_outcome tokens
        generalize statements _ _ _ _ _ = reply at outcome ⊢
        cases outcome with
        | @finished _ final _ loops =>
            obtain ⟨body, shape, _⟩ := phrases_of_loops (statement_sound _) loops
            have member : (.endOfInput, final) ∈ tokens := by
              rw [shape]
              exact List.mem_append_right body List.mem_cons_self
            exact absurd rfl (endless _ member)
        | exhausted loops =>
            have parsed := (parse_append_end_eq_ok_iff endless .nowhere).mpr ⟨checked, loops⟩
            exact absurd parsed (incomplete _ _)
        | @failed _ behind failure loops failed =>
            obtain ⟨body, shape, _⟩ := phrases_of_loops (statement_sound _) loops
            have misses : Accounts _ (MissesAt _) (statementOf tokens behind) :=
              statement_misses _ _ (allows_of_suffix ⟨body, shape.symm⟩)
            rw [failed] at misses
            exact ⟨failure, rfl, misses⟩

/-- The tokens of `let x`. -/
def cutBinding : List PlacedToken := [(.keyword .letWord, ⟨1, 1⟩), (.identifier "x", ⟨1, 5⟩)]

theorem missing_end_fails_cutBinding :
    (∀ final program, parse (cutBinding ++ [(.endOfInput, final)]) = .ok program →
      parse cutBinding = .error ⟨.unexpectedEnd, lastPosition cutBinding⟩) ∧
    ((∀ final program, parse (cutBinding ++ [(.endOfInput, final)]) ≠ .ok program) →
      ∃ failure, parse cutBinding = .error failure ∧
        (failure.cause = .unexpectedEnd →
          failure.position = .nowhere ∨ (.keyword .gui, failure.position) ∈ cutBinding)) :=
  missing_end_fails (by simp [cutBinding])

/-- The failure for want of tokens is not always at the last of them. -/
theorem missing_end_misplaced :
    ¬∀ tokens failure, tokens ≠ [] → (∀ token ∈ tokens, token.1 ≠ .endOfInput) →
      parse tokens = .error failure → failure.cause = .unexpectedEnd →
      failure.position = lastPosition tokens := by
  intro law
  have same := law cutBinding ⟨.unexpectedEnd, .nowhere⟩ (by simp [cutBinding])
    (by simp [cutBinding]) rfl rfl
  cases same

end WindowScript
