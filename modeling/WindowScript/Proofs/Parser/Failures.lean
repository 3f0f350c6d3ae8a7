import WindowScript.Proofs.Parser.Correspondence
import WindowScript.Proofs.Parser.Nesting
import WindowScript.Proofs.Parser.Soundness

/-!
# Where parsers fail

No parser reads the end of input. As long as there is one among the tokens, every failure
is at a token that is still there, and never for want of tokens.
-/

set_option autoImplicit false

namespace WindowScript

namespace Parser

/-- A failure at one of the tokens. Where a failure names the token that it found, it is at
that very token. -/
inductive Blames (tokens : List PlacedToken) : ParseError → Prop where
  | unexpected {expected : Expectation} {token : Token} {position : Position}
      (member : (token, position) ∈ tokens) :
      Blames tokens ⟨.unexpectedToken expected token, position⟩
  | callTarget {token : Token} {position : Position} (member : (token, position) ∈ tokens) :
      Blames tokens ⟨.invalidCallTarget, position⟩
  | nesting {token : Token} {position : Position} (member : (token, position) ∈ tokens) :
      Blames tokens ⟨.nestingTooDeep, position⟩

def Ended (tokens : List PlacedToken) : Prop := ¬Endless tokens

private theorem ended_cons {token : Token} {position : Position} {rest : List PlacedToken}
    (going : token ≠ .endOfInput) : Ended ((token, position) :: rest) ↔ Ended rest := by
  simp [Ended, going]

private theorem Blames.mono {tokens rest : List PlacedToken} {failure : ParseError}
    (blames : Blames rest failure) (later : rest <:+ tokens) : Blames tokens failure := by
  cases blames with
  | unexpected member => exact .unexpected (later.subset member)
  | callTarget member => exact .callTarget (later.subset member)
  | nesting member => exact .nesting (later.subset member)

/-- A last part of `tokens` that still has an end of input. -/
def Leaves (tokens rest : List PlacedToken) : Prop := rest <:+ tokens ∧ Ended rest

/-- A parser that is given a last part of `tokens` leaves a last part of them, or it blames one
of them. -/
def blaming (tokens : List PlacedToken) : Account where
  Keeps := Leaves tokens
  Misses _ := True
  Fails := Blames tokens
  behind going leaves :=
    ⟨(List.suffix_cons _ _).trans leaves.1, (ended_cons going).mp leaves.2⟩
  interface _ := trivial
  refuse {_ rest} expected leaves := by
    cases rest with
    | nil => exact absurd endless_nil leaves.2
    | cons head rest => exact Blames.unexpected (leaves.1.subset List.mem_cons_self)
  callTarget leaves := .callTarget (leaves.1.subset List.mem_cons_self)
  missing _ leaves := absurd endless_nil leaves.2
  -- Running out of levels is blamed on the next token.
  exhausted {rest} leaves := by
    cases rest with
    | nil => exact absurd endless_nil leaves.2
    | cons head rest => exact .nesting (leaves.1.subset List.mem_cons_self)

theorem statement_accounts (rounds depth : Nat) {tokens : List PlacedToken} (ended : Ended tokens) :
    Accounts (Leaves tokens) (Blames tokens) (statement rounds depth tokens) :=
  (blaming tokens).statement rounds depth ⟨List.suffix_rfl, ended⟩

/-!
## Programs
-/

private theorem checkNesting_blames {tokens : List PlacedToken} {depth : Nat} {failure : ParseError}
    (failed : checkNesting depth tokens = .error failure) : Blames tokens failure := by
  induction tokens generalizing depth with
  | nil => cases failed
  | cons head rest ih =>
      obtain ⟨token, position⟩ := head
      have later := List.suffix_cons (token, position) rest
      rw [checkNesting_cons] at failed
      split at failed
      · split at failed
        · cases failed
          exact .nesting List.mem_cons_self
        · exact (ih failed).mono later
      · exact (ih failed).mono later

/-- The loop over statements reads a token in each of its rounds, so that the rounds do not
run out before the tokens. -/
theorem statements_blames {one : Parser Statement}
    (accounts : ∀ tokens, Ended tokens → Accounts (Leaves tokens) (Blames tokens) (one tokens))
    (sound : Sound one Grammar.DerivesStatement) {last : Position} {rounds : Nat}
    {read : List Statement} {tokens : List PlacedToken} {failure : ParseError}
    (ended : Ended tokens) (enough : tokens.length ≤ rounds)
    (failed : statements one last rounds read tokens = .error failure) :
    Blames tokens failure := by
  induction rounds generalizing read tokens with
  | zero =>
      rw [List.length_eq_zero_iff.mp (Nat.le_zero.mp enough)] at ended
      exact absurd endless_nil ended
  | succ rounds ih =>
      cases tokens with
      | nil => exact absurd endless_nil ended
      | cons head rest =>
          obtain ⟨token, position⟩ := head
          by_cases final : token = .endOfInput
          · subst final
            cases failed
          · rw [statements_step _ _ _ _ _ _ final] at failed
            have accounted := accounts _ ended
            cases answered : one ((token, position) :: rest) with
            | error other =>
                rw [answered] at accounted failed
                cases failed
                exact accounted
            | ok answer =>
                rw [answered] at accounted failed
                obtain ⟨used, shape, _, phrase⟩ := sound answered
                have shorter : answer.2.length ≤ rounds := by
                  have length := congrArg List.length shape
                  have nonempty := List.length_pos_iff.mpr phrase.ne_nil
                  simp only [List.length_append] at length
                  omega
                exact (ih accounted.2 shorter failed).mono accounted.1

end Parser

theorem parse_blames {tokens : List PlacedToken} {failure : ParseError}
    (ended : Parser.Ended tokens) (failed : parse tokens = .error failure) :
    Parser.Blames tokens failure := by
  unfold parse Parser.programWithin at failed
  cases checked : Parser.checkNesting 0 tokens with
  | error other =>
      rw [checked] at failed
      cases failed
      exact Parser.checkNesting_blames checked
  | ok passed =>
      rw [checked] at failed
      exact Parser.statements_blames (fun _ ended => Parser.statement_accounts _ _ ended)
        (Parser.statement_sound _) ended (Nat.le_succ _) failed

end WindowScript
