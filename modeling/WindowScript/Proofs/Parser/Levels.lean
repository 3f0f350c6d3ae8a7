import WindowScript.Proofs.Parser.Positions

/-!
# More levels of nesting

A parser that may use more levels of nesting comes to the same, except where it ran out of them
before. So no answer but that one depends on how many levels there are.
-/

set_option autoImplicit false

namespace WindowScript.Parser

/-- A reply with few levels is also the reply with more, unless it is that they do not suffice. -/
def Agrees {α : Type} (few many : Except ParseError α) : Prop :=
  many = few ∨ ∃ position, few = .error ⟨.nestingTooDeep, position⟩

section

variable {α β : Type}

private theorem Agrees.refl (reply : Except ParseError α) : Agrees reply reply := .inl rfl

private theorem Agrees.bind {few many : Except ParseError α} {next later : α → Except ParseError β}
    (agrees : Agrees few many) (onward : ∀ found, Agrees (next found) (later found)) :
    Agrees (few >>= next) (many >>= later) := by
  rcases agrees with rfl | ⟨position, rfl⟩
  · cases many with
    | ok found => exact onward found
    | error failure => exact .refl _
  · exact .inr ⟨position, rfl⟩

end

/-!
## Single statements

No position moves from few levels to many.
-/

@[simp] theorem relocateTokens_id (tokens : List PlacedToken) : relocateTokens id tokens = tokens :=
  List.map_id tokens

@[simp] theorem relocateReply_id {α : Type} (reply : Except ParseError (α × List PlacedToken)) :
    relocateReply id id reply = reply := by
  cases reply with
  | error failure => rfl
  | ok answer => simp only [relocateReply, relocateTokens_id, id]

/-- Replies agree on what they are to a parser with more levels. -/
def nested : Correspondence where
  move := id
  Keeps _ := True
  Misses _ := True
  Rel image few many := Agrees (relocateReply id image few) many
  nowhere := id_eq _
  behind _ _ := trivial
  interface _ := trivial
  ok _ _ _ := .refl _
  bind {_ _ _ _ _ _ few _ _ _} first onward := by
    rcases first with rfl | ⟨position, spent⟩
    · cases few with
      | error failure => exact .refl _
      | ok answer => exact onward answer.1 answer.2 trivial
    · cases few with
      | error failure => exact .inr ⟨position, congrArg Except.error (Except.error.inj spent)⟩
      | ok answer => cases spent
  refuse image expected _ := .inl (refuse_relocate rfl image expected _)
  callTarget _ _ := .refl _
  missing _ _ _ := .refl _

private theorem expression_nested (rounds : Nat) {depth deeper : Nat} (le : depth ≤ deeper) :
    nested.Follows (Expr.relocate id) (expression rounds depth) (expression rounds deeper) := by
  induction depth generalizing deeper with
  | zero => exact fun tokens _ => .inr ⟨_, rfl⟩
  | succ depth ih =>
      obtain ⟨deeper, rfl⟩ := Nat.exists_eq_add_of_le' (Nat.le_trans (Nat.le_add_left 1 depth) le)
      exact Correspondence.levels (ih (Nat.le_of_succ_le_succ le)) rounds Level.all

private theorem statement_nested (rounds : Nat) {depth deeper : Nat} (le : depth ≤ deeper) :
    nested.Follows (Statement.relocate id) (statement rounds depth) (statement rounds deeper) := by
  induction depth generalizing deeper with
  | zero => exact fun tokens _ => .inr ⟨_, rfl⟩
  | succ depth ih =>
      obtain ⟨deeper, rfl⟩ := Nat.exists_eq_add_of_le' (Nat.le_trans (Nat.le_add_left 1 depth) le)
      have shallower := Nat.le_of_succ_le_succ le
      have core := Correspondence.statementCore (expression_nested rounds shallower)
        (ih shallower) rounds
      exact fun tokens _ => nested.bind (core trivial) fun found rest _ =>
        nested.skipped _ found trivial

theorem statement_extends (rounds : Nat) {depth deeper : Nat} (le : depth ≤ deeper)
    (tokens : List PlacedToken) :
    Agrees (statement rounds depth tokens) (statement rounds deeper tokens) := by
  have unmoved : Statement.relocate id = id := funext Statement.relocate_id
  have follows : Agrees (relocateReply id (Statement.relocate id) (statement rounds depth tokens))
      (statement rounds deeper (relocateTokens id tokens)) := statement_nested rounds le trivial
  rwa [unmoved, relocateReply_id, relocateTokens_id] at follows

/-!
## Programs
-/

theorem statements_agrees {few many : Parser Statement}
    (more : ∀ tokens, Agrees (few tokens) (many tokens)) (last : Position)
    (rounds : Nat) (read : List Statement) (tokens : List PlacedToken) :
    Agrees (statements few last rounds read tokens) (statements many last rounds read tokens) := by
  induction rounds generalizing read tokens with
  | zero =>
      cases tokens with
      | nil => exact .refl _
      | cons head rest =>
          obtain ⟨token, position⟩ := head
          cases token <;> exact .refl _
  | succ rounds ih =>
      cases tokens with
      | nil => exact .refl _
      | cons head rest =>
          obtain ⟨token, position⟩ := head
          by_cases final : token = .endOfInput
          · subst final
            exact .refl _
          · rw [statements_step _ _ _ _ _ _ final, statements_step _ _ _ _ _ _ final]
            exact (more _).bind fun (found, rest) => ih (found :: read) rest

end WindowScript.Parser
