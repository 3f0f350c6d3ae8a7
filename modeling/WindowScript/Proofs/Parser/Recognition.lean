import WindowScript.Proofs.Parser.ExpressionRecognition

/-!
# The recognizer and the parser agree

A sequence of tokens is read as a program exactly when it is recognized as one, and otherwise
both fail at the same token with the same fault, whatever number of levels they may use.
-/

set_option autoImplicit false

namespace WindowScript

namespace Recognizer

open WindowScript.Parser

/-!
## Interfaces
-/

section

variable {limit rounds bodies : Nat} {expression : Parser Expr}
  (sound : Sound expression (Grammar.Derives .pipe))
  (follows : ∀ role, FollowsExpressions limit rounds expression ⟨bodies, role, []⟩)

include follows

private theorem attributeEntry_follows (owner : Owner) {tokens : List PlacedToken}
    (short : tokens.length < rounds) :
    Follows limit tokens
      (proceed limit (onWord .attributeName (.outside bodies (.attributeSign owner))) tokens)
      (attributeEntry expression tokens) fun _ => .outside bodies (.attributeEnd owner) := by
  refine (word_follows _ _ _).bind ?_
  intro name rest _ later
  refine (symbol_follows _ _ _).bind ?_
  intro colon rest _ later
  refine (follows (.attributeOf owner) (by omega)).bind ?_
  intro value rest _ later
  exact .ok (name, value) (fun _ => .outside bodies (.attributeEnd owner)) rest

include sound

private theorem attributes_follows (owner : Owner) {tokens : List PlacedToken}
    (short : tokens.length < rounds) :
    Follows limit tokens (run limit (.outside bodies (.attributesOpen owner)) tokens)
      (attributes rounds expression tokens) fun _ => .outside bodies (attributed owner) := by
  refine (symbol_follows _ _ _).bind ?_
  intro opening rest _ later
  have shortens : Shortens (attributeEntry expression) :=
    shortens_of_sound (attributeEntry_sound sound) (by rintro _ _ ⟨_, _⟩; simp)
  refine (separated_follows _ shortens rfl rfl (attributeEntry_follows follows owner) []
    (by omega : rest.length < rounds) (by omega)).bind ?_
  intro entries rest _ later
  exact .ok _ (fun _ => .outside bodies (attributed owner)) rest

/-- A widget is read behind its word, and perhaps a semicolon behind it. -/
theorem widget_follows (owner : Owner) {home : State}
    (passes : step limit (.outside bodies (attributed owner)) =
      onSymbol .semicolon home (step limit home))
    (kind : String) (position : Position) {rest : List PlacedToken}
    (short : rest.length < rounds) :
    Follows limit rest (run limit (.outside bodies (.attributesOpen owner)) rest)
      (widget rounds expression ((.widget kind, position) :: rest)) fun _ => home := by
  refine (attributes_follows sound follows owner short).bind ?_
  intro entries rest _ later
  exact skipSemicolon_follows (⟨kind, entries, position⟩ : Widget) (fun _ => home) passes rest

private theorem child_follows {tokens : List PlacedToken} (short : tokens.length < rounds) :
    Follows limit tokens (proceed limit (onWidget bodies .child) tokens)
      (widget rounds expression tokens) fun _ => .outside bodies .child := by
  have refusal := refused_follows limit .widget
    (fun _ : Widget => .outside bodies .child) tokens
  cases tokens with
  | nil => exact refusal
  | cons head rest =>
      obtain ⟨token, position⟩ := head
      rw [List.length_cons] at short
      cases token with
      | widget kind =>
          exact reads_follows rfl position rest
            (widget_follows sound follows .child rfl kind position (by omega))
      | _ => exact refusal

private theorem window_follows (position : Position) {tokens : List PlacedToken}
    (short : tokens.length < rounds) :
    Follows limit tokens (run limit (.outside bodies (.attributesOpen .window)) tokens)
      (window rounds expression position tokens) fun _ => .outside bodies .element := by
  refine (attributes_follows sound follows .window short).bind ?_
  intro entries rest _ later
  refine (symbol_follows _ _ _).bind ?_
  intro opening rest _ later
  have shortens : Shortens (widget rounds expression) :=
    shortens_of_sound (widget_sound sound) (by rintro _ _ ⟨_, _⟩; simp)
  refine (delimited_follows _ shortens rfl (child_follows sound follows) []
    (by omega : rest.length < rounds) (by omega)).bind ?_
  intro children rest _ later
  exact .ok _ (fun _ => .outside bodies .element) rest

private theorem element_follows (origin : Position) {tokens : List PlacedToken}
    (short : tokens.length < rounds) :
    Follows limit tokens (proceed limit (onElement bodies) tokens)
      (element rounds expression origin tokens) fun _ => .outside bodies .element := by
  have refusal := refused_follows limit .element
    (fun _ : Element => .outside bodies .element) tokens
  cases tokens with
  | nil => exact ⟨rfl, by rintro _ _ ⟨⟩⟩
  | cons head rest =>
      obtain ⟨token, position⟩ := head
      rw [List.length_cons] at short
      cases token with
      | keyword word =>
          cases word with
          | window =>
              refine reads_follows rfl position rest
                ((window_follows sound follows position (by omega)).bind ?_)
              intro found rest _ later
              exact .ok _ (fun _ => .outside bodies .element) rest
          | _ => exact refusal
      | widget kind =>
          refine reads_follows rfl position rest
            ((widget_follows sound follows .widget rfl kind position (by omega)).bind ?_)
          intro found rest _ later
          exact .ok _ (fun _ => .outside bodies .element) rest
      | _ => exact refusal

/-!
## Statements
-/

omit sound in
private theorem binding_follows (position : Position) {tokens : List PlacedToken}
    (short : tokens.length < rounds) :
    Follows limit tokens (run limit (.outside bodies .bindingName) tokens)
      (binding expression position tokens) fun _ => .outside bodies .ending := by
  refine (identifier_follows _ _).bind ?_
  intro name rest _ later
  refine (symbol_follows _ _ _).bind ?_
  intro sign rest _ later
  refine (follows .statement (by omega)).bind ?_
  intro value rest _ later
  exact .ok _ (fun _ => .outside bodies .ending) rest

private theorem gui_follows (position : Position) {tokens : List PlacedToken}
    (short : tokens.length < rounds) :
    Follows limit tokens (run limit (.outside bodies .guiName) tokens)
      (gui rounds expression position tokens) fun _ => .outside bodies .ending := by
  refine (identifier_follows _ _).bind ?_
  intro name rest _ later
  refine (symbol_follows _ _ _).bind ?_
  intro opening rest _ later
  have shortens : Shortens (element rounds expression position) := by
    refine shortens_of_sound (element_sound sound position) ?_
    rintro _ _ (_ | ⟨_, _⟩) <;> simp
  refine (delimited_follows _ shortens rfl (element_follows sound follows position) []
    (by omega : rest.length < rounds) (by omega)).bind ?_
  intro elements rest _ later
  exact .ok _ (fun _ => .outside bodies .ending) rest

end

private theorem function_follows {limit rounds bodies : Nat} {statement : Parser Statement}
    (sound : Sound statement Grammar.DerivesStatement)
    (follows : ∀ {tokens : List PlacedToken}, tokens.length < rounds →
      Follows limit tokens (proceed limit (onStatement limit (bodies + 1)) tokens)
        (statement tokens) fun _ => .outside (bodies + 1) .statement)
    (position : Position) {tokens : List PlacedToken} (short : tokens.length < rounds) :
    Follows limit tokens (run limit (.outside bodies .functionName) tokens)
      (function rounds statement position tokens) fun _ => .outside bodies .ending := by
  refine (identifier_follows _ _).bind ?_
  intro name rest _ later
  refine (symbol_follows _ _ _).bind ?_
  intro opening rest _ later
  have shortens : Shortens identifier :=
    shortens_of_sound identifier_sound (by rintro _ _ ⟨_, _⟩; simp)
  have names {tokens : List PlacedToken} (_ : tokens.length < rounds) :
      Follows limit tokens (proceed limit (onIdentifier (.outside bodies .parameterEnd)) tokens)
        (identifier tokens) fun _ => .outside bodies .parameterEnd := identifier_follows _ _
  refine (separated_follows _ shortens rfl rfl names []
    (by omega : rest.length < rounds) (by omega)).bind ?_
  intro parameters rest _ later
  refine (symbol_follows _ _ _).bind ?_
  intro bodyOpening rest _ later
  refine (delimited_follows _ (shortens_of_sound sound Grammar.DerivesStatement.ne_nil) rfl follows []
    (by omega : rest.length < rounds) (by omega)).bind ?_
  intro body rest _ later
  exact .ok _ (fun _ => .outside bodies .ending) rest

private theorem statementCore_follows {limit rounds bodies : Nat} {expression : Parser Expr}
    {statement : Parser Statement} (expressionSound : Sound expression (Grammar.Derives .pipe))
    (statementSound : Sound statement Grammar.DerivesStatement)
    (expressionFollows : ∀ role, FollowsExpressions limit rounds expression ⟨bodies, role, []⟩)
    (statementFollows : ∀ {tokens : List PlacedToken}, tokens.length < rounds →
      Follows limit tokens (proceed limit (onStatement limit (bodies + 1)) tokens)
        (statement tokens) fun _ => .outside (bodies + 1) .statement)
    {tokens : List PlacedToken} (short : tokens.length < rounds) :
    Follows limit tokens (proceed limit (onStatementCore limit bodies) tokens)
      (statementCore rounds expression statement tokens) fun _ => .outside bodies .ending := by
  have plain : Follows limit tokens
      (proceed limit (onExpression limit ⟨bodies, .statement, []⟩) tokens)
      (expression tokens >>= fun answer =>
        .ok (Statement.expression answer.1 (nextPosition tokens), answer.2))
      fun _ => .outside bodies .ending := by
    refine (expressionFollows .statement short).bind ?_
    intro value rest _ later
    exact .ok _ (fun _ => .outside bodies .ending) rest
  cases tokens with
  | nil => exact plain
  | cons head rest =>
      obtain ⟨token, position⟩ := head
      rw [List.length_cons] at short
      cases token with
      | keyword word =>
          cases word with
          | letWord =>
              exact reads_follows rfl position rest
                (binding_follows expressionFollows position (by omega))
          | func =>
              exact reads_follows rfl position rest
                (function_follows statementSound statementFollows position (by omega))
          | gui =>
              exact reads_follows rfl position rest
                (gui_follows expressionSound expressionFollows position (by omega))
          | returnWord =>
              refine reads_follows rfl position rest
                ((expressionFollows .statement (by omega)).bind ?_)
              intro value rest _ later
              exact .ok _ (fun _ => .outside bodies .ending) rest
          | _ => exact plain
      | _ => exact plain

/-- The levels left to a statement are those that the functions around it have not used. -/
theorem statement_follows {limit rounds : Nat} (depth : Nat) {bodies : Nat}
    (room : bodies + depth = limit) {tokens : List PlacedToken} (short : tokens.length < rounds) :
    Follows limit tokens (proceed limit (onStatement limit bodies) tokens)
      (statement rounds depth tokens) fun _ => .outside bodies .statement := by
  induction depth generalizing bodies tokens with
  | zero =>
      have full : onStatement limit bodies = fun _ => .fails .nestingTooDeep := by
        funext token?
        exact if_pos (by omega)
      rw [full]
      cases tokens <;> exact ⟨rfl, by rintro _ _ ⟨⟩⟩
  | succ depth ih =>
      have begins : onStatement limit bodies = onStatementCore limit bodies := by
        funext token?
        exact if_neg (by omega)
      rw [begins, statement]
      have expressions (role : Role) :
          FollowsExpressions limit rounds (expression rounds depth) ⟨bodies, role, []⟩ := by
        refine expression_follows depth ?_
        simp only [Surroundings.active, List.length_nil]
        omega
      refine (statementCore_follows (expression_sound depth) (statement_sound depth) expressions
        (ih (by omega)) short).bind ?_
      intro found rest _ later
      exact skipSemicolon_follows found (fun _ => .outside bodies .statement) rfl rest

/-!
## Programs
-/

/-- Whether a program has been read, or the failure. -/
def verdict : Except ParseError Program → Except ParseError Unit
  | .ok _ => .ok ()
  | .error failure => .error failure.endNowhere

/-- The loop over statements reads a token in each of its rounds. -/
theorem verdict_statements {limit rounds : Nat} (last : Position) {more : Nat}
    (read : List Statement) {tokens : List PlacedToken} (short : tokens.length < rounds)
    (enough : tokens.length ≤ more) :
    verdict (statements (statement rounds limit) last more read tokens) =
      run limit .initial tokens := by
  induction more generalizing read tokens with
  | zero =>
      obtain rfl := List.length_eq_zero_iff.mp (Nat.le_zero.mp enough)
      rfl
  | succ more ih =>
      cases tokens with
      | nil => rfl
      | cons head rest =>
          obtain ⟨token, position⟩ := head
          by_cases final : token = .endOfInput
          · subst final
            rfl
          · rw [statements_step _ _ _ _ _ _ final]
            have begins : run limit .initial ((token, position) :: rest) =
                proceed limit (onStatement limit 0) ((token, position) :: rest) := by
              cases token <;> first | rfl | exact absurd rfl final
            have follows := statement_follows limit (Nat.zero_add limit) short
            rw [begins, follows.agrees]
            cases found : statement rounds limit ((token, position) :: rest) with
            | error failure => rfl
            | ok answer =>
                obtain ⟨one, behind⟩ := answer
                have shorter := shortens_of_sound (statement_sound limit)
                  Grammar.DerivesStatement.ne_nil found
                have fewer : behind.length ≤ more :=
                  Nat.le_of_lt_succ (Nat.lt_of_lt_of_le shorter enough)
                exact ih (one :: read) (Nat.lt_trans shorter short) fewer

end Recognizer

namespace Parser

/-- Reads the statements of a program, nested at most `depth` deep, without the check of its
delimiters. -/
def loopWithin (depth : Nat) (tokens : List PlacedToken) : Except ParseError Program :=
  statements (statement (tokens.length + 1) depth) (lastPosition tokens) (tokens.length + 1) []
    tokens

/-- The loop over statements of `parse`. -/
def loop (tokens : List PlacedToken) : Except ParseError Program :=
  loopWithin (tokens.length + 2) tokens

theorem programWithin_eq (depth : Nat) (tokens : List PlacedToken) :
    programWithin depth tokens = (checkNesting 0 tokens).bind fun _ => loopWithin depth tokens := rfl

end Parser

namespace Recognizer

/-- A program is read exactly when it is recognized, and both fail alike. -/
theorem verdict_loopWithin (depth : Nat) (tokens : List PlacedToken) :
    verdict (Parser.loopWithin depth tokens) = run depth .initial tokens :=
  verdict_statements _ [] (Nat.lt_succ_self _) (Nat.le_succ _)

theorem exists_program_of_verdict {reply : Except ParseError Program}
    (read : verdict reply = .ok ()) : ∃ program, reply = .ok program := by
  cases reply with
  | ok program => exact ⟨program, rfl⟩
  | error failure => cases read

theorem eq_error_of_verdict {reply : Except ParseError Program} {failure : ParseError}
    (failed : verdict reply = .error failure) (early : failure.cause ≠ .unexpectedEnd) :
    reply = .error failure := by
  cases reply with
  | ok program => cases failed
  | error found =>
      obtain ⟨cause, position⟩ := found
      cases cause with
      | unexpectedEnd =>
          cases failed
          exact absurd rfl early
      | _ =>
          cases failed
          rfl

end Recognizer

end WindowScript
