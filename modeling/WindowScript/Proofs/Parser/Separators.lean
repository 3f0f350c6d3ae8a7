import WindowScript.Proofs.Parser.Completeness
import WindowScript.Proofs.Parser.Padded

/-!
# Optional separators are neutral

Where an optional separator does not stand, it can be added, and the same program is read from
the tokens, with the same positions.

The grammar does not tell alone what is read, because it lets an opening round bracket stand
behind a statement that ends in an expression. There the parser goes on with the expression, so
that it never reads the two statements that such a derivation has in mind. This is why the
reading of the tokens without the separators is compared all along with that of the tokens with
them.
-/

set_option autoImplicit false

namespace WindowScript

open Grammar

/-- Whether a statement may begin with a token. -/
def Token.beginsStatement : Token → Bool
  | .keyword .letWord | .keyword .func | .keyword .gui | .keyword .returnWord => true
  | token => token.beginsExpression

private theorem Grammar.Padded.DerivesStatement.exists_cons {tokens padded : List PlacedToken}
    {statement : Statement} (phrase : Padded.DerivesStatement tokens padded statement) :
    ∃ first position rest paddedRest, tokens = (first, position) :: rest ∧
      padded = (first, position) :: paddedRest ∧ first.beginsStatement = true := by
  cases phrase with
  | expression derived ended =>
      obtain ⟨first, position, rest, shape, begins⟩ := derived.alike.phrase.exists_cons
      cases shape
      refine ⟨_, _, _, _, rfl, rfl, ?_⟩
      unfold Token.beginsStatement
      split <;> first | rfl | exact begins
  | _ => exact ⟨_, _, _, _, rfl, rfl, rfl⟩

namespace Parser

/-!
## Behind a statement
-/

private theorem apart_of_begins {first : Token} (begins : first.beginsStatement = true)
    (other : first ≠ .symbol .openRound) (position : Position) (rest : List PlacedToken) :
    Apart ((first, position) :: rest) := by
  cases first with
  | symbol mark =>
      cases mark with
      | openRound => exact absurd rfl other
      | openCurly | openSquare => exact ⟨⟨by simp, other, by decide⟩, rfl⟩
      | _ => cases begins
  | _ => exact ⟨⟨by simp, by simp, fun level _ => by cases level <;> rfl⟩, rfl⟩

theorem apart_endOfInput (position : Position) (rest : List PlacedToken) :
    Apart ((.endOfInput, position) :: rest) :=
  ⟨⟨by simp, by simp, fun level _ => by cases level <;> rfl⟩, rfl⟩

private theorem startsWith_closeCurly_of_begins {first : Token}
    (begins : first.beginsStatement = true) (position : Position) (rest : List PlacedToken) :
    startsWith .closeCurly ((first, position) :: rest) = false := by
  cases first with
  | symbol mark => cases mark <;> first | rfl | cases begins
  | _ => rfl

/-- What stands behind a statement and behind the padded statement: nothing that goes on with
them, or an opening round bracket. -/
def Follow (rest paddedRest : List PlacedToken) : Prop :=
  (Apart rest ∧ Apart paddedRest) ∨
    (startsWith .openRound rest = true ∧ startsWith .openRound paddedRest = true)

private theorem follow_of_begins {first : Token} (begins : first.beginsStatement = true)
    (position : Position) (rest paddedRest : List PlacedToken) :
    Follow ((first, position) :: rest) ((first, position) :: paddedRest) := by
  by_cases opens : first = .symbol .openRound
  · rw [opens]
    exact .inr ⟨rfl, rfl⟩
  · exact .inl ⟨apart_of_begins begins opens position rest,
      apart_of_begins begins opens position paddedRest⟩

private theorem Follow.no_semicolon {rest paddedRest : List PlacedToken}
    (follow : Follow rest paddedRest) :
    startsWith .semicolon rest = false ∧ startsWith .semicolon paddedRest = false := by
  have other {tokens : List PlacedToken} (opens : startsWith .openRound tokens = true) :
      startsWith .semicolon tokens = false := by
    obtain ⟨position, shape⟩ := eq_cons_of_startsWith opens
    rw [shape]
    rfl
  exact follow.elim (fun apart => ⟨apart.1.2, apart.2.2⟩)
    fun opens => ⟨other opens.1, other opens.2⟩

/-- Behind a statement comes the next one or what stands behind them all. -/
theorem follow_repeated {tokens padded rest paddedRest : List PlacedToken} {body : List Statement}
    (phrases : Padded.Repeated Padded.DerivesStatement tokens padded body)
    (ends : Follow rest paddedRest) : Follow (tokens ++ rest) (padded ++ paddedRest) := by
  cases phrases with
  | none => exact ends
  | more phrase _ =>
      obtain ⟨first, start, behind, paddedBehind, rfl, rfl, begins⟩ := phrase.exists_cons
      exact follow_of_begins begins start _ _

/-!
## Statements

What each kind of statement comes down to behind its first tokens.
-/

section

variable (rounds depth : Nat) (name : String) (position start : Position)
  (behind : List PlacedToken)

private theorem statement_binding (sign : Position) :
    statement rounds (depth + 1) ((.keyword .letWord, position) :: (.identifier name, start) ::
      (.symbol .assign, sign) :: behind) =
      (expression rounds depth behind).bind fun answer =>
        .ok (.binding name answer.1 position, skipSemicolon answer.2) := by
  simp only [statement, statementCore, binding, identifier, symbol_cons, bind, Except.bind]
  cases expression rounds depth behind <;> rfl

private theorem statement_returning :
    statement rounds (depth + 1) ((.keyword .returnWord, position) :: behind) =
      (expression rounds depth behind).bind fun answer =>
        .ok (.returning answer.1 position, skipSemicolon answer.2) := by
  simp only [statement, statementCore, bind, Except.bind]
  cases expression rounds depth behind <;> rfl

private theorem statement_expression {first : Token} (begins : first.beginsExpression = true) :
    statement rounds (depth + 1) ((first, position) :: behind) =
      (expression rounds depth ((first, position) :: behind)).bind fun answer =>
        .ok (.expression answer.1 position, skipSemicolon answer.2) := by
  have core : statementCore rounds (expression rounds depth) (statement rounds depth)
      ((first, position) :: behind) =
        (expression rounds depth ((first, position) :: behind)).bind fun answer =>
          .ok (.expression answer.1 position, answer.2) := by
    cases first with
    | keyword word => cases word <;> first | rfl | cases begins
    | _ => rfl
  simp only [statement, core, bind]
  cases expression rounds depth ((first, position) :: behind) <;> rfl

private theorem statement_function {heading : List PlacedToken} {parameters : List String}
    (names : Separated Parameter heading parameters) (short : heading.length < rounds)
    (opening closing bodyOpening : Position) :
    statement rounds (depth + 1) ((.keyword .func, position) :: (.identifier name, start) ::
      (.symbol .openRound, opening) :: (heading ++ (.symbol .closeRound, closing) ::
      (.symbol .openCurly, bodyOpening) :: behind)) =
      (delimited (statement rounds depth) .closeCurly rounds [] behind).bind fun answer =>
        .ok (.function name parameters answer.1 position, skipSemicolon answer.2) := by
  simp only [statement, statementCore, function, identifier, symbol_cons,
    parameters_reads names short, bind, Except.bind]
  cases delimited (statement rounds depth) .closeCurly rounds [] behind <;> rfl

private theorem statement_gui {inner ending : List PlacedToken} {elements : List Element}
    (parts : Repeated DerivesElement inner elements) (ended : Ending ending)
    (deep : inner.length ≤ depth) (enough : inner.length < rounds) (opening closing : Position)
    (apart : startsWith .semicolon behind = false) :
    statement rounds (depth + 1) ((.keyword .gui, position) :: (.identifier name, start) ::
      (.symbol .openCurly, opening) :: (inner ++ (.symbol .closeCurly, closing) ::
      (ending ++ behind))) = .ok (.gui ⟨name, elements, position⟩, behind) := by
  have complete := expression_complete deep (Nat.le_of_lt enough)
  simp only [statement, statementCore, gui, identifier, symbol_cons,
    elements_reads complete parts (Nat.le_refl _) enough, bind, Except.bind,
    skipSemicolon_ending ended apart]

end

/-!
## Both readings of a statement
-/

section

variable {rounds paddedRounds : Nat} {tokens padded rest paddedRest : List PlacedToken}

/-- An expression that ends a statement is read whole on both sides, if it is read as itself. -/
theorem value_padded {depth paddedDepth : Nat} {ending paddedEnding later : List PlacedToken}
    {value : Expr} (derived : Padded.Derives .pipe tokens padded value)
    (ended : Padded.Ending ending paddedEnding) (follow : Follow rest paddedRest)
    (deep : tokens.length ≤ depth) (enough : tokens.length ≤ rounds)
    (paddedDeep : padded.length ≤ paddedDepth) (paddedEnough : padded.length ≤ paddedRounds)
    (read : expression rounds depth (tokens ++ (ending ++ rest)) = .ok (value, later)) :
    skipSemicolon later = rest ∧
      ∃ paddedLater, expression paddedRounds paddedDepth (padded ++ (paddedEnding ++ paddedRest)) =
          .ok (value, paddedLater) ∧
        skipSemicolon paddedLater = paddedRest := by
  have complete := expression_complete deep enough derived.alike.phrase (Nat.le_refl _)
  have paddedComplete :=
    expression_complete paddedDeep paddedEnough derived.alike.paddedPhrase (Nat.le_refl _)
  rcases follow with ⟨apart, paddedApart⟩ | ⟨opens, _⟩
  · have ended := ended.alike
    rw [complete (stops_ending ended.phrase apart.1)] at read
    cases read
    exact ⟨skipSemicolon_ending ended.phrase apart.2, _,
      paddedComplete (stops_ending ended.paddedPhrase paddedApart.1),
      skipSemicolon_ending ended.paddedPhrase paddedApart.2⟩
  · have apart : ending ≠ [] := by
      rintro rfl
      exact expression_ne_of_opens derived.alike.phrase deep enough opens read
    cases ended with
    | added position => exact absurd rfl apart
    | same ended =>
        cases ended with
        | absent => exact absurd rfl apart
        | semicolon position =>
            have stops (behind : List PlacedToken) :
                Stops Level.all ((.symbol .semicolon, position) :: behind) :=
              stops_symbol _ position behind (.inr (.inl rfl))
            rw [List.singleton_append, complete (stops rest)] at read
            cases read
            exact ⟨rfl, _, paddedComplete (stops paddedRest), rfl⟩

/-- Where the first parser reads the statement `found`, it reads the whole of it, and the second
parser reads the whole of the padded statement. -/
def Transfers (one paddedOne : Parser Statement) (tokens padded : List PlacedToken)
    (found : Statement) : Prop :=
  ∀ ⦃rest paddedRest behind⦄, Follow rest paddedRest → one (tokens ++ rest) = .ok (found, behind) →
    behind = rest ∧ paddedOne (padded ++ paddedRest) = .ok (found, paddedRest)

/-- A statement that has been read stays the first of those that are read behind it. -/
theorem eq_of_delimited {one : Parser Statement} (sound : Sound one DerivesStatement)
    {closing : Symbol} {more : Nat} {read found : List Statement} {first other : Statement}
    {behind : List PlacedToken}
    (parsed : delimited one closing more (other :: read) tokens =
      .ok (read.reverse ++ first :: found, behind)) : other = first := by
  obtain ⟨_, _, others, _, _, _, shape⟩ := delimited_eq_ok sound parsed
  rw [List.reverse_cons, List.append_assoc] at shape
  exact (List.cons.inj (List.append_cancel_left shape)).1.symm

/-- A body is read statement by statement. Those that come out of it tell that none of them has
been read otherwise than it should. -/
theorem block_padded {one paddedOne : Parser Statement} (sound : Sound one DerivesStatement)
    {body : List Statement}
    (phrases : Padded.Repeated (fun tokens padded found =>
      Padded.DerivesStatement tokens padded found ∧ Transfers one paddedOne tokens padded found)
      tokens padded body)
    {more paddedMore : Nat} (enough : padded.length < paddedMore) (read : List Statement)
    {closing : Position} {behind : List PlacedToken} (paddedRest : List PlacedToken)
    (parsed : delimited one .closeCurly more read
      (tokens ++ (.symbol .closeCurly, closing) :: rest) = .ok (read.reverse ++ body, behind)) :
    behind = rest ∧
      delimited paddedOne .closeCurly paddedMore read
        (padded ++ (.symbol .closeCurly, closing) :: paddedRest) =
          .ok (read.reverse ++ body, paddedRest) := by
  have closes : Symbol.closeCurly.closes = true := rfl
  induction phrases generalizing more paddedMore read with
  | none =>
      obtain ⟨paddedMore, rfl⟩ := Nat.exists_eq_succ_of_ne_zero (Nat.ne_of_gt enough)
      cases more with
      | zero => exact absurd parsed refuse_ne_ok
      | succ more =>
          simp only [List.nil_append, List.append_nil, delimited, startsWith_symbol, decide_true,
            if_true, List.tail_cons, Except.ok.injEq, Prod.mk.injEq, true_and, and_true]
            at parsed ⊢
          exact parsed.symm
  | @more used paddedUsed others paddedOthers found founds phrase phrases ih =>
      obtain ⟨paddedMore, rfl⟩ := Nat.exists_eq_succ_of_ne_zero (Nat.ne_zero_of_lt enough)
      obtain ⟨derived, transfers⟩ := phrase
      have phrases := phrases.mono (fun _ _ phrase => phrase.1) (Nat.le_refl _) (Nat.le_refl _)
      have follow := follow_repeated phrases (.inl
        ⟨apart_closing closes closing rest, apart_closing closes closing paddedRest⟩)
      obtain ⟨first, start, _, _, shape, paddedShape, begins⟩ := derived.exists_cons
      have starts : startsWith .closeCurly (used ++ (others ++ (.symbol .closeCurly, closing) ::
          rest)) = false := by
        rw [shape]
        exact startsWith_closeCurly_of_begins begins start _
      have paddedStarts : startsWith .closeCurly (paddedUsed ++ (paddedOthers ++
          (.symbol .closeCurly, closing) :: paddedRest)) = false := by
        rw [paddedShape]
        exact startsWith_closeCurly_of_begins begins start _
      cases more with
      | zero => exact absurd parsed refuse_ne_ok
      | succ more =>
          simp only [List.append_assoc, delimited, starts, paddedStarts, Bool.false_eq_true,
            if_false] at parsed ⊢
          obtain ⟨⟨other, later⟩, otherRead, onward⟩ := bind_eq_ok parsed
          obtain rfl : other = found := eq_of_delimited sound onward
          obtain ⟨rfl, paddedRead⟩ := transfers follow otherRead
          have fewer : paddedOthers.length < paddedMore := by
            rw [List.length_append, paddedShape, List.length_cons] at enough
            omega
          have onward := ih fewer (other :: read) (by simpa using onward)
          rw [paddedRead]
          simpa [bind, Except.bind] using onward

/-- A statement that ends in an expression is read as itself when the expression is. -/
theorem value_transfers {one paddedOne : Parser Statement} {depth paddedDepth : Nat}
    {ending paddedEnding : List PlacedToken} {value : Expr} {make : Expr → Statement}
    (front : List PlacedToken) (injective : ∀ {left right}, make left = make right → left = right)
    (reads : ∀ behind, one (front ++ (tokens ++ behind)) =
      (expression rounds depth (tokens ++ behind)).bind fun answer =>
        .ok (make answer.1, skipSemicolon answer.2))
    (paddedReads : ∀ behind, paddedOne (front ++ (padded ++ behind)) =
      (expression paddedRounds paddedDepth (padded ++ behind)).bind fun answer =>
        .ok (make answer.1, skipSemicolon answer.2))
    (derived : Padded.Derives .pipe tokens padded value)
    (ended : Padded.Ending ending paddedEnding)
    (deep : tokens.length ≤ depth) (enough : tokens.length ≤ rounds)
    (paddedDeep : padded.length ≤ paddedDepth) (paddedEnough : padded.length ≤ paddedRounds) :
    Transfers one paddedOne (front ++ (tokens ++ ending)) (front ++ (padded ++ paddedEnding))
      (make value) := by
  intro rest paddedRest behind follow read
  rw [List.append_assoc, List.append_assoc, reads] at read
  rw [List.append_assoc, List.append_assoc, paddedReads]
  obtain ⟨⟨found, later⟩, foundRead, finished⟩ := bind_eq_ok read
  simp only [Except.ok.injEq, Prod.mk.injEq] at finished
  obtain ⟨same, rfl⟩ := finished
  obtain rfl := injective same
  obtain ⟨left, paddedLater, paddedRead, paddedLeft⟩ :=
    value_padded derived ended follow deep enough paddedDeep paddedEnough foundRead
  refine ⟨left, ?_⟩
  rw [paddedRead, ← paddedLeft]
  rfl

private theorem function_transfers {depth paddedDepth : Nat} {name : String}
    {parameters : List String} {body : List Statement}
    {position start opening closing bodyOpening bodyClosing : Position}
    {heading paddedHeading inner paddedInner ending paddedEnding : List PlacedToken}
    (names : Padded.Separated Padded.Parameter heading paddedHeading parameters)
    (block : Padded.Repeated (fun tokens padded found =>
      Padded.DerivesStatement tokens padded found ∧
        Transfers (statement rounds depth) (statement paddedRounds paddedDepth) tokens padded found)
      inner paddedInner body)
    (ended : Padded.Ending ending paddedEnding)
    (short : heading.length < rounds) (paddedShort : paddedHeading.length < paddedRounds)
    (paddedEnough : paddedInner.length < paddedRounds) :
    Transfers (statement rounds (depth + 1)) (statement paddedRounds (paddedDepth + 1))
      ((.keyword .func, position) :: (.identifier name, start) :: (.symbol .openRound, opening) ::
        heading ++ (.symbol .closeRound, closing) :: (.symbol .openCurly, bodyOpening) ::
        inner ++ [(.symbol .closeCurly, bodyClosing)] ++ ending)
      ((.keyword .func, position) :: (.identifier name, start) :: (.symbol .openRound, opening) ::
        paddedHeading ++ (.symbol .closeRound, closing) :: (.symbol .openCurly, bodyOpening) ::
        paddedInner ++ [(.symbol .closeCurly, bodyClosing)] ++ paddedEnding)
      (.function name parameters body position) := by
  have names := names.alike Padded.Parameter.alike
  intro rest paddedRest behind follow read
  simp only [List.cons_append, List.append_assoc, List.nil_append] at read ⊢
  rw [statement_function _ _ _ _ _ _ names.phrase short] at read
  rw [statement_function _ _ _ _ _ _ names.paddedPhrase paddedShort]
  obtain ⟨⟨found, later⟩, foundRead, finished⟩ := bind_eq_ok read
  simp only [Except.ok.injEq, Prod.mk.injEq, Statement.function.injEq, true_and, and_true]
    at finished
  obtain ⟨rfl, rfl⟩ := finished
  obtain ⟨rfl, paddedRead⟩ := block_padded (statement_sound depth) block paddedEnough []
    (paddedEnding ++ paddedRest) foundRead
  refine ⟨skipSemicolon_ending ended.alike.phrase follow.no_semicolon.1, ?_⟩
  rw [paddedRead]
  simp only [Except.bind, skipSemicolon_ending ended.alike.paddedPhrase follow.no_semicolon.2,
    List.reverse_nil, List.nil_append]

private theorem gui_transfers {depth paddedDepth : Nat} {name : String} {elements : List Element}
    {position start opening closing : Position}
    {inner paddedInner ending paddedEnding : List PlacedToken}
    (parts : Padded.Repeated Padded.DerivesElement inner paddedInner elements)
    (ended : Padded.Ending ending paddedEnding)
    (deep : inner.length ≤ depth) (enough : inner.length < rounds)
    (paddedDeep : paddedInner.length ≤ paddedDepth)
    (paddedEnough : paddedInner.length < paddedRounds) :
    Transfers (statement rounds (depth + 1)) (statement paddedRounds (paddedDepth + 1))
      ((.keyword .gui, position) :: (.identifier name, start) :: (.symbol .openCurly, opening) ::
        inner ++ [(.symbol .closeCurly, closing)] ++ ending)
      ((.keyword .gui, position) :: (.identifier name, start) :: (.symbol .openCurly, opening) ::
        paddedInner ++ [(.symbol .closeCurly, closing)] ++ paddedEnding)
      (.gui ⟨name, elements, position⟩) := by
  have parts := parts.alike Padded.DerivesElement.alike
  intro rest paddedRest behind follow read
  simp only [List.cons_append, List.append_assoc, List.nil_append] at read ⊢
  obtain ⟨apart, paddedApart⟩ := follow.no_semicolon
  rw [statement_gui _ _ _ _ _ _ parts.phrase ended.alike.phrase deep enough _ _ apart] at read
  cases read
  refine ⟨rfl, ?_⟩
  exact statement_gui _ _ _ _ _ _ parts.paddedPhrase ended.alike.paddedPhrase paddedDeep
    paddedEnough _ _ paddedApart

/-- Where a statement is read as itself, it is read whole, and so is the padded statement. -/
theorem statement_transfers {found : Statement}
    (phrase : Padded.DerivesStatement tokens padded found) :
    ∀ depth paddedDepth : Nat, tokens.length ≤ depth → tokens.length ≤ rounds →
      padded.length ≤ paddedDepth → padded.length ≤ paddedRounds →
      Transfers (statement rounds (depth + 1)) (statement paddedRounds (paddedDepth + 1)) tokens
        padded found := by
  refine phrase.structural ?binding ?function ?gui ?returning ?expression
  case binding =>
    intro name tokens padded ending paddedEnding value position start sign derived ended depth
      paddedDepth deep enough paddedDeep paddedEnough
    simp only [List.cons_append, List.length_cons, List.length_append]
      at deep enough paddedDeep paddedEnough
    exact value_transfers
      [(.keyword .letWord, position), (.identifier name, start), (.symbol .assign, sign)]
      (fun same => (Statement.binding.inj same).2.1)
      (fun behind => statement_binding _ _ name position start (tokens ++ behind) sign)
      (fun behind => statement_binding _ _ name position start (padded ++ behind) sign)
      derived ended (by omega) (by omega) (by omega) (by omega)
  case function =>
    intro name parameters body heading paddedHeading inner paddedInner ending paddedEnding position
      start opening closing bodyOpening bodyClosing names block ended depth paddedDepth deep enough
      paddedDeep paddedEnough
    simp only [List.cons_append, List.append_assoc, List.nil_append, List.length_cons,
      List.length_append] at deep enough paddedDeep paddedEnough
    obtain ⟨depth, rfl⟩ := Nat.exists_eq_succ_of_ne_zero (by omega : depth ≠ 0)
    obtain ⟨paddedDepth, rfl⟩ := Nat.exists_eq_succ_of_ne_zero (by omega : paddedDepth ≠ 0)
    refine function_transfers names ?_ ended (by omega) (by omega) (by omega)
    refine block.mono ?_ (Nat.le_refl _) (Nat.le_refl _)
    intro tokens padded one short paddedShort phrase
    exact ⟨phrase.1, phrase.2 depth paddedDepth (by omega) (by omega) (by omega) (by omega)⟩
  case gui =>
    intro name elements inner paddedInner ending paddedEnding position start opening closing parts
      ended depth paddedDepth deep enough paddedDeep paddedEnough
    simp only [List.cons_append, List.append_assoc, List.nil_append, List.length_cons,
      List.length_append] at deep enough paddedDeep paddedEnough
    exact gui_transfers parts ended (by omega) (by omega) (by omega) (by omega)
  case returning =>
    intro tokens padded ending paddedEnding value position derived ended depth paddedDepth deep
      enough paddedDeep paddedEnough
    simp only [List.cons_append, List.length_cons, List.length_append]
      at deep enough paddedDeep paddedEnough
    exact value_transfers [(.keyword .returnWord, position)]
      (fun same => (Statement.returning.inj same).1)
      (fun behind => statement_returning _ _ position (tokens ++ behind))
      (fun behind => statement_returning _ _ position (padded ++ behind))
      derived ended (by omega) (by omega) (by omega) (by omega)
  case expression =>
    intro first position tokens padded ending paddedEnding value derived ended depth paddedDepth
      deep enough paddedDeep paddedEnough
    rw [List.length_append] at deep enough paddedDeep paddedEnough
    obtain ⟨_, _, _, shape, begins⟩ := derived.alike.phrase.exists_cons
    cases shape
    exact value_transfers [] (fun same => (Statement.expression.inj same).1)
      (fun behind => statement_expression _ _ position (tokens ++ behind) begins)
      (fun behind => statement_expression _ _ position (padded ++ behind) begins)
      derived ended (by omega) (by omega) (by omega) (by omega)

/-!
## Programs
-/

/-- The loop over statements reads `found` from the tokens and comes to `rest`. -/
inductive Loops (one : Parser Statement) :
    List PlacedToken → List Statement → List PlacedToken → Prop where
  | none (rest : List PlacedToken) : Loops one rest [] rest
  | more {token : Token} {position : Position} {behind later rest : List PlacedToken}
      {found : Statement} {others : List Statement} :
      token ≠ .endOfInput → one ((token, position) :: behind) = .ok (found, later) →
      Loops one later others rest → Loops one ((token, position) :: behind) (found :: others) rest

/-- What comes of the loop over statements: it ends at an end of input or at the end of the
tokens, or a statement fails. -/
inductive Outcome (one : Parser Statement) (last : Position) (read : List Statement)
    (tokens : List PlacedToken) : Except ParseError Program → Prop where
  | finished {found : List Statement} {final : Position} {rest : List PlacedToken} :
      Loops one tokens found ((.endOfInput, final) :: rest) →
      Outcome one last read tokens (.ok (read.reverse ++ found))
  | exhausted {found : List Statement} : Loops one tokens found [] →
      Outcome one last read tokens (.error ⟨.unexpectedEnd, last⟩)
  | failed {found : List Statement} {behind : List PlacedToken} {failure : ParseError} :
      Loops one tokens found behind → one behind = .error failure →
      Outcome one last read tokens (.error failure)

private theorem statements_outcome {one : Parser Statement} (sound : Sound one DerivesStatement)
    (last : Position) {more : Nat} (enough : tokens.length ≤ more) (read : List Statement) :
    Outcome one last read tokens (statements one last more read tokens) := by
  induction more generalizing tokens read with
  | zero =>
      obtain rfl := List.length_eq_zero_iff.mp (Nat.le_zero.mp enough)
      exact .exhausted (.none [])
  | succ more ih =>
      cases tokens with
      | nil => exact .exhausted (.none [])
      | cons head behind =>
          obtain ⟨token, position⟩ := head
          by_cases final : token = .endOfInput
          · subst final
            have outcome : Outcome one last read ((.endOfInput, position) :: behind)
                (.ok (read.reverse ++ [])) := .finished (.none _)
            rwa [List.append_nil] at outcome
          · rw [statements_step _ _ _ _ _ _ final]
            cases answered : one ((token, position) :: behind) with
            | error failure => exact .failed (.none _) answered
            | ok answer =>
                obtain ⟨found, later⟩ := answer
                obtain ⟨used, shape, _, phrase⟩ := sound answered
                have fewer : later.length ≤ more := by
                  have length := congrArg List.length shape
                  have nonempty := List.length_pos_iff.mpr phrase.ne_nil
                  simp only [List.length_append, List.length_cons] at length enough
                  omega
                have onward := ih fewer (found :: read)
                simp only [Except.bind]
                generalize statements one last more (found :: read) later = reply at onward ⊢
                cases onward with
                | finished loops =>
                    rw [List.reverse_cons, List.append_assoc, List.singleton_append]
                    exact .finished (.more final answered loops)
                | exhausted loops => exact .exhausted (.more final answered loops)
                | failed loops fails => exact .failed (.more final answered loops) fails

/-- The rounds of the loop are one for each statement that it reads. -/
theorem statements_of_loops {one : Parser Statement} {found : List Statement}
    (loops : Loops one tokens found rest) (last : Position) (more : Nat) (read : List Statement) :
    statements one last (more + found.length) read tokens =
      statements one last more (found.reverse ++ read) rest := by
  induction loops generalizing read with
  | none rest => rfl
  | more going answered _ ih =>
      rw [List.length_cons, ← Nat.add_assoc, statements_step _ _ _ _ _ _ going, answered]
      simp only [Except.bind, ih, List.reverse_cons, List.append_assoc, List.singleton_append]

theorem phrases_of_loops {one : Parser Statement} (sound : Sound one DerivesStatement)
    {found : List Statement} (loops : Loops one tokens found rest) :
    ∃ body, tokens = body ++ rest ∧ Repeated DerivesStatement body found := by
  induction loops with
  | none rest => exact ⟨[], rfl, .none⟩
  | more _ answered _ ih =>
      obtain ⟨used, shape, _, phrase⟩ := sound answered
      obtain ⟨body, rfl, phrases⟩ := ih
      exact ⟨used ++ body, by rw [shape, List.append_assoc], .more phrase phrases⟩

private theorem going_of_begins {first : Token} (begins : first.beginsStatement = true) :
    first ≠ .endOfInput := by
  rintro rfl
  cases begins

/-- The loop over statements reads the padded ones as it reads those without the padding. -/
theorem loops_padded {one paddedOne : Parser Statement} {program : List Statement}
    (phrases : Padded.Repeated (fun tokens padded found =>
      Padded.DerivesStatement tokens padded found ∧ Transfers one paddedOne tokens padded found)
      tokens padded program)
    (ends : Follow rest paddedRest) {behind : List PlacedToken}
    (loops : Loops one (tokens ++ rest) program behind) :
    Loops paddedOne (padded ++ paddedRest) program paddedRest := by
  induction phrases with
  | none => exact .none paddedRest
  | more phrase phrases ih =>
      obtain ⟨derived, transfers⟩ := phrase
      have phrases := phrases.mono (fun _ _ phrase => phrase.1) (Nat.le_refl _) (Nat.le_refl _)
      have follow := follow_repeated phrases ends
      obtain ⟨first, start, inner, paddedInner, rfl, rfl, begins⟩ := derived.exists_cons
      rw [List.append_assoc] at loops ⊢
      cases loops with
      | more _ answered onward =>
          obtain ⟨rfl, paddedAnswered⟩ := transfers follow answered
          exact .more (going_of_begins begins) paddedAnswered (ih onward)

/-- Separators open and close nothing. -/
theorem checkNesting_essential (depth : Nat) (tokens : List PlacedToken) :
    checkNesting depth (Padded.essential tokens) = checkNesting depth tokens := by
  unfold Padded.essential
  induction tokens generalizing depth with
  | nil => rfl
  | cons head rest ih =>
      obtain ⟨token, position⟩ := head
      rw [List.filter_cons]
      by_cases separates : Padded.separates token = true
      · simp only [separates, Bool.not_true, Bool.false_eq_true, if_false, ih]
        cases token with
        | symbol mark => cases mark <;> first | rfl | cases separates
        | _ => cases separates
      · simp only [separates, Bool.not_false, if_true, checkNesting_cons, ih]

end

/-- Reads a statement of a program that has these tokens. -/
abbrev statementOf (tokens : List PlacedToken) : Parser Statement :=
  statement (tokens.length + 1) (tokens.length + 2)

/-- A program is read with the padding as it is read without it, whatever comes behind. -/
theorem loops_statementOf {tokens padded rest paddedRest behind : List PlacedToken}
    {program : Program}
    (phrases : Padded.Repeated Padded.DerivesStatement tokens padded program)
    (ends : Follow rest paddedRest)
    (loops : Loops (statementOf (tokens ++ rest)) (tokens ++ rest) program behind) :
    Loops (statementOf (padded ++ paddedRest)) (padded ++ paddedRest) program paddedRest := by
  refine loops_padded (phrases.mono ?_ (Nat.le_refl _) (Nat.le_refl _)) ends loops
  intro used paddedUsed found short paddedShort phrase
  refine ⟨phrase, statement_transfers phrase _ _ ?_ ?_ ?_ ?_⟩
  all_goals
    rw [List.length_append]
    omega

theorem length_le_of_loops {rounds depth : Nat} {tokens rest : List PlacedToken} {program : Program}
    (loops : Loops (statement rounds depth) tokens program rest) :
    program.length ≤ tokens.length := by
  obtain ⟨body, rfl, phrases⟩ := phrases_of_loops (statement_sound depth) loops
  rw [List.length_append]
  refine Nat.le_trans ?_ (Nat.le_add_right _ _)
  clear loops
  induction phrases with
  | none => exact Nat.le_refl _
  | more phrase _ ih =>
      have nonempty := List.length_pos_iff.mpr phrase.ne_nil
      rw [List.length_append, List.length_cons]
      omega

end Parser

theorem parse_eq (tokens : List PlacedToken) :
    parse tokens = (Parser.checkNesting 0 tokens).bind fun _ =>
      Parser.statements (Parser.statementOf tokens) (Parser.lastPosition tokens)
        (tokens.length + 1) [] tokens := rfl

theorem parse_outcome (tokens : List PlacedToken) :
    Parser.Outcome (Parser.statementOf tokens) (Parser.lastPosition tokens) [] tokens
      (Parser.statements (Parser.statementOf tokens) (Parser.lastPosition tokens)
        (tokens.length + 1) [] tokens) :=
  Parser.statements_outcome (Parser.statement_sound _) _ (Nat.le_succ _) []

/-- A program is read when its delimiters do not nest too deeply and the loop over statements
comes to an end of input. -/
theorem parse_eq_ok_iff {tokens : List PlacedToken} {program : Program} :
    parse tokens = .ok program ↔ Parser.checkNesting 0 tokens = .ok () ∧
      ∃ final rest,
        Parser.Loops (Parser.statementOf tokens) tokens program ((.endOfInput, final) :: rest) := by
  constructor
  · intro parsed
    rw [parse_eq] at parsed
    obtain ⟨_, checked, read⟩ := Parser.bind_eq_ok parsed
    have outcome := parse_outcome tokens
    rw [read] at outcome
    cases outcome with
    | finished loops => exact ⟨checked, _, _, loops⟩
  · rintro ⟨checked, final, rest, loops⟩
    have count := Nat.le_trans (Parser.length_le_of_loops loops) (Nat.le_add_right _ 1)
    obtain ⟨more, enough⟩ := Nat.exists_eq_add_of_le' count
    rw [parse_eq, checked, Except.bind, enough, Parser.statements_of_loops loops, List.append_nil]
    cases more <;> simp [Parser.statements]

/-- Behind a derivation of its program, a token sequence that is read has an end of input. The
program stays the same, with its positions, however many separators are added to the derivation:
semicolons behind statements, entries of records and widgets, and commas behind the last items
between delimiters. -/
theorem parse_padded {tokens : List PlacedToken} {program : Program}
    (parsed : parse tokens = .ok program) :
    ∃ body final rest, tokens = body ++ (.endOfInput, final) :: rest ∧
      (∀ token ∈ body, token.1 ≠ .endOfInput) ∧
      Padded.Repeated Padded.DerivesStatement body body program ∧
      ∀ padded, Padded.Repeated Padded.DerivesStatement body padded program →
        parse (padded ++ (.endOfInput, final) :: rest) = .ok program := by
  obtain ⟨body, final, rest, rfl, endless, derived⟩ := parse_sound parsed
  refine ⟨body, final, rest, rfl, endless,
    Padded.repeated_self Padded.derivesStatement_self derived, ?_⟩
  intro padded phrases
  obtain ⟨checked, _, _, loops⟩ := parse_eq_ok_iff.mp parsed
  have same : Padded.essential (padded ++ (.endOfInput, final) :: rest) =
      Padded.essential (body ++ (.endOfInput, final) :: rest) :=
    Padded.essential_append (phrases.alike Padded.DerivesStatement.alike).same.symm rfl
  have ended := Parser.apart_endOfInput final rest
  have onward := Parser.loops_statementOf phrases (.inl ⟨ended, ended⟩) loops
  refine parse_eq_ok_iff.mpr ⟨?_, final, rest, onward⟩
  rw [← Parser.checkNesting_essential, same, Parser.checkNesting_essential, checked]

/-- The tokens of `func f(a) { let b = [a] b } gui g { label(k: {l = f(1)}) }`. Each of the places
for an optional separator is among them, and none has one. -/
def spareTokens : List PlacedToken :=
  [(.keyword .func, ⟨1, 1⟩), (.identifier "f", ⟨1, 6⟩), (.symbol .openRound, ⟨1, 7⟩),
    (.identifier "a", ⟨1, 8⟩), (.symbol .closeRound, ⟨1, 9⟩), (.symbol .openCurly, ⟨1, 11⟩),
    (.keyword .letWord, ⟨1, 13⟩), (.identifier "b", ⟨1, 17⟩), (.symbol .assign, ⟨1, 19⟩),
    (.symbol .openSquare, ⟨1, 21⟩), (.identifier "a", ⟨1, 22⟩), (.symbol .closeSquare, ⟨1, 23⟩),
    (.identifier "b", ⟨1, 25⟩), (.symbol .closeCurly, ⟨1, 27⟩), (.keyword .gui, ⟨1, 29⟩),
    (.identifier "g", ⟨1, 33⟩), (.symbol .openCurly, ⟨1, 35⟩), (.widget "label", ⟨1, 37⟩),
    (.symbol .openRound, ⟨1, 42⟩), (.identifier "k", ⟨1, 43⟩), (.symbol .colon, ⟨1, 44⟩),
    (.symbol .openCurly, ⟨1, 46⟩), (.identifier "l", ⟨1, 47⟩), (.symbol .assign, ⟨1, 49⟩),
    (.identifier "f", ⟨1, 51⟩), (.symbol .openRound, ⟨1, 52⟩), (.integer 1, ⟨1, 53⟩),
    (.symbol .closeRound, ⟨1, 54⟩), (.symbol .closeCurly, ⟨1, 55⟩), (.symbol .closeRound, ⟨1, 56⟩),
    (.symbol .closeCurly, ⟨1, 58⟩), (.endOfInput, ⟨1, 59⟩)]

def spareProgram : Program :=
  [.function "f" ["a"]
      [.binding "b" (.list [.name "a" ⟨1, 22⟩] ⟨1, 21⟩) ⟨1, 13⟩,
        .expression (.name "b" ⟨1, 25⟩) ⟨1, 25⟩] ⟨1, 1⟩,
    .gui ⟨"g", [.widget ⟨"label",
      [("k", .record [("l", .call "f" [.integer 1 ⟨1, 53⟩] ⟨1, 51⟩)] ⟨1, 46⟩)], ⟨1, 37⟩⟩], ⟨1, 29⟩⟩]

theorem parse_padded_spareTokens :
    ∃ body final rest, spareTokens = body ++ (.endOfInput, final) :: rest ∧
      (∀ token ∈ body, token.1 ≠ .endOfInput) ∧
      Padded.Repeated Padded.DerivesStatement body body spareProgram ∧
      ∀ padded, Padded.Repeated Padded.DerivesStatement body padded spareProgram →
        parse (padded ++ (.endOfInput, final) :: rest) = .ok spareProgram :=
  have read : parse spareTokens = .ok spareProgram := by rfl
  parse_padded read

end WindowScript
