import WindowScript.Proofs.Parser.RecursionBound

/-!
# The first token at fault

Whatever has been read, some tokens make a program of it: one name where an operand or a word
is due, the signs that are due, and the closing delimiters of all that is open. So a token that
cannot be read is the first one with which the tokens before it do not begin a program, and what
comes behind it does not matter.
-/

set_option autoImplicit false

namespace WindowScript

namespace Recognizer

open WindowScript.Parser

/-!
## Completions
-/

def Bracket.closing : Bracket → Symbol
  | .group => .closeRound
  | .items kind => kind.closing
  | .record => .closeCurly

/-- What ends a list of attributes and the interface around it. -/
def Owner.completion : Owner → List Token
  | .window =>
      [.symbol .closeRound, .symbol .openCurly, .symbol .closeCurly, .symbol .closeCurly]
  | .widget => [.symbol .closeRound, .symbol .closeCurly]
  | .child => [.symbol .closeRound, .symbol .closeCurly, .symbol .closeCurly]

def Role.completion : Role → List Token
  | .statement => []
  | .attributeOf owner => owner.completion

/-- What ends the expressions around a place and the statement that they stand in. -/
def Surroundings.completion (around : Surroundings) : List Token :=
  around.frames.map (fun frame => .symbol frame.bracket.closing) ++ around.role.completion

/-- What ends an operand. -/
def Point.completion : Point → List Token
  | .start | .operand | .key _ => [.identifier "x"]
  | .behind _ _ => []
  | .groupEnd _ _ => [.symbol .closeRound]
  | .item kind _ | .itemEnd kind _ => [.symbol kind.closing]
  | .entry _ | .entryEnd _ => [.symbol .closeCurly]
  | .sign _ => [.symbol .assign, .identifier "x", .symbol .closeCurly]

/-- What ends a statement. -/
def Outline.completion : Outline → List Token
  | .statement | .ending => []
  | .bindingName => [.identifier "x", .symbol .assign, .identifier "x"]
  | .bindingSign => [.symbol .assign, .identifier "x"]
  | .functionName =>
      [.identifier "x", .symbol .openRound, .symbol .closeRound, .symbol .openCurly,
        .symbol .closeCurly]
  | .functionOpen =>
      [.symbol .openRound, .symbol .closeRound, .symbol .openCurly, .symbol .closeCurly]
  | .parameter | .parameterEnd =>
      [.symbol .closeRound, .symbol .openCurly, .symbol .closeCurly]
  | .bodyOpen => [.symbol .openCurly, .symbol .closeCurly]
  | .guiName => [.identifier "x", .symbol .openCurly, .symbol .closeCurly]
  | .guiOpen => [.symbol .openCurly, .symbol .closeCurly]
  | .element | .widgetEnd => [.symbol .closeCurly]
  | .attributesOpen owner => .symbol .openRound :: owner.completion
  | .attributeName owner | .attributeEnd owner => owner.completion
  | .attributeSign owner => .symbol .colon :: .identifier "x" :: owner.completion
  | .windowOpen => [.symbol .openCurly, .symbol .closeCurly, .symbol .closeCurly]
  | .child | .childEnd => [.symbol .closeCurly, .symbol .closeCurly]

/-- What makes a program of what has been read. -/
def State.completion : State → List Token
  | .outside bodies point => point.completion ++ List.replicate bodies (.symbol .closeCurly)
  | .inside around point =>
      point.completion ++ around.completion ++
        List.replicate around.bodies (.symbol .closeCurly)

section

variable {limit : Nat} (final : Position)

/-- The ends of the bodies that are open, and of the program. -/
def closeBodies (final : Position) (bodies : Nat) : List PlacedToken :=
  bare (List.replicate bodies (.symbol .closeCurly)) ++ [(.endOfInput, final)]

private theorem stops_closeBodies (bodies : Nat) : Stops Level.all (closeBodies final bodies) := by
  cases bodies with
  | zero => exact ⟨by simp, by simp, fun level _ => by cases level <;> rfl⟩
  | succ bodies => exact stops_symbol _ _ _ (.inr (.inr rfl))

/-- At the end of a statement, and where one may begin, the bodies can be closed. -/
theorem run_closeBodies (bodies : Nat) :
    run limit (.outside bodies .statement) (closeBodies final bodies) = .ok () ∧
      run limit (.outside bodies .ending) (closeBodies final bodies) = .ok () := by
  have passed (bodies : Nat) : run limit (.outside bodies .ending) (closeBodies final bodies) =
      run limit (.outside bodies .statement) (closeBodies final bodies) := by
    have skips : run limit (.outside bodies .ending) (closeBodies final bodies) =
        run limit (.outside bodies .statement) (skipSemicolon (closeBodies final bodies)) :=
      run_skipSemicolon rfl _
    rw [skips]
    cases bodies <;> rfl
  rw [passed, and_self]
  induction bodies with
  | zero => rfl
  | succ bodies ih =>
      have closes : run limit (.outside (bodies + 1) .statement) (closeBodies final (bodies + 1)) =
          run limit (.outside bodies .ending) (closeBodies final bodies) := rfl
      rw [closes, passed, ih]

private theorem run_owner (bodies : Nat) (owner : Owner) (rest : List PlacedToken) :
    run limit (.outside bodies (.attributeEnd owner)) (bare owner.completion ++ rest) =
      run limit (.outside bodies .ending) rest := by
  cases owner <;> rfl

/-- Behind an operand, the expressions around it can be closed, from the innermost. -/
theorem run_behind (around : Surroundings) (callable alone : Bool) :
    run limit (.inside around (.behind callable alone))
      (bare around.completion ++ closeBodies final around.bodies) = .ok () := by
  obtain ⟨bodies, role, frames⟩ := around
  induction frames generalizing callable alone with
  | nil =>
      cases role with
      | statement =>
          exact (run_of_stops (stops_closeBodies final bodies) limit _ callable alone).trans
            (run_closeBodies final bodies).2
      | attributeOf owner =>
          have stops : Stops Level.all (bare owner.completion ++ closeBodies final bodies) := by
            cases owner <;> exact stops_symbol _ _ _ (.inr (.inr rfl))
          have ended := run_of_stops stops limit ⟨bodies, .attributeOf owner, []⟩ callable alone
          exact ended.trans ((run_owner bodies owner _).trans (run_closeBodies final bodies).2)
  | cons frame frames ih =>
      obtain ⟨bracket, outer⟩ := frame
      have closes : bracket.closing.closes = true := by
        rcases bracket with _ | kind | _
        · rfl
        · cases kind <;> rfl
        · rfl
      have ended := run_of_stops (stops_symbol Level.all .nowhere
        (bare (Surroundings.completion ⟨bodies, role, frames⟩) ++ closeBodies final bodies)
        (.inr (.inr closes))) limit ⟨bodies, role, ⟨bracket, outer⟩ :: frames⟩ callable alone
      refine ended.trans ?_
      rcases bracket with _ | kind | _
      · exact ih (callable && alone) outer
      · cases kind <;> exact ih false outer
      · exact ih false outer

/-- A name is an operand, where there is room for an expression. -/
theorem run_start {around : Surroundings} (room : around.active < limit) (rest : List PlacedToken) :
    run limit (.inside around .start) ((.identifier "x", .nowhere) :: rest) =
      run limit (.inside around (.behind true true)) rest := by
  have reads : step limit (.inside around .start) (some (.identifier "x")) =
      .reads (.inside around (.behind true true)) := if_neg (Nat.not_le.mpr room)
  exact run_cons reads _ _

private theorem run_outline {bodies : Nat} (room : bodies + 1 < limit) (point : Outline) :
    run limit (.outside bodies point) (bare point.completion ++ closeBodies final bodies) =
      .ok () := by
  have ending : run limit (.outside bodies .ending) (closeBodies final bodies) = .ok () :=
    (run_closeBodies final bodies).2
  have value (role : Role) : run limit (.inside ⟨bodies, role, []⟩ .start)
      ((.identifier "x", .nowhere) :: (bare role.completion ++ closeBodies final bodies)) =
        .ok () := by
    rw [run_start room]
    exact run_behind final ⟨bodies, role, []⟩ true true
  cases point with
  | statement => exact (run_closeBodies final bodies).1
  | ending => exact ending
  | bindingName | bindingSign => exact value .statement
  | attributesOpen owner | attributeName owner | attributeEnd owner => cases owner <;> exact ending
  | attributeSign owner => exact value (.attributeOf owner)
  | _ => exact ending

private theorem run_completion {state : State} (room : state.delimiters + 2 ≤ limit) :
    run limit state (bare state.completion ++ [(.endOfInput, final)]) = .ok () := by
  cases state with
  | outside bodies point =>
      simp only [State.delimiters] at room
      have ends := run_outline final (show bodies + 1 < limit by omega) point
      simpa only [State.completion, bare_append, List.append_assoc, closeBodies] using ends
  | inside around point =>
      have behind (callable alone : Bool) : run limit (.inside around (.behind callable alone))
          (bare around.completion ++ closeBodies final around.bodies) = .ok () :=
        run_behind final around callable alone
      simp only [State.completion, bare_append, List.append_assoc]
      simp only [State.delimiters, Surroundings.delimiters] at room
      change run limit (.inside around point)
        (bare point.completion ++ (bare around.completion ++ closeBodies final around.bodies)) = _
      cases point with
      | start =>
          refine (run_start ?_ _).trans (behind true true)
          unfold Surroundings.active
          omega
      | operand => exact behind true false
      | key alone => exact behind false alone
      | behind callable alone => exact behind callable alone
      | groupEnd callable alone => exact behind callable alone
      | item kind alone | itemEnd kind alone => cases kind <;> exact behind false alone
      | entry alone | entryEnd alone => exact behind false alone
      | sign alone =>
          have enclosed : (around.enclose ⟨.record, alone⟩).active < limit := by
            simp only [Point.delimiters] at room
            simp only [Surroundings.active, Surroundings.enclose, List.length_cons]
            omega
          exact (run_start enclosed _).trans
            (run_behind final (around.enclose ⟨.record, alone⟩) true true)

end

end Recognizer

open Recognizer in
/-- A failure of the loop over statements, other than for want of tokens or of levels, is at the
first token with which no program can go on: any tokens up to this one fail alike, whatever
follows, and the tokens before it are the beginning of a sequence that is read as a program. -/
theorem fails_at_first_offending_token {tokens : List PlacedToken} {failure : ParseError}
    (failed : Parser.loop tokens = .error failure)
    (kind : (∃ expected found, failure.cause = .unexpectedToken expected found) ∨
      failure.cause = .invalidCallTarget) :
    ∃ before token position rest, tokens = before ++ (token, position) :: rest ∧
      failure.position = position ∧
      (∀ behind, Parser.loop (before ++ (token, position) :: behind) = .error failure) ∧
      ∃ completion : List PlacedToken, ∀ final, ∃ program,
        Parser.loop (before ++ completion ++ [(.endOfInput, final)]) = .ok program := by
  have early : failure.cause ≠ .unexpectedEnd := by
    rcases kind with ⟨expected, found, cause⟩ | cause <;> rw [cause] <;> simp
  have levels : failure.cause ≠ .nestingTooDeep := by
    rcases kind with ⟨expected, found, cause⟩ | cause <;> rw [cause] <;> simp
  have recognized : run (tokens.length + 2) .initial tokens = .error failure := by
    rw [← verdict_loopWithin]
    exact (congrArg verdict failed).trans (congrArg Except.error (ParseError.endNowhere_eq early))
  obtain ⟨before, rest, reached, rfl, read, fails, placed⟩ := exists_fault recognized early
  have room : before.length + 2 ≤ (before ++ rest).length + 2 := by simp
  have open_le (behind : List PlacedToken) :
      reached.delimiters + 2 ≤ (before ++ behind).length + 2 := by
    have few := shallow_length _ _ before (List.append_nil before).symm read
    rw [State.delimiters_initial] at few
    rw [List.length_append]
    omega
  cases rest with
  | nil =>
      -- At the end of the tokens there is no other fault than the want of them.
      rcases step_none _ reached with ends | ends
      · rw [List.head?_nil, Option.map_none, ends] at fails
        exact absurd (Move.fails.inj fails).symm early
      · rw [List.head?_nil, Option.map_none, ends] at fails
        exact absurd (Move.fails.inj fails).symm levels
  | cons head rest =>
      obtain ⟨token, position⟩ := head
      refine ⟨before, token, position, rest, rfl, placed, fun behind => ?_,
        bare reached.completion, fun final => ?_⟩
      · refine eq_error_of_verdict ?_ early
        rw [verdict_loop_append read room]
        have offends : step ((before ++ (token, position) :: behind).length + 2) reached
            (some token) = .fails failure.cause :=
          (unlimited_step (open_le _) (open_le _) (some token)).1.trans fails
        simp only [run, proceed, offends]
        exact congrArg Except.error (congrArg (ParseError.mk failure.cause) placed.symm)
      · have accepted := verdict_loop_append read room
          (bare reached.completion ++ [(.endOfInput, final)])
        rw [run_completion final (open_le _)] at accepted
        rw [List.append_assoc]
        exact exists_program_of_verdict accepted

/-- The tokens of `func f(x) { g([1 2`. -/
def missingComma : List PlacedToken :=
  [(.keyword .func, ⟨1, 1⟩), (.identifier "f", ⟨1, 6⟩), (.symbol .openRound, ⟨1, 7⟩),
    (.identifier "x", ⟨1, 8⟩), (.symbol .closeRound, ⟨1, 9⟩), (.symbol .openCurly, ⟨1, 11⟩),
    (.identifier "g", ⟨1, 13⟩), (.symbol .openRound, ⟨1, 14⟩), (.symbol .openSquare, ⟨1, 15⟩),
    (.integer 1, ⟨1, 16⟩), (.integer 2, ⟨1, 18⟩)]

/-- The second number of the list is at fault: a comma or the end of the list is due before it.
The list, the call and the body can still be closed. -/
theorem fails_at_second_number_of_list :
    Parser.loop missingComma =
        .error ⟨.unexpectedToken (.commaOr .closeSquare) (.integer 2), ⟨1, 18⟩⟩ ∧
      ∃ before token position rest, missingComma = before ++ (token, position) :: rest ∧
        (⟨1, 18⟩ : Position) = position ∧
        (∀ behind, Parser.loop (before ++ (token, position) :: behind) =
          .error ⟨.unexpectedToken (.commaOr .closeSquare) (.integer 2), ⟨1, 18⟩⟩) ∧
        ∃ completion : List PlacedToken, ∀ final, ∃ program,
          Parser.loop (before ++ completion ++ [(.endOfInput, final)]) = .ok program := by
  have failed : Parser.loop missingComma =
      .error ⟨.unexpectedToken (.commaOr .closeSquare) (.integer 2), ⟨1, 18⟩⟩ := rfl
  exact ⟨failed, fails_at_first_offending_token failed (.inl ⟨_, _, rfl⟩)⟩

end WindowScript
