import WindowScript.Proofs.Parser.Failures
import WindowScript.Proofs.Parser.Levels
import WindowScript.Proofs.Parser.OpenDelimiters
import WindowScript.Proofs.Parser.Recognition

/-!
# How deep the parser goes

Where the nesting check passes, statements and expressions are never read more than two levels
deeper than delimiters may be open. The counter of the check is the number of delimiters that
are open behind whatever has been read, and each of them encloses no more than one function
body or expression.
-/

set_option autoImplicit false

namespace WindowScript

namespace Recognizer

open WindowScript.Parser

variable {count limit other : Nat} {tokens used : List PlacedToken}

private theorem loopWithin_ne_nestingTooDeep (shallow : Shallow count limit .initial tokens)
    (room : count + 2 ≤ limit) (position : Position) :
    loopWithin limit tokens ≠ .error ⟨.nestingTooDeep, position⟩ := by
  intro failed
  have recognized : run limit .initial tokens = .error ⟨.nestingTooDeep, position⟩ :=
    (verdict_loopWithin limit tokens).symm.trans (congrArg verdict failed)
  obtain ⟨used, rest, reached, shape, read, fails, _⟩ := exists_fault recognized (by simp)
  have few := shallow shape read
  have enough : reached.delimiters + 2 ≤ limit := by omega
  exact (unlimited_step enough enough (rest.head?.map Prod.fst)).2 fails

/-- Limits that leave room everywhere make no difference. -/
theorem loopWithin_congr (shallow : Shallow count limit .initial tokens)
    (room : count + 2 ≤ limit) (le : limit ≤ other) :
    loopWithin other tokens = loopWithin limit tokens := by
  have agrees : Agrees (loopWithin limit tokens) (loopWithin other tokens) :=
    statements_agrees (statement_extends _ le) _ _ _ _
  rcases agrees with same | ⟨position, failed⟩
  · exact same
  · exact absurd failed (loopWithin_ne_nestingTooDeep shallow room position)

/-- The loop over statements has as many levels as it can use. -/
theorem loopWithin_eq_loop (room : tokens.length + 2 ≤ limit) :
    loopWithin limit tokens = loop tokens := by
  refine loopWithin_congr (shallow_length _ _ _) ?_ room
  simp

/-- What has been read is read alike, whatever follows. -/
theorem verdict_append {reached : State} (shallow : Shallow count other .initial used)
    (otherRoom : count + 2 ≤ other) (read : after? other .initial used = some reached)
    (room : count + 2 ≤ limit) (behind : List PlacedToken) :
    verdict (loopWithin limit (used ++ behind)) = run limit reached behind := by
  rw [verdict_loopWithin]
  exact run_append ((after?_congr shallow otherRoom room).trans read) behind

theorem verdict_loop_append {reached : State}
    (read : after? limit .initial used = some reached) (room : used.length + 2 ≤ limit)
    (behind : List PlacedToken) :
    verdict (loop (used ++ behind)) = run ((used ++ behind).length + 2) reached behind := by
  refine verdict_append (shallow_length _ _ _) ?_ read ?_ behind
  · simpa using room
  · simp

/-- No token is at fault for want of tokens. -/
theorem step_some_ne_unexpectedEnd {reached : State}
    (read : after? limit .initial used = some reached) (token : Token) :
    step limit reached (some token) ≠ .fails .unexpectedEnd := by
  intro fails
  let ended : List PlacedToken := used ++ [(token, .nowhere), (.endOfInput, .nowhere)]
  have recognized : run limit .initial ended = .error ⟨.unexpectedEnd, .nowhere⟩ := by
    rw [run_append read]
    simp only [run, proceed, fails]
  rw [← verdict_loopWithin] at recognized
  cases reply : loopWithin limit ended with
  | ok program =>
      rw [reply] at recognized
      cases recognized
  | error failure =>
      have final : Ended ended :=
        fun endless => endless (.endOfInput, .nowhere) (by simp [ended]) rfl
      have blames := statements_blames (fun _ ended => statement_accounts _ _ ended)
        (statement_sound _) final (Nat.le_succ _) reply
      rw [reply] at recognized
      cases blames <;> cases recognized

/-- Where the loop over statements fails for want of tokens, all of them have been read. -/
theorem exists_reached {position : Position}
    (wanting : loop used = .error ⟨.unexpectedEnd, position⟩) :
    ∃ reached, after? (used.length + 2) .initial used = some reached := by
  have recognized : run (used.length + 2) .initial used = .error ⟨.unexpectedEnd, .nowhere⟩ :=
    (verdict_loopWithin _ used).symm.trans (congrArg verdict wanting)
  rcases after?_or_exists (used.length + 2) .initial used with
    whole | ⟨before, token, place, rest, reached, shape, read, stuck⟩
  · exact whole
  · generalize used.length + 2 = limit at *
    rw [shape, run_append read] at recognized
    unfold run proceed at recognized
    split at recognized
    · next next reads => exact absurd reads (stuck next)
    · cases recognized
    · next cause fails =>
      cases recognized
      exact absurd fails (step_some_ne_unexpectedEnd read token)

end Recognizer

open Recognizer in
/-- Behind the nesting check, `maxNesting + 2` levels of statements and expressions are as good
as any larger number, and do not run out. Behind any part of the tokens that is read without a
failure, the parser is at a place where no more statements and expressions have begun than
delimiters are open, apart from two. Their number is the counter of the check there, whatever
comes behind it, and each closing delimiter has ended one of those that were opened. -/
theorem recursion_within_maxNesting {tokens : List PlacedToken}
    (checked : Parser.checkNesting 0 tokens = .ok ()) :
    (∀ depth, maxNesting + 2 ≤ depth →
      Parser.programWithin depth tokens = parse tokens ∧
        ∀ position, Parser.programWithin depth tokens ≠ .error ⟨.nestingTooDeep, position⟩) ∧
      ∀ used rest position, tokens = used ++ rest →
        Parser.loop used = .error ⟨.unexpectedEnd, position⟩ →
          ∃ state : State,
            (∀ depth, maxNesting + 2 ≤ depth → ∀ behind,
              verdict (Parser.loopWithin depth (used ++ behind)) = run depth state behind) ∧
            state.active ≤ state.delimiters + 2 ∧ state.delimiters ≤ maxNesting ∧
            state.delimiters + closed (used.map Prod.fst) = opened (used.map Prod.fst) ∧
            ∀ behind, Parser.checkNesting 0 (used ++ behind) =
              Parser.checkNesting state.delimiters behind := by
  have few : State.initial.delimiters ≤ maxNesting := Nat.zero_le _
  have shallow (limit : Nat) : Shallow maxNesting limit .initial tokens :=
    shallow_of_checkNesting limit checked few
  have unchecked (depth : Nat) : Parser.programWithin depth tokens =
      Parser.loopWithin depth tokens := by
    rw [Parser.programWithin_eq, checked]
    rfl
  refine ⟨fun depth room => ⟨?_, ?_⟩, ?_⟩
  · unfold parse
    rw [unchecked, unchecked]
    rcases Nat.le_total depth (tokens.length + 2) with le | le
    · exact (loopWithin_congr (shallow depth) room le).symm
    · exact loopWithin_eq_loop le
  · rw [unchecked]
    exact loopWithin_ne_nestingTooDeep (shallow depth) room
  · rintro used rest position rfl wanting
    obtain ⟨state, read⟩ := exists_reached wanting
    have passed := checkNesting_of_append checked
    obtain ⟨stateFew, counter⟩ := checkNesting_append read passed few
    have counted := delimiters_of_after? read
    simp only [State.delimiters_initial, Nat.zero_add] at counted
    refine ⟨state, fun depth room behind => ?_, state.active_le, stateFew, counted, counter⟩
    -- On the way no more delimiters are open than the check lets pass, nor than there are tokens.
    refine verdict_append ((shallow_length _ _ used).min (shallow_of_checkNesting _ passed few)) ?_
      read ?_ behind
    · simp only [State.delimiters_initial]
      omega
    · omega

/-- The tokens of `f([1}))}`. -/
def mismatchedEnds : List PlacedToken :=
  [(.identifier "f", ⟨1, 1⟩), (.symbol .openRound, ⟨1, 2⟩), (.symbol .openSquare, ⟨1, 3⟩),
    (.integer 1, ⟨1, 4⟩), (.symbol .closeCurly, ⟨1, 5⟩), (.symbol .closeRound, ⟨1, 6⟩),
    (.symbol .closeRound, ⟨1, 7⟩), (.symbol .closeCurly, ⟨1, 8⟩)]

open Recognizer in
/-- The check passes over mismatched and unbalanced ends. Behind the first four tokens two
delimiters are open, for the parser as for the check. -/
theorem recursion_within_maxNesting_before_mismatchedEnds :
    Parser.checkNesting 0 mismatchedEnds = .ok () ∧
      Parser.programWithin (maxNesting + 2) mismatchedEnds = parse mismatchedEnds ∧
      (∀ position, Parser.programWithin (maxNesting + 2) mismatchedEnds ≠
        .error ⟨.nestingTooDeep, position⟩) ∧
      ∃ state : State, state.delimiters = 2 ∧ state.active ≤ 4 ∧
        (∀ behind, verdict (Parser.loopWithin (maxNesting + 2) (mismatchedEnds.take 4 ++ behind)) =
          run (maxNesting + 2) state behind) ∧
        ∀ behind, Parser.checkNesting 0 (mismatchedEnds.take 4 ++ behind) =
          Parser.checkNesting 2 behind := by
  have checked : Parser.checkNesting 0 mismatchedEnds = .ok () := rfl
  have wanting : Parser.loop (mismatchedEnds.take 4) = .error ⟨.unexpectedEnd, .nowhere⟩ := rfl
  obtain ⟨within, places⟩ := recursion_within_maxNesting checked
  obtain ⟨same, enough⟩ := within (maxNesting + 2) (Nat.le_refl _)
  obtain ⟨state, onward, active, -, counted, counter⟩ :=
    places _ _ _ (List.take_append_drop 4 mismatchedEnds).symm wanting
  have two : state.delimiters = 2 := counted
  rw [two] at active counter
  exact ⟨checked, same, enough, state, two, active, onward _ (Nat.le_refl _), counter⟩

end WindowScript
