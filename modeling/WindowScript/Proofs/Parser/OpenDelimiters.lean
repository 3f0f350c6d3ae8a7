import WindowScript.Proofs.Parser.Nesting
import WindowScript.Proofs.Parser.Recognizer

/-!
# Delimiters of what has been read

A token that is read opens a delimiter, closes the one that was opened last, or is no delimiter.
So the number of delimiters that are open is the counter of the nesting check behind the same
tokens. It bounds the statements and expressions that have begun and not ended, and where there
is room for two of them more, the limit on them makes no difference.
-/

set_option autoImplicit false

namespace WindowScript.Recognizer

/-!
## One token
-/

/-- Whatever token is read where `count` delimiters are open, it adds those that it opens and
takes away those that it closes. -/
def Counts (count : Nat) (choice : Choice) : Prop :=
  ∀ ⦃token next⦄, choice (some token) = .reads next →
    next.delimiters + (if token.closes then 1 else 0) = count + if token.opens then 1 else 0

section

variable {limit count bodies : Nat} {next : State}

private theorem counts_refused (expected : Expectation) : Counts count (refused expected) := by
  rintro token next ⟨⟩

private theorem counts_onSymbol {mark : Symbol} {otherwise : Choice}
    (here : next.delimiters + (if mark.closes then 1 else 0) =
      count + if mark.opens then 1 else 0)
    (others : Counts count otherwise) : Counts count (onSymbol mark next otherwise) := by
  intro token reached reads
  cases token with
  | symbol found =>
      simp only [onSymbol] at reads
      split at reads
      · next same =>
        cases reads
        rw [same]
        exact here
      · exact others reads
  | _ => exact others reads

private theorem counts_onIdentifier (same : next.delimiters = count) :
    Counts count (onIdentifier next) := by
  intro token reached reads
  cases token with
  | identifier name =>
      cases reads
      exact same
  | _ => cases reads

/-- A word is no delimiter. -/
theorem counts_onWord (expected : Expectation) (same : next.delimiters = count) :
    Counts count (onWord expected next) := by
  intro token reached reads
  cases token with
  | identifier name | keyword word | widget kind =>
      cases reads
      exact same
  | _ => cases reads

private theorem counts_onOperand (around : Surroundings) (alone : Bool) :
    Counts around.delimiters (onOperand around alone) := by
  intro token reached reads
  cases token with
  | symbol mark =>
      cases mark with
      | openRound | openCurly | openSquare =>
          cases reads
          rfl
      | _ => cases reads
  | keyword word =>
      cases word with
      | trueWord | falseWord =>
          cases reads
          rfl
      | _ => cases reads
  | integer value | real value | text value | identifier name =>
      cases reads
      rfl
  | _ => cases reads

private theorem counts_onExpression (around : Surroundings) :
    Counts around.delimiters (onExpression limit around) := by
  intro token reached reads
  unfold onExpression at reads
  split at reads
  · cases reads
  · exact counts_onOperand around true reads

private theorem counts_onStatement : Counts bodies (onStatement limit bodies) := by
  have expression : Counts bodies (onExpression limit ⟨bodies, .statement, []⟩) :=
    counts_onExpression ⟨bodies, .statement, []⟩
  intro token reached reads
  unfold onStatement at reads
  split at reads
  · cases reads
  · cases token with
    | keyword word =>
        cases word with
        | letWord | func | gui | returnWord =>
            cases reads
            rfl
        | _ => exact expression reads
    | _ => exact expression reads

private theorem counts_onBlock : Counts bodies (onBlock limit bodies) := by
  cases bodies with
  | succ bodies => exact counts_onSymbol rfl counts_onStatement
  | zero =>
      intro token reached reads
      cases token with
      | endOfInput => cases reads
      | _ => exact counts_onStatement reads

private theorem counts_onWidget {owner : Owner} (same : bodies + owner.delimiters = count) :
    Counts count (onWidget bodies owner) := by
  intro token reached reads
  cases token with
  | widget kind =>
      cases reads
      exact same
  | _ => cases reads

private theorem counts_onElement : Counts (bodies + 1) (onElement bodies) := by
  intro token reached reads
  cases token with
  | widget kind =>
      cases reads
      rfl
  | keyword word =>
      cases word with
      | window =>
          cases reads
          rfl
      | _ => cases reads
  | _ => cases reads

private theorem counts_onEntry (around : Surroundings) (alone : Bool) :
    Counts (around.delimiters + 1) (onEntry around alone) :=
  counts_onSymbol rfl (counts_onWord _ rfl)

end

private theorem choice_counts (limit bodies : Nat) (point : Outline) :
    Counts (State.outside bodies point).delimiters (point.choice limit bodies) := by
  cases point with
  | statement => exact counts_onBlock
  | ending => exact counts_onSymbol rfl counts_onBlock
  | bindingName | functionName | guiName => exact counts_onIdentifier rfl
  | bindingSign | functionOpen | guiOpen | windowOpen =>
      exact counts_onSymbol rfl (counts_refused _)
  | parameter => exact counts_onSymbol rfl (counts_onIdentifier rfl)
  | parameterEnd => exact counts_onSymbol rfl (counts_onSymbol rfl (counts_refused _))
  | bodyOpen => exact counts_onSymbol rfl (counts_refused _)
  | element => exact counts_onSymbol rfl counts_onElement
  | attributesOpen owner => exact counts_onSymbol rfl (counts_refused _)
  | attributeName owner =>
      refine counts_onSymbol ?_ (counts_onWord _ rfl)
      cases owner <;> rfl
  | attributeSign owner => exact counts_onSymbol rfl (counts_refused _)
  | attributeEnd owner =>
      refine counts_onSymbol rfl (counts_onSymbol ?_ (counts_refused _))
      cases owner <;> rfl
  | child => exact counts_onSymbol rfl (counts_onWidget rfl)
  | widgetEnd => exact counts_onSymbol rfl (counts_onSymbol rfl counts_onElement)
  | childEnd => exact counts_onSymbol rfl (counts_onSymbol rfl (counts_onWidget rfl))

private theorem innerStep_counts (limit : Nat) (state : State) :
    Counts state.delimiters (innerStep limit state) := by
  cases state with
  | outside bodies point => exact choice_counts limit bodies point
  | inside around point =>
      cases point with
      | start => exact counts_onExpression around
      | operand => exact counts_onOperand around false
      | key alone => exact counts_onWord _ rfl
      | behind callable alone => exact counts_refused _
      | groupEnd callable alone => exact counts_onSymbol rfl (counts_refused _)
      | item kind alone =>
          refine counts_onSymbol ?_ (counts_onExpression (around.enclose ⟨.items kind, alone⟩))
          cases kind <;> rfl
      | itemEnd kind alone =>
          refine counts_onSymbol rfl (counts_onSymbol ?_ (counts_refused _))
          cases kind <;> rfl
      | entry alone => exact counts_onEntry around alone
      | sign alone => exact counts_onSymbol rfl (counts_refused _)
      | entryEnd alone => exact counts_onSymbol rfl (counts_onEntry around alone)

/-- The end of an expression closes nothing. -/
theorem delimiters_ended (around : Surroundings) (callable : Bool) :
    (around.ended callable).delimiters = around.delimiters := by
  obtain ⟨bodies, role, frames⟩ := around
  cases frames with
  | nil => cases role <;> rfl
  | cons frame frames =>
      obtain ⟨bracket, alone⟩ := frame
      cases bracket <;> rfl

private theorem counts_onSuffix (limit : Nat) (around : Surroundings) (callable alone : Bool) :
    Counts around.delimiters (onSuffix limit around callable alone) := by
  have ended := innerStep_counts limit (around.ended (callable && alone))
  rw [delimiters_ended] at ended
  intro token reached reads
  cases token with
  | symbol mark =>
      cases mark with
      | openRound =>
          cases callable <;> cases reads
          rfl
      | dot | pipe | equals | plus | minus | star | slash =>
          cases reads
          rfl
      | _ => exact ended reads
  | _ => exact ended reads

private theorem step_counts (limit : Nat) (state : State) :
    Counts state.delimiters (step limit state) := by
  rcases step_cases limit state with ⟨around, callable, alone, rfl⟩ | same
  · exact counts_onSuffix limit around callable alone
  · rw [same]
    exact innerStep_counts limit state

/-!
## The nesting check
-/

open WindowScript.Parser

/-- The check passes a token that is read, unless it leaves too many delimiters open. -/
theorem checkNesting_reads {limit : Nat} {state next : State} {token : Token}
    (reads : step limit state (some token) = .reads next) (few : state.delimiters ≤ maxNesting)
    (position : Position) (rest : List PlacedToken) :
    checkNesting state.delimiters ((token, position) :: rest) =
      if maxNesting < next.delimiters then .error ⟨.nestingTooDeep, position⟩
      else checkNesting next.delimiters rest := by
  have counted := step_counts limit state reads
  rw [checkNesting_cons]
  by_cases opens : token.opens = true
  · have closes := token.closes_eq_false opens
    simp only [opens, closes, if_true, Bool.false_eq_true, if_false, Nat.add_zero] at counted
    simp only [if_pos opens, counted, Nat.lt_succ_iff]
  · simp only [opens, Bool.false_eq_true, if_false, Nat.add_zero] at counted
    have same : state.delimiters - (if token.closes = true then 1 else 0) = next.delimiters := by
      omega
    rw [if_neg opens, same, if_neg (by omega)]

/-- Behind what has been read, the counter of the nesting check is the number of delimiters
that are open, whatever follows, and the check lets pass as many. -/
theorem checkNesting_append {limit : Nat} {state reached : State} {used : List PlacedToken}
    (read : after? limit state used = some reached)
    (checked : checkNesting state.delimiters used = .ok ())
    (few : state.delimiters ≤ maxNesting) :
    reached.delimiters ≤ maxNesting ∧ ∀ rest : List PlacedToken,
      checkNesting state.delimiters (used ++ rest) = checkNesting reached.delimiters rest := by
  induction used generalizing state with
  | nil =>
      cases read
      exact ⟨few, fun _ => rfl⟩
  | cons head used ih =>
      obtain ⟨token, position⟩ := head
      rw [after?] at read
      split at read
      · next next reads =>
        rw [checkNesting_reads reads few] at checked
        split at checked
        · cases checked
        · next room =>
          obtain ⟨reachedFew, onward⟩ := ih read checked (Nat.le_of_not_lt room)
          refine ⟨reachedFew, fun rest => ?_⟩
          rw [List.cons_append, checkNesting_reads reads few, if_neg room, onward]
      · cases read

/-- No delimiter that is read closes nothing. -/
theorem delimiters_of_after? {limit : Nat} {state reached : State} {used : List PlacedToken}
    (read : after? limit state used = some reached) :
    reached.delimiters + closed (used.map Prod.fst) =
      state.delimiters + opened (used.map Prod.fst) := by
  induction used generalizing state with
  | nil =>
      cases read
      rfl
  | cons head used ih =>
      obtain ⟨token, position⟩ := head
      rw [after?] at read
      split at read
      · next next reads =>
        have counted := step_counts limit state reads
        have later := ih read
        simp only [List.map_cons, opened_cons, closed_cons]
        omega
      · cases read

theorem checkNesting_of_append {depth : Nat} {used rest : List PlacedToken}
    (checked : checkNesting depth (used ++ rest) = .ok ()) : checkNesting depth used = .ok () := by
  induction used generalizing depth with
  | nil => rfl
  | cons head used ih =>
      obtain ⟨token, position⟩ := head
      rw [List.cons_append, checkNesting_cons] at checked
      rw [checkNesting_cons]
      split at checked
      · split at checked
        · cases checked
        · next opens room => rw [if_pos opens, if_neg room, ih checked]
      · next opens => rw [if_neg opens, ih checked]

/-- At no place up to which the tokens are read, more than `count` delimiters are open. -/
def Shallow (count limit : Nat) (state : State) (tokens : List PlacedToken) : Prop :=
  ∀ ⦃used rest reached⦄, tokens = used ++ rest → after? limit state used = some reached →
    reached.delimiters ≤ count

theorem Shallow.min {count other limit : Nat} {state : State} {tokens : List PlacedToken}
    (shallow : Shallow count limit state tokens) (otherShallow : Shallow other limit state tokens) :
    Shallow (min count other) limit state tokens :=
  fun _ _ _ shape read => Nat.le_min.mpr ⟨shallow shape read, otherShallow shape read⟩

/-- Each token opens no more than one delimiter. -/
theorem shallow_length (limit : Nat) (state : State) (tokens : List PlacedToken) :
    Shallow (state.delimiters + tokens.length) limit state tokens := by
  intro used rest reached shape read
  have counted := delimiters_of_after? read
  have most : opened (used.map Prod.fst) ≤ (used.map Prod.fst).length := List.countP_le_length
  rw [shape, List.length_append]
  rw [List.length_map] at most
  omega

theorem shallow_of_checkNesting {state : State} {tokens : List PlacedToken} (limit : Nat)
    (checked : checkNesting state.delimiters tokens = .ok ())
    (few : state.delimiters ≤ maxNesting) : Shallow maxNesting limit state tokens := by
  rintro used rest reached rfl read
  exact (checkNesting_append read (checkNesting_of_append checked) few).1

/-!
## Room for what begins

Where the limit leaves room for a statement and an expression beyond the delimiters that are
open, it is never met.
-/

/-- Two choices that come to the same and never go too deep. -/
def Unlimited (choice other : Choice) : Prop :=
  ∀ token?, choice token? = other token? ∧ choice token? ≠ .fails .nestingTooDeep

section

variable {limit other : Nat}

private theorem unlimited_refused (expected : Expectation) :
    Unlimited (refused expected) (refused expected) := by
  intro token?
  cases token? <;> exact ⟨rfl, by simp [refused]⟩

private theorem unlimited_onSymbol (mark : Symbol) (next : State) {choice otherwise : Choice}
    (others : Unlimited choice otherwise) :
    Unlimited (onSymbol mark next choice) (onSymbol mark next otherwise) := by
  intro token?
  rcases token? with _ | token
  · exact others none
  · cases token with
    | symbol found =>
        simp only [onSymbol]
        split
        · exact ⟨rfl, by simp⟩
        · exact others _
    | _ => exact others _

private theorem unlimited_onIdentifier (next : State) :
    Unlimited (onIdentifier next) (onIdentifier next) := by
  intro token?
  rcases token? with _ | token
  · exact ⟨rfl, by simp [onIdentifier, refused]⟩
  · cases token <;> exact ⟨rfl, by simp [onIdentifier, refused]⟩

private theorem unlimited_onWord (expected : Expectation) (next : State) :
    Unlimited (onWord expected next) (onWord expected next) := by
  intro token?
  refine ⟨rfl, ?_⟩
  unfold onWord
  split
  · simp
  · exact (unlimited_refused expected token?).2

private theorem unlimited_onOperand (around : Surroundings) (alone : Bool) :
    Unlimited (onOperand around alone) (onOperand around alone) := by
  intro token?
  refine ⟨rfl, ?_⟩
  unfold onOperand
  split
  all_goals first | exact (unlimited_refused _ _).2 | simp

private theorem unlimited_onExpression {around : Surroundings} (room : around.active < limit)
    (otherRoom : around.active < other) :
    Unlimited (onExpression limit around) (onExpression other around) := by
  intro token?
  unfold onExpression
  rw [if_neg (Nat.not_le.mpr room), if_neg (Nat.not_le.mpr otherRoom)]
  exact unlimited_onOperand around true token?

private theorem unlimited_onStatement {bodies : Nat} (room : bodies + 1 < limit)
    (otherRoom : bodies + 1 < other) :
    Unlimited (onStatement limit bodies) (onStatement other bodies) := by
  have expression : Unlimited (onExpression limit ⟨bodies, .statement, []⟩)
      (onExpression other ⟨bodies, .statement, []⟩) := unlimited_onExpression room otherRoom
  intro token?
  unfold onStatement
  rw [if_neg (by omega), if_neg (by omega)]
  unfold onStatementCore
  split
  all_goals first | exact ⟨rfl, by simp⟩ | exact expression _

private theorem unlimited_onBlock {bodies : Nat} (room : bodies + 1 < limit)
    (otherRoom : bodies + 1 < other) :
    Unlimited (onBlock limit bodies) (onBlock other bodies) := by
  cases bodies with
  | succ bodies => exact unlimited_onSymbol _ _ (unlimited_onStatement room otherRoom)
  | zero =>
      have statement := unlimited_onStatement room otherRoom
      intro token?
      rcases token? with _ | token
      · exact ⟨rfl, by simp [onBlock, onProgram]⟩
      · cases token with
        | endOfInput => exact ⟨rfl, by simp [onBlock, onProgram]⟩
        | _ => exact statement _

private theorem unlimited_onWidget (bodies : Nat) (owner : Owner) :
    Unlimited (onWidget bodies owner) (onWidget bodies owner) := by
  intro token?
  refine ⟨rfl, ?_⟩
  unfold onWidget
  split
  · simp
  · exact (unlimited_refused _ _).2

private theorem unlimited_onElement (bodies : Nat) :
    Unlimited (onElement bodies) (onElement bodies) := by
  intro token?
  refine ⟨rfl, ?_⟩
  unfold onElement
  split
  · simp
  · simp
  · exact (unlimited_refused _ _).2

private theorem unlimited_onEntry (around : Surroundings) (alone : Bool) :
    Unlimited (onEntry around alone) (onEntry around alone) :=
  unlimited_onSymbol _ _ (unlimited_onWord _ _)

private theorem unlimited_choice {bodies : Nat} (room : bodies + 1 < limit)
    (otherRoom : bodies + 1 < other) (point : Outline) :
    Unlimited (point.choice limit bodies) (point.choice other bodies) := by
  cases point with
  | statement => exact unlimited_onBlock room otherRoom
  | ending => exact unlimited_onSymbol _ _ (unlimited_onBlock room otherRoom)
  | bindingName | functionName | guiName => exact unlimited_onIdentifier _
  | parameter => exact unlimited_onSymbol _ _ (unlimited_onIdentifier _)
  | parameterEnd | attributeEnd =>
      exact unlimited_onSymbol _ _ (unlimited_onSymbol _ _ (unlimited_refused _))
  | element => exact unlimited_onSymbol _ _ (unlimited_onElement _)
  | attributeName => exact unlimited_onSymbol _ _ (unlimited_onWord _ _)
  | child => exact unlimited_onSymbol _ _ (unlimited_onWidget _ _)
  | widgetEnd => exact unlimited_onSymbol _ _ (unlimited_onSymbol _ _ (unlimited_onElement _))
  | childEnd => exact unlimited_onSymbol _ _ (unlimited_onSymbol _ _ (unlimited_onWidget _ _))
  | _ => exact unlimited_onSymbol _ _ (unlimited_refused _)

private theorem unlimited_innerStep {state : State} (room : state.delimiters + 2 ≤ limit)
    (otherRoom : state.delimiters + 2 ≤ other) :
    Unlimited (innerStep limit state) (innerStep other state) := by
  cases state with
  | outside bodies point =>
      simp only [State.delimiters] at room otherRoom
      exact unlimited_choice (by omega) (by omega) point
  | inside around point =>
      have expression (enclosed : Surroundings)
          (few : enclosed.active ≤ (State.inside around point).delimiters + 1) :
          Unlimited (onExpression limit enclosed) (onExpression other enclosed) :=
        unlimited_onExpression (by omega) (by omega)
      cases point with
      | start =>
          refine expression around ?_
          simp only [State.delimiters, Surroundings.delimiters, Surroundings.active]
          omega
      | operand => exact unlimited_onOperand around false
      | key alone => exact unlimited_onWord _ _
      | behind callable alone => exact unlimited_refused _
      | groupEnd callable alone => exact unlimited_onSymbol _ _ (unlimited_refused _)
      | item kind alone =>
          refine unlimited_onSymbol _ _ (expression (around.enclose ⟨.items kind, alone⟩) ?_)
          simp only [State.delimiters, Point.delimiters, Surroundings.delimiters,
            Surroundings.active, Surroundings.enclose, List.length_cons]
          omega
      | itemEnd kind alone =>
          exact unlimited_onSymbol _ _ (unlimited_onSymbol _ _ (unlimited_refused _))
      | entry alone => exact unlimited_onEntry around alone
      | sign alone => exact unlimited_onSymbol _ _ (unlimited_refused _)
      | entryEnd alone => exact unlimited_onSymbol _ _ (unlimited_onEntry around alone)

private theorem unlimited_onSuffix {around : Surroundings} (room : around.delimiters + 2 ≤ limit)
    (otherRoom : around.delimiters + 2 ≤ other) (callable alone : Bool) :
    Unlimited (onSuffix limit around callable alone) (onSuffix other around callable alone) := by
  have ended : Unlimited (innerStep limit (around.ended (callable && alone)))
      (innerStep other (around.ended (callable && alone))) := by
    apply unlimited_innerStep
    · rw [delimiters_ended]
      exact room
    · rw [delimiters_ended]
      exact otherRoom
  intro token?
  unfold onSuffix
  split
  · exact ⟨rfl, by simp⟩
  · split <;> exact ⟨rfl, by simp⟩
  · split
    · exact ⟨rfl, by simp⟩
    · exact ended _

theorem unlimited_step {state : State} (room : state.delimiters + 2 ≤ limit)
    (otherRoom : state.delimiters + 2 ≤ other) :
    Unlimited (step limit state) (step other state) := by
  rcases step_cases limit state with ⟨around, callable, alone, rfl⟩ | same
  · exact unlimited_onSuffix room otherRoom callable alone
  · rcases step_cases other state with ⟨around, callable, alone, rfl⟩ | otherSame
    · exact unlimited_onSuffix room otherRoom callable alone
    · rw [same, otherSame]
      exact unlimited_innerStep room otherRoom

end

/-- What is read under one limit is read under another, when both leave room everywhere. -/
theorem after?_congr {count limit other : Nat} {state : State} {tokens : List PlacedToken}
    (shallow : Shallow count limit state tokens) (room : count + 2 ≤ limit)
    (otherRoom : count + 2 ≤ other) : after? other state tokens = after? limit state tokens := by
  induction tokens generalizing state with
  | nil => rfl
  | cons head rest ih =>
      obtain ⟨token, position⟩ := head
      have few : state.delimiters ≤ count := shallow (List.nil_append _).symm rfl
      have stateRoom : state.delimiters + 2 ≤ limit := by omega
      have otherStateRoom : state.delimiters + 2 ≤ other := by omega
      have same := (unlimited_step stateRoom otherStateRoom (some token)).1
      simp only [after?, ← same]
      split
      · next next reads =>
        refine ih fun used behind reached shape read => ?_
        have whole : (token, position) :: rest = ((token, position) :: used) ++ behind :=
          congrArg _ shape
        refine shallow whole ?_
        simp only [after?, reads]
        exact read
      · rfl

end WindowScript.Recognizer
