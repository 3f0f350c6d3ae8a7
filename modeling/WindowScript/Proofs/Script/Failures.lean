import WindowScript.Proofs.Evaluation.Depth
import WindowScript.Proofs.Evaluation.Failures
import WindowScript.Proofs.Parser.Failures
import WindowScript.Proofs.Token.Tokenize
import WindowScript.Script

/-!
# Where scripts fail

Whichever stage a source text fails in, the failure is at a place of the text. Beyond the
first stage it is at a token, and in the last stage at one that has characters.
-/

set_option autoImplicit false

namespace WindowScript

/-- The place of a character of a text, or the place behind them all. -/
def Position.IsIn (position : Position) (source : String) : Prop :=
  ∃ before, before <+: source.toList ∧ position = .behind before

private theorem Position.IsIn.ne_nowhere {position : Position} {source : String}
    (place : position.IsIn source) : position ≠ .nowhere := by
  obtain ⟨before, _, rfl⟩ := place
  simp [behind, nowhere]

/-- The place of a token other than the end of input. -/
def HasToken (tokens : List PlacedToken) (position : Position) : Prop :=
  ∃ token, (token, position) ∈ tokens ∧ token ≠ .endOfInput

section

variable {source : String} {tokens : List PlacedToken}

private theorem tokenize_ended (tokenized : tokenize source = .ok tokens) :
    Parser.Ended tokens := by
  obtain ⟨found, _, rfl⟩ := tokenize_eq_ok_iff.mp tokenized
  intro endless
  exact endless _ (List.mem_append_right _ (List.mem_singleton.mpr rfl)) rfl

private theorem tokenize_isIn (tokenized : tokenize source = .ok tokens) {token : Token}
    {position : Position} (member : (token, position) ∈ tokens) : position.IsIn source := by
  obtain ⟨found, tiling, rfl⟩ := tokenize_eq_ok_iff.mp tokenized
  rcases List.mem_append.mp member with inside | final
  · obtain ⟨lexeme, among, placed⟩ := List.mem_map.mp inside
    cases placed
    exact ⟨lexeme.before, (List.prefix_append ..).trans (tiling.whole.2 lexeme among), rfl⟩
  · cases List.mem_singleton.mp final
    exact ⟨source.toList, List.prefix_rfl, rfl⟩

private theorem tokenize_failure_isIn {failure : LexError}
    (failed : tokenize source = .error failure) : failure.position.IsIn source := by
  obtain ⟨found, reached, rest, tiling, _, position⟩ := tokenize_eq_error_iff.mp failed
  exact ⟨reached, ⟨rest, tiling.whole.1.symm⟩, position⟩

/-- The tokens behind the first end of input are not read, and none before it is one. -/
theorem parse_hasToken {program : Program} (parsed : parse tokens = .ok program) :
    ∀ statement ∈ program, statement.At (HasToken tokens) := by
  unfold parse Parser.programWithin at parsed
  obtain ⟨_, _, read⟩ := Parser.bind_eq_ok parsed
  obtain ⟨body, position, rest, found, rfl, endless, derived, rfl⟩ :=
    Parser.statements_sound (Parser.statement_sound _) read
  refine derived.statements_at ?_
  intro token member
  exact ⟨token.1, List.mem_append_left _ member, endless token member⟩

end

namespace Script

variable {host : Host} {source : String} {failure : ScriptError}

/-- A run fails in one of three stages, each of which has the result of the one before. -/
theorem run_failure_cases (failed : (run host source).1 = .error failure) :
    (∃ fault, tokenize source = .error fault ∧ failure = .lexical fault) ∨
    (∃ tokens fault, tokenize source = .ok tokens ∧ parse tokens = .error fault ∧
      failure = .grammatical fault) ∨
    ∃ tokens program fault, tokenize source = .ok tokens ∧ parse tokens = .ok program ∧
      (Session.fresh.run host program).1 = .error fault ∧ failure = .runtime fault := by
  unfold run runIn read at failed
  cases tokenized : tokenize source with
  | error fault =>
      rw [tokenized] at failed
      cases failed
      exact .inl ⟨fault, rfl, rfl⟩
  | ok tokens =>
      rw [tokenized] at failed
      cases parsed : parse tokens with
      | error fault =>
          simp only [parsed] at failed
          cases failed
          exact .inr (.inl ⟨tokens, fault, rfl, parsed, rfl⟩)
      | ok program =>
          simp only [parsed] at failed
          rcases ran : Session.fresh.run host program with ⟨result, after⟩
          rw [ran] at failed
          cases result with
          | ok value => cases failed
          | error fault =>
              cases failed
              exact .inr (.inr ⟨tokens, program, fault, rfl, parsed, by rw [ran], rfl⟩)

end Script

/-- A run that fails, fails at a place of its source. A failure to read a program is at the
token that it names; a failure of evaluation is at a token with characters, however deep in
calls it arises and whatever function it arises in. -/
theorem run_fails_in_source {host : Host} {source : String} {failure : ScriptError}
    (failed : (Script.run host source).1 = .error failure) :
    failure.position.IsIn source ∧ failure.position ≠ .nowhere ∧
    (∀ fault, failure = .grammatical fault → ∃ tokens, tokenize source = .ok tokens ∧
      ((∃ expected found, fault.cause = .unexpectedToken expected found ∧
          (found, fault.position) ∈ tokens ∧
          fault.message = s!"Error on {fault.position.text}: " ++
            s!"Expected {expected.describe}, found {found.describe}.") ∨
        (fault.cause = .invalidCallTarget ∨ fault.cause = .nestingTooDeep) ∧
          ∃ token, (token, fault.position) ∈ tokens)) ∧
    ∀ fault, failure = .runtime fault → ∃ tokens, tokenize source = .ok tokens ∧
      ∃ token, (token, fault.position) ∈ tokens ∧ token ≠ .endOfInput := by
  rcases Script.run_failure_cases failed with
    ⟨fault, tokenized, rfl⟩ | ⟨tokens, fault, tokenized, unread, rfl⟩ |
    ⟨tokens, program, fault, tokenized, parsed, stopped, rfl⟩
  · have place := tokenize_failure_isIn tokenized
    exact ⟨place, place.ne_nowhere, by simp, by simp⟩
  · have blames := parse_blames (tokenize_ended tokenized) unread
    have place : fault.position.IsIn source := by
      cases blames <;> exact tokenize_isIn tokenized ‹_›
    refine ⟨place, place.ne_nowhere, ?_, by simp⟩
    intro named same
    cases same
    refine ⟨tokens, tokenized, ?_⟩
    cases blames with
    | unexpected member => exact .inl ⟨_, _, rfl, member, rfl⟩
    | callTarget member => exact .inr ⟨.inl rfl, _, member⟩
    | nesting member => exact .inr ⟨.inr rfl, _, member⟩
  · have blamed : HasToken tokens fault.position :=
      Session.run_blames host (parse_hasToken parsed) Scope.initial_at stopped
    obtain ⟨token, member, visible⟩ := blamed
    have place := tokenize_isIn tokenized member
    refine ⟨place, place.ne_nowhere, by simp, ?_⟩
    intro named same
    cases same
    exact ⟨tokens, tokenized, token, member, visible⟩

/-- The second line calls a function that fails in the first one. -/
def calledUnbound : String := "func f() { y }\nf()"

theorem run_fails_in_source_calledUnbound :
    ∃ fault tokens token, (Script.run .quiet calledUnbound).1 = .error (.runtime fault) ∧
      fault.position = ⟨1, 12⟩ ∧ tokenize calledUnbound = .ok tokens ∧
      (token, fault.position) ∈ tokens ∧ token ≠ .endOfInput := by
  have place : (match (Script.run .quiet calledUnbound).1 with
      | .error (.runtime fault) => some fault.position
      | _ => none) = some ⟨1, 12⟩ := by decide +kernel
  split at place
  · next fault failed =>
      obtain ⟨tokens, tokenized, token, member, visible⟩ :=
        (run_fails_in_source failed).2.2.2 fault rfl
      exact ⟨fault, tokens, token, failed, Option.some.inj place, tokenized, member, visible⟩
  · cases place

end WindowScript
