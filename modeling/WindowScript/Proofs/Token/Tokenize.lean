import WindowScript.Proofs.Token.Places

/-!
# Reading a whole text

Reading is a walk along the one way to cut a text. Its tokens, its failure and their
positions are read off that way of cutting.
-/

set_option autoImplicit false

namespace WindowScript

namespace Lexer

/-! ## There is one way to cut a text -/

/-- Whether cutting stops in front of this text: nothing is left, or no token begins it. -/
def Ends (text : List Char) : Prop := text = [] ∨ ∃ cause, Fails text cause

/-- Whether a character begins layout. -/
def IsLayout (character : Char) : Prop := character ∈ blanks ∨ character = '#'

private theorem cut_content_of_isLayout {first : Char} (layout : IsLayout first)
    (input : List Char) : (cut first input).content = .skipped := by
  simp only [IsLayout, blanks, List.mem_cons, List.not_mem_nil, or_false] at layout
  rcases layout with (rfl | rfl | rfl | rfl | rfl) | rfl <;> rfl

private theorem Matched.not_isLayout {characters : List Char} (matched : Matched characters)
    {first : Char} {input : List Char} (leads : characters <+: first :: input) :
    ¬ IsLayout first := by
  intro layout
  obtain ⟨reading, spells⟩ := matched
  obtain ⟨begin, tail, rfl⟩ := List.exists_cons_of_ne_nil spells.ne_nil
  obtain ⟨rfl, _⟩ := List.cons_prefix_cons.mp leads
  have content := spells.cut_self.2
  rw [cut_content_of_isLayout layout] at content
  cases reading <;> cases content

private theorem Fails.not_isLayout {text : List Char} {cause : LexCause} (fails : Fails text cause)
    {first : Char} {input : List Char} (whole : text = first :: input) : ¬ IsLayout first := by
  cases fails with
  | faulty longest =>
      subst whole
      exact longest.matched.not_isLayout longest.leads
  | unterminated kind =>
      cases whole
      intro layout
      rcases kind with rfl | rfl <;> rcases layout with blank | comment
      · exact absurd blank (by decide)
      · exact absurd comment (by decide)
      · exact absurd blank (by decide)
      · exact absurd comment (by decide)
  | unexpected _ visible uncommented =>
      cases whole
      exact not_or.mpr ⟨visible, uncommented⟩

private theorem Fails.not_nil {cause : LexCause} : ¬ Fails [] cause := by
  intro fails
  cases fails with
  | faulty longest spells => exact spells.ne_nil (List.prefix_nil.mp longest.leads)

private theorem Gap.first {characters behind : List Char} (gap : Gap characters behind) :
    ∃ first tail, characters = first :: tail ∧ IsLayout first := by
  cases gap with
  | blank skipped => exact ⟨_, _, rfl, .inl skipped⟩
  | comment => exact ⟨_, _, rfl, .inr rfl⟩

private theorem Gap.not_ends {characters behind : List Char} (gap : Gap characters behind) :
    ¬ Ends (characters ++ behind) := by
  obtain ⟨first, tail, rfl, layout⟩ := gap.first
  intro ends
  rcases ends with empty | ⟨cause, fails⟩
  · cases empty
  · exact fails.not_isLayout rfl layout

private theorem Gap.not_longest {characters behind other : List Char}
    (gap : Gap characters behind) : ¬ Longest other (characters ++ behind) := by
  obtain ⟨first, tail, rfl, layout⟩ := gap.first
  intro longest
  exact longest.matched.not_isLayout longest.leads layout

private theorem Longest.not_ends {characters text : List Char} {token : Token}
    (longest : Longest characters text) (spells : Spells characters (.ok token)) :
    ¬ Ends text := by
  intro ends
  rcases ends with rfl | ⟨cause, fails⟩
  · exact spells.ne_nil (List.prefix_nil.mp longest.leads)
  · cases fails with
    | faulty other faulty =>
        cases other.unique longest
        cases faulty.unique spells
    | unterminated _ unmatched => exact unmatched _ longest.leads longest.matched
    | unexpected _ _ _ unmatched => exact unmatched _ longest.leads longest.matched

private theorem takeWhile_line {line behind : List Char} (within : '\n' ∉ line)
    (stops : behind = [] ∨ behind.head? = some '\n') :
    (line ++ behind).takeWhile (· ≠ '\n') = line := by
  have kept : ∀ one ∈ line, decide (one ≠ '\n') = true := by
    intro one member
    simp only [decide_eq_true_eq]
    intro newline
    exact within (newline ▸ member)
  rw [List.takeWhile_append_of_pos kept]
  rcases stops with rfl | newline
  · simp
  · obtain ⟨rest, rfl⟩ := List.head?_eq_some_iff.mp newline
    simp

private theorem Gap.unique {one other behind beyond : List Char} (first : Gap one behind)
    (second : Gap other beyond) (whole : one ++ behind = other ++ beyond) : one = other := by
  cases first with
  | blank skipped =>
      cases second with
      | blank => exact congrArg (fun first => [first]) (List.cons.inj whole).1
      | comment =>
          cases whole
          exact absurd skipped (by decide)
  | comment within stops =>
      cases second with
      | blank skipped =>
          cases whole
          exact absurd skipped (by decide)
      | comment alone ends =>
          rw [List.cons_append, List.cons_append] at whole
          have line := congrArg (List.takeWhile (· ≠ '\n')) (List.cons.inj whole).2
          rw [takeWhile_line within stops, takeWhile_line alone ends] at line
          rw [line]

/-- Two ways of cutting a text that both go as far as they can are the same. -/
theorem Tiling.unique {before text reached rest : List Char} {found : List Lexeme}
    (one : Tiling before text found reached rest) (ends : Ends rest)
    {finish remaining : List Char} {others : List Lexeme}
    (other : Tiling before text others finish remaining) (stops : Ends remaining) :
    found = others ∧ reached = finish ∧ rest = remaining := by
  induction one generalizing others with
  | stop =>
      cases other with
      | stop => exact ⟨rfl, rfl, rfl⟩
      | gap whole skipped =>
          subst whole
          exact absurd ends skipped.not_ends
      | lexeme _ longest spells => exact absurd ends (longest.not_ends spells)
  | gap whole skipped more ih =>
      subst whole
      cases other with
      | stop => exact absurd stops skipped.not_ends
      | gap whole second moreOther =>
          cases skipped.unique second whole
          cases List.append_cancel_left whole
          exact ih ends moreOther
      | lexeme _ longest => exact absurd longest skipped.not_longest
  | lexeme whole longest spells more ih =>
      cases other with
      | stop => exact absurd stops (longest.not_ends spells)
      | gap second skipped =>
          rw [second] at longest
          exact absurd longest skipped.not_longest
      | lexeme second longestOther spellsOther moreOther =>
          cases longest.unique longestOther
          cases spells.unique spellsOther
          cases List.append_cancel_left (whole.symm.trans second)
          obtain ⟨rfl, rfl, rfl⟩ := ih ends moreOther
          exact ⟨rfl, rfl, rfl⟩

private theorem Fails.unique {text : List Char} {one other : LexCause} (first : Fails text one)
    (second : Fails text other) : one = other := by
  cases first with
  | faulty longest spells =>
      cases second with
      | faulty longestOther spellsOther =>
          cases longest.unique longestOther
          exact Except.error.inj (spells.unique spellsOther)
      | unterminated _ unmatched => exact absurd longest.matched (unmatched _ longest.leads)
      | unexpected _ _ _ unmatched => exact absurd longest.matched (unmatched _ longest.leads)
  | unterminated kind unmatched =>
      cases second with
      | faulty longest => exact absurd longest.matched (unmatched _ longest.leads)
      | unterminated => rfl
      | unexpected unquoted => exact absurd kind unquoted
  | unexpected unquoted _ _ unmatched =>
      cases second with
      | faulty longest => exact absurd longest.matched (unmatched _ longest.leads)
      | unterminated kind => exact absurd kind unquoted
      | unexpected => rfl

/-! ## Reading follows it -/

/-- The token of a lexeme, placed at its first character. -/
def Lexeme.placed (lexeme : Lexeme) : PlacedToken := (lexeme.token, .behind lexeme.before)

/-- What taking in the pieces of a text comes to: every lexeme was read, in order, or the
first one that fails stopped the walk. -/
inductive Scanned (source : String) (before text : List Char) (read : List PlacedToken) :
    Except LexError State → Prop where
  | ok {found : List Lexeme} {final : State}
      (tiling : Tiling before text found source.toList [])
      (knows : Knows source source.toList final)
      (tokens : final.read = (found.map Lexeme.placed).reverse ++ read) :
      Scanned source before text read (.ok final)
  | error {found : List Lexeme} {reached rest : List Char} {cause : LexCause}
      (tiling : Tiling before text found reached rest) (fails : Fails rest cause) :
      Scanned source before text read (.error ⟨cause, .behind reached⟩)

section Steps

variable {source : String} {before text characters behind : List Char}
  {read : List PlacedToken} {result : Except LexError State}

private theorem Scanned.skipped
    (gaps : ∀ {reached rest : List Char} {found : List Lexeme},
      Tiling (before ++ characters) behind found reached rest →
        Tiling before text found reached rest)
    (scanned : Scanned source (before ++ characters) behind read result) :
    Scanned source before text read result := by
  cases scanned with
  | ok tiling knows tokens => exact .ok (gaps tiling) knows tokens
  | error tiling fails => exact .error (gaps tiling) fails

private theorem Scanned.lexeme {token : Token} (whole : text = characters ++ behind)
    (longest : Longest characters text) (spells : Spells characters (.ok token))
    (scanned : Scanned source (before ++ characters) behind ((token, .behind before) :: read)
      result) :
    Scanned source before text read result := by
  cases scanned with
  | ok tiling knows tokens =>
      refine .ok (.lexeme whole longest spells tiling) knows ?_
      simp [tokens, Lexeme.placed]
  | error tiling fails => exact .error (.lexeme whole longest spells tiling) fails

end Steps

private theorem scanned_end {source : String} {state : State} {before : List Char}
    (whole : source.toList = before ++ []) (knows : Knows source before state) :
    Scanned source before [] state.read (.ok state) := by
  rw [List.append_nil] at whole
  subst whole
  exact .ok .stop knows rfl

/-- One step of the walk takes in the piece that cutting finds. The bound on the number
of pieces is never met, since every piece holds a character of the text. -/
theorem scan_scanned {source : String} (pieces : Nat) (state : State) (before text : List Char)
    (whole : source.toList = before ++ text) (enough : text.length ≤ pieces)
    (knows : Knows source before state) :
    Scanned source before text state.read (scan source pieces state text) := by
  induction pieces generalizing state before text with
  | zero =>
      cases List.length_eq_zero_iff.mp (Nat.le_zero.mp enough)
      exact scanned_end whole knows
  | succ pieces ih =>
      cases text with
      | nil => exact scanned_end whole knows
      | cons first input =>
          have split := cut_append first input
          have breaks := cut_breaks first input
          have within : before ++ (cut first input).characters <+: source.toList := by
            refine ⟨(cut first input).rest, ?_⟩
            rw [whole, List.append_assoc, split]
          have wholeNext : source.toList =
              before ++ (cut first input).characters ++ (cut first input).rest := by
            rw [whole, List.append_assoc, split]
          have enoughNext (nonempty : (cut first input).characters ≠ []) :
              (cut first input).rest.length ≤ pieces :=
            Nat.le_of_lt_succ ((length_cut_rest_lt nonempty).trans_le enough)
          rw [scan]
          cases cut_outcome first input with
          | skipped content nonempty gaps =>
              obtain ⟨next, taken, knowsNext, read⟩ := knows.take_skipped breaks content
              have later := ih next _ _ wholeNext (enoughNext nonempty) knowsNext
              rw [read] at later
              simp only [taken]
              exact later.skipped gaps
          | lexeme reading content spells =>
              cases reading with
              | ok token =>
                  obtain ⟨next, taken, knowsNext, read⟩ := knows.take_token breaks within content
                  have later := ih next _ _ wholeNext (enoughNext spells.ne_nil) knowsNext
                  rw [read] at later
                  simp only [taken]
                  exact later.lexeme split.symm spells.longest_cut spells
              | error cause =>
                  simp only [knows.take_fault breaks within content]
                  exact .error .stop (.faulty spells.longest_cut spells)
          | unmatched cause content fails =>
              simp only [knows.take_fault breaks within content]
              exact .error .stop fails

theorem Tiling.whole {before text reached rest : List Char} {found : List Lexeme}
    (tiling : Tiling before text found reached rest) :
    before ++ text = reached ++ rest ∧
      ∀ lexeme ∈ found, lexeme.before ++ lexeme.characters <+: before ++ text := by
  induction tiling with
  | stop => simp
  | gap whole _ _ ih =>
      rw [whole, ← List.append_assoc]
      exact ih
  | lexeme whole _ _ _ ih =>
      rw [whole, ← List.append_assoc]
      refine ⟨ih.1, List.forall_mem_cons.mpr ⟨List.prefix_append .., ih.2⟩⟩

/-- No rule reads layout or the end of a text as a token. -/
theorem Spells.token_cases {characters : List Char} {token : Token}
    (spells : Spells characters (.ok token)) :
    token ≠ .comment ∧ token ≠ .newline ∧ token ≠ .blank ∧ token ≠ .endOfInput := by
  cases spells with
  | word =>
      unfold Token.ofWord
      split
      · simp
      · split <;> simp
  | real | integer | symbol | quoted => simp

theorem Tiling.token_cases {before text reached rest : List Char} {found : List Lexeme}
    (tiling : Tiling before text found reached rest) :
    ∀ lexeme ∈ found, lexeme.token ≠ .comment ∧ lexeme.token ≠ .newline ∧
      lexeme.token ≠ .blank ∧ lexeme.token ≠ .endOfInput := by
  induction tiling with
  | stop => simp
  | gap _ _ _ ih => exact ih
  | lexeme _ _ spells _ ih => exact List.forall_mem_cons.mpr ⟨spells.token_cases, ih⟩

end Lexer

open Lexer

private theorem tokenize_outcome (source : String) :
    (∃ found, Tiling [] source.toList found source.toList [] ∧
      tokenize source =
        .ok (found.map Lexeme.placed ++ [(.endOfInput, .behind source.toList)])) ∨
    ∃ found reached rest cause, Tiling [] source.toList found reached rest ∧ Fails rest cause ∧
      tokenize source = .error ⟨cause, .behind reached⟩ := by
  have scanned := scan_scanned source.toList.length .start [] source.toList rfl le_rfl
    (knows_start source)
  cases result : scan source source.toList.length .start source.toList with
  | ok final =>
      rw [result] at scanned
      cases scanned with
      | ok tiling knows tokens =>
          rw [show State.start.read = [] from rfl, List.append_nil] at tokens
          exact .inl ⟨_, tiling, by simp [tokenize, result, knows.locate_end, tokens]⟩
  | error failure =>
      rw [result] at scanned
      cases scanned with
      | error tiling fails => exact .inr ⟨_, _, _, _, tiling, fails, by simp [tokenize, result]⟩

theorem tokenize_eq_ok_iff {source : String} {tokens : List PlacedToken} :
    tokenize source = .ok tokens ↔
      ∃ found, Tiling [] source.toList found source.toList [] ∧
        tokens = found.map Lexeme.placed ++ [(.endOfInput, .behind source.toList)] := by
  rcases tokenize_outcome source with
    ⟨found, tiling, result⟩ | ⟨found, reached, rest, cause, tiling, fails, result⟩
  · rw [result]
    constructor
    · intro read
      cases read
      exact ⟨found, tiling, rfl⟩
    · intro cutting
      rcases cutting with ⟨others, tilingOther, rfl⟩
      rcases tiling.unique (.inl rfl) tilingOther (.inl rfl) with ⟨rfl, _⟩
      rfl
  · rw [result]
    constructor
    · intro read
      cases read
    · intro cutting
      rcases cutting with ⟨others, tilingOther, _⟩
      rcases tiling.unique (.inr ⟨cause, fails⟩) tilingOther (.inl rfl) with ⟨_, _, rfl⟩
      exact absurd fails Fails.not_nil

theorem tokenize_eq_error_iff {source : String} {failure : LexError} :
    tokenize source = .error failure ↔
      ∃ found reached rest, Tiling [] source.toList found reached rest ∧
        Fails rest failure.cause ∧ failure.position = .behind reached := by
  rcases tokenize_outcome source with
    ⟨found, tiling, result⟩ | ⟨found, reached, rest, cause, tiling, fails, result⟩
  · rw [result]
    constructor
    · intro failed
      cases failed
    · intro cutting
      rcases cutting with ⟨others, reached, rest, tilingOther, fails, _⟩
      rcases tiling.unique (.inl rfl) tilingOther (.inr ⟨_, fails⟩) with ⟨_, _, rfl⟩
      exact absurd fails Fails.not_nil
  · rw [result]
    constructor
    · intro failed
      cases failed
      exact ⟨found, reached, rest, tiling, fails, rfl⟩
    · intro cutting
      rcases cutting with ⟨others, place, ahead, tilingOther, failsOther, position⟩
      rcases tiling.unique (.inr ⟨cause, fails⟩) tilingOther (.inr ⟨_, failsOther⟩) with
        ⟨_, rfl, rfl⟩
      rw [fails.unique failsOther, ← position]

/-- Reading a text succeeds exactly when layout and longest lexemes fill it, and gives the
tokens of these lexemes and one end of input. It fails exactly when cutting meets a place
that is neither, with the cause found there. Layout leaves no token. -/
theorem tokenize_longest_match (source : String) :
    (∀ kinds, (∃ tokens, tokenize source = .ok tokens ∧ tokens.map Prod.fst = kinds) ↔
      ∃ found, Tiling [] source.toList found source.toList [] ∧
        kinds = found.map Lexeme.token ++ [.endOfInput]) ∧
    (∀ cause, (∃ position, tokenize source = .error ⟨cause, position⟩) ↔
      ∃ found reached rest, Tiling [] source.toList found reached rest ∧ Fails rest cause) ∧
    (∀ tokens, tokenize source = .ok tokens →
      ∃ kinds, tokens.map Prod.fst = kinds ++ [.endOfInput] ∧
        ∀ kind ∈ kinds, kind ≠ .comment ∧ kind ≠ .newline ∧ kind ≠ .blank ∧
          kind ≠ .endOfInput) := by
  have kindsOf (found : List Lexeme) :
      (found.map Lexeme.placed ++ [(Token.endOfInput, Position.behind source.toList)]).map
        Prod.fst = found.map Lexeme.token ++ [.endOfInput] := by
    simp [Lexeme.placed]
  refine ⟨?_, ?_, ?_⟩
  · intro kinds
    constructor
    · intro accepted
      rcases accepted with ⟨tokens, read, rfl⟩
      rcases tokenize_eq_ok_iff.mp read with ⟨found, tiling, rfl⟩
      exact ⟨found, tiling, kindsOf found⟩
    · intro cutting
      rcases cutting with ⟨found, tiling, rfl⟩
      exact ⟨_, tokenize_eq_ok_iff.mpr ⟨found, tiling, rfl⟩, kindsOf found⟩
  · intro cause
    constructor
    · intro rejected
      rcases rejected with ⟨position, failed⟩
      rcases tokenize_eq_error_iff.mp failed with ⟨found, reached, rest, tiling, fails, _⟩
      exact ⟨found, reached, rest, tiling, fails⟩
    · intro cutting
      rcases cutting with ⟨found, reached, rest, tiling, fails⟩
      exact ⟨_, tokenize_eq_error_iff.mpr ⟨found, reached, rest, tiling, fails, rfl⟩⟩
  · intro tokens read
    rcases tokenize_eq_ok_iff.mp read with ⟨found, tiling, rfl⟩
    refine ⟨_, kindsOf found, ?_⟩
    simpa using tiling.token_cases

/-- Every token stands at the position behind the text in front of its lexeme, the end of
input behind the whole text, and a failure behind the text in front of what fails. -/
theorem tokenize_positions (source : String) :
    (∀ tokens, tokenize source = .ok tokens →
      ∃ found, Tiling [] source.toList found source.toList [] ∧
        (∀ lexeme ∈ found, lexeme.before ++ lexeme.characters <+: source.toList) ∧
        tokens = found.map (fun lexeme => (lexeme.token, .behind lexeme.before)) ++
          [(.endOfInput, .behind source.toList)]) ∧
    (∀ failure, tokenize source = .error failure →
      ∃ found before rest, Tiling [] source.toList found before rest ∧
        source.toList = before ++ rest ∧ Fails rest failure.cause ∧
        failure.position = .behind before) := by
  constructor
  · intro tokens read
    rcases tokenize_eq_ok_iff.mp read with ⟨found, tiling, rfl⟩
    exact ⟨found, tiling, tiling.whole.2, rfl⟩
  · intro failure failed
    rcases tokenize_eq_error_iff.mp failed with ⟨found, before, rest, tiling, fails, position⟩
    exact ⟨found, before, rest, tiling, tiling.whole.1, fails, position⟩

end WindowScript
