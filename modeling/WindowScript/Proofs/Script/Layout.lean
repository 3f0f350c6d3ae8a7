import Mathlib
import WindowScript.Proofs.Parser.Failures
import WindowScript.Proofs.Parser.Positions
import WindowScript.Proofs.Python.Positions
import WindowScript.Proofs.Token.Arrangement
import WindowScript.Script

/-!
# Layout does not matter

Where the same lexemes are written with different layout between them, they are the same tokens
at other positions. As neither the parser nor the writing of Python looks at positions, both
texts are read as one program, or fail at the same token, and are compiled to one text.
-/

set_option autoImplicit false

namespace WindowScript

namespace Lexer.Arrangement

variable {one other : Arrangement}

theorem tokenize_alike (same : one.lexemes = other.lexemes) :
    (∃ tokens, Spell one.lexemes tokens ∧
      tokenize one.source = .ok (one.placed (tokens ++ [.endOfInput])) ∧
      tokenize other.source = .ok (other.placed (tokens ++ [.endOfInput]))) ∨
    ∃ index lexeme cause, one.lexemes[index]? = some lexeme ∧ Spells lexeme (.error cause) ∧
      tokenize one.source = .error ⟨cause, one.place index⟩ ∧
      tokenize other.source = .error ⟨cause, other.place index⟩ := by
  rcases spell_cases one.parts with
    ⟨tokens, spell⟩ | ⟨done, faulty, rest, tokens, cause, split, spell, fault⟩
  · exact .inl ⟨tokens, spell, tokenize_eq_ok spell, tokenize_eq_ok (same ▸ spell)⟩
  · have found : one.lexemes[done.length]? = some faulty := by
      rw [lexemes, split, List.getElem?_append_right le_rfl, Nat.sub_self, List.getElem?_cons_zero]
    exact .inr ⟨done.length, faulty, cause, found, fault, tokenize_eq_error split spell fault,
      tokenize_eq_error (same.symm.trans split) spell fault⟩

/-!
## Positions that count the tokens
-/

/-- Tokens at positions that count them. -/
def counted (tokens : List Token) : List PlacedToken :=
  tokens.mapIdx fun index token => (token, ⟨index + 1, 0⟩)

/-- The position of a token in a text, from the one that counts it. -/
def locate (arranged : Arrangement) : Position → Position
  | ⟨0, _⟩ => .nowhere
  | ⟨index + 1, _⟩ => arranged.place index

private theorem placed_eq (arranged : Arrangement) (tokens : List Token) :
    arranged.placed tokens = relocateTokens arranged.locate (counted tokens) := by
  refine List.ext_getElem? fun index => ?_
  simp only [placed, counted, relocateTokens, List.getElem?_mapIdx, List.getElem?_map,
    Option.map_map]
  rfl

theorem parse_placed (arranged : Arrangement) (tokens : List Token) :
    parse (arranged.placed tokens) = relocateAnswer arranged.locate (parse (counted tokens)) := by
  rw [placed_eq]
  exact parse_relocate rfl (counted tokens)

/-- Reading tokens fails at one of them. -/
theorem exists_index_of_parse {tokens : List Token} {failure : ParseError}
    (failed : parse (counted (tokens ++ [.endOfInput])) = .error failure) :
    ∃ index ≤ tokens.length, failure.position = ⟨index + 1, 0⟩ := by
  have last : (Token.endOfInput, ⟨tokens.length + 1, 0⟩) ∈ counted (tokens ++ [.endOfInput]) := by
    simp [counted, List.mapIdx_append]
  have ended : Parser.Ended (counted (tokens ++ [.endOfInput])) :=
    fun endless => endless _ last rfl
  have blamed : ∃ token, (token, failure.position) ∈ counted (tokens ++ [.endOfInput]) := by
    cases parse_blames ended failed <;> exact ⟨_, ‹_›⟩
  obtain ⟨token, member⟩ := blamed
  obtain ⟨index, bound, found⟩ := List.mem_mapIdx.mp member
  rw [List.length_append, List.length_singleton] at bound
  exact ⟨index, Nat.le_of_lt_succ bound, (congrArg Prod.snd found).symm⟩

end Lexer.Arrangement

open Lexer (Arrangement)

/-- The same failure of two texts, at the same lexeme or behind the last one. -/
inductive SameFailure (one other : Arrangement) (index : Nat) :
    ScriptError → ScriptError → Prop where
  | lexical (cause : LexCause) : SameFailure one other index
      (.lexical ⟨cause, one.place index⟩) (.lexical ⟨cause, other.place index⟩)
  | grammatical (cause : ParseCause) : SameFailure one other index
      (.grammatical ⟨cause, one.place index⟩) (.grammatical ⟨cause, other.place index⟩)

private theorem Script.read_alike {one other : Arrangement} (same : one.lexemes = other.lexemes) :
    (∃ first second, Script.read one.source = .ok first ∧ Script.read other.source = .ok second ∧
      first.unplaced = second.unplaced) ∨
    ∃ index ≤ one.lexemes.length, ∃ first second, Script.read one.source = .error first ∧
      Script.read other.source = .error second ∧ SameFailure one other index first second := by
  unfold Script.read
  rcases Arrangement.tokenize_alike same with
    ⟨tokens, spell, readOne, readOther⟩ | ⟨index, lexeme, cause, found, _, failedOne, failedOther⟩
  · rw [readOne, readOther]
    simp only [Arrangement.parse_placed]
    cases answer : parse (Arrangement.counted (tokens ++ [.endOfInput])) with
    | ok program =>
        refine .inl ⟨_, _, rfl, rfl, ?_⟩
        rw [Program.unplaced_relocate, Program.unplaced_relocate]
    | error failure =>
        obtain ⟨index, bound, position⟩ := Arrangement.exists_index_of_parse answer
        obtain ⟨cause, place⟩ := failure
        cases position
        exact .inr ⟨index, spell.length_eq ▸ bound, _, _, rfl, rfl, .grammatical cause⟩
  · have inside : index < one.lexemes.length := (List.getElem?_eq_some_iff.mp found).1
    rw [failedOne, failedOther]
    exact .inr ⟨index, inside.le, _, _, rfl, rfl, .lexical cause⟩

/-- Two texts that differ in nothing but the layout between their lexemes have the same tokens,
or the same lexeme of both is at fault for the same reason. They are read as programs that are
equal up to positions, or fail in the same way at the same token. What one of them compiles to,
the other does. -/
theorem layout_never_matters (one other : Arrangement) (same : one.lexemes = other.lexemes) :
    ((∃ tokens, Lexer.Spell one.lexemes tokens ∧
        tokenize one.source = .ok (one.placed (tokens ++ [.endOfInput])) ∧
        tokenize other.source = .ok (other.placed (tokens ++ [.endOfInput]))) ∨
      ∃ index lexeme cause, one.lexemes[index]? = some lexeme ∧
        Lexer.Spells lexeme (.error cause) ∧
        tokenize one.source = .error ⟨cause, one.place index⟩ ∧
        tokenize other.source = .error ⟨cause, other.place index⟩) ∧
    ((∃ first second, Script.read one.source = .ok first ∧ Script.read other.source = .ok second ∧
        first.unplaced = second.unplaced) ∨
      ∃ index ≤ one.lexemes.length, ∃ first second, Script.read one.source = .error first ∧
        Script.read other.source = .error second ∧ SameFailure one other index first second) ∧
    ∀ python,
      Script.compile one.source = .ok python ↔ Script.compile other.source = .ok python := by
  refine ⟨Arrangement.tokenize_alike same, Script.read_alike same, fun python => ?_⟩
  unfold Script.compile
  rcases Script.read_alike same with
    ⟨first, second, readOne, readOther, alike⟩ | ⟨_, _, first, second, readOne, readOther, _⟩
  · have text : Python.generate first = Python.generate second := by
      calc Python.generate first
        _ = Python.generate first.unplaced := (Python.generate_relocate _ first).symm
        _ = Python.generate second.unplaced := by rw [alike]
        _ = Python.generate second := Python.generate_relocate _ second
    rw [readOne, readOther, Except.map, Except.map, text]
  · rw [readOne, readOther]
    exact ⟨nofun, nofun⟩

section

open Lexer

/-- The lexemes of `f("# a")` with the same layout behind each of them but the last. -/
def laidOutCall (spaces : List Char) (layout : Layout spaces) (some : spaces ≠ []) :
    Arrangement where
  leading := []
  parts :=
    [⟨['f'], spaces, ⟨_, .word (by decide) (by simp)⟩, layout⟩,
      ⟨Symbol.openRound.spelling.toList, spaces, ⟨_, .symbol .openRound⟩, layout⟩,
      ⟨'\x22' :: (['#', ' ', 'a'] ++ ['\x22']), spaces,
        ⟨_, .quoted (.inl rfl) (.plain (by decide) (by decide) (.plain (by decide) (by decide)
          (.plain (by decide) (by decide) .done)))⟩, layout⟩,
      ⟨Symbol.closeRound.spelling.toList, [], ⟨_, .symbol .closeRound⟩, .nil⟩]
  layout := .nil
  apart := by simp [Apart, some]

/-- The lexemes of a call with a blank between any two of them. -/
def spacedCall : Arrangement := laidOutCall [' '] (.blank (by decide) .nil) (by decide)

/-- The lexemes of a call with a tab, a comment and a form feed between any two of them. -/
def commentedCall : Arrangement :=
  laidOutCall ('\t' :: '#' :: (['\x22', ')'] ++ '\n' :: ['\x0c']))
    (.blank (by decide) (.comment (by decide) (.blank (by decide) .nil))) (by decide)

theorem layout_never_matters_commentedCall :
    spacedCall.source = "f ( \"# a\" )" ∧
      commentedCall.source = "f\t#\")\n\x0c(\t#\")\n\x0c\"# a\"\t#\")\n\x0c)" ∧
      Script.compile commentedCall.source = .ok "f(\"# a\")\n" := by
  have spaced : spacedCall.source = "f ( \"# a\" )" := by decide
  have compiled : Script.compile "f ( \"# a\" )" = .ok "f(\"# a\")\n" := by cbv
  obtain ⟨_, _, compiles⟩ := layout_never_matters spacedCall commentedCall rfl
  exact ⟨spaced, by decide, (compiles _).mp (spaced ▸ compiled)⟩

end

end WindowScript
