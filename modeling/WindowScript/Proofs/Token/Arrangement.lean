import Mathlib.Data.List.Forall2
import WindowScript.Proofs.Token.Tokenize

/-!
# Lexemes and the layout between them

Lexemes can be written one behind the other with any layout between them, as long as there is
some. Wherever they are written so, a text is cut into just these lexemes.
-/

set_option autoImplicit false

namespace WindowScript.Lexer

/-! ## Layout -/

/-- Blanks and comments in any order, each comment with the newline that ends it. -/
inductive Layout : List Char → Prop where
  | nil : Layout []
  | blank {character : Char} {rest : List Char} (skipped : character ∈ blanks)
      (more : Layout rest) : Layout (character :: rest)
  | comment {line rest : List Char} (within : '\n' ∉ line) (more : Layout rest) :
      Layout ('#' :: (line ++ '\n' :: rest))

private theorem Layout.isLayout {first : Char} {rest : List Char}
    (layout : Layout (first :: rest)) : IsLayout first := by
  cases layout with
  | blank skipped => exact .inl skipped
  | comment => exact .inr rfl

private theorem Tiling.layout {spaces before behind reached rest : List Char} {found : List Lexeme}
    (layout : Layout spaces) (more : Tiling (before ++ spaces) behind found reached rest) :
    Tiling before (spaces ++ behind) found reached rest := by
  induction layout generalizing before with
  | nil => simpa using more
  | @blank character later skipped _ ih =>
      have whole : character :: later ++ behind = [character] ++ (later ++ behind) := rfl
      exact .gap whole (.blank skipped) (ih (by simpa using more))
  | @comment line later within _ ih =>
      have whole : '#' :: (line ++ '\n' :: later) ++ behind =
          ('#' :: line) ++ ('\n' :: (later ++ behind)) := by simp
      have newline : '\n' :: (later ++ behind) = ['\n'] ++ (later ++ behind) := rfl
      exact .gap whole (.comment within (.inr rfl))
        (.gap newline (.blank (by decide)) (ih (by simpa using more)))

/-! ## A lexeme in front of layout -/

private theorem not_isLayout_of (property : Char → Bool)
    (free : ('#' :: blanks).all (fun character => !property character) = true) {character : Char}
    (holds : property character = true) : ¬ IsLayout character := by
  intro layout
  have member : character ∈ '#' :: blanks := List.mem_cons.mpr layout.symm
  have absent := List.all_eq_true.mp free character member
  rw [holds] at absent
  cases absent

/-- Only between quotes has a lexeme a character of layout. -/
theorem Spells.not_isLayout {characters : List Char} {reading : Except LexCause Token}
    (spells : Spells characters reading) (unquoted : ∀ first ∈ characters.head?, ¬ IsQuote first) :
    ∀ character ∈ characters, ¬ IsLayout character := by
  have digit {character : Char} (digits : Numeral.isDigit character = true) :
      ¬ IsLayout character := not_isLayout_of Numeral.isDigit (by decide) digits
  have pointed {whole fraction : List Char}
      (digits : ∀ digit ∈ whole, Numeral.isDigit digit = true)
      (decimals : ∀ digit ∈ fraction, Numeral.isDigit digit = true) :
      ∀ character ∈ whole ++ '.' :: fraction, ¬ IsLayout character := by
    have point : ¬ IsLayout '.' := not_isLayout_of (· = '.') (by decide) (by decide)
    rw [List.forall_mem_append, List.forall_mem_cons]
    exact ⟨fun one member => digit (digits one member), point,
      fun one member => digit (decimals one member)⟩
  cases spells with
  | real _ digits decimals => exact pointed digits decimals
  | hugeReal _ digits decimals => exact pointed digits decimals
  | integer _ digits => exact fun one member => digit (digits one member)
  | hugeInteger _ digits => exact fun one member => digit (digits one member)
  | word begins goesOn =>
      rw [List.forall_mem_cons]
      exact ⟨not_isLayout_of startsWord (by decide) begins,
        fun one member => not_isLayout_of continuesWord (by decide) (goesOn one member)⟩
  | symbol mark =>
      intro one member
      refine not_isLayout_of (fun character => mark.spelling.toList.contains character) ?_
        (List.contains_iff_mem.mpr member)
      cases mark <;> decide
  | quoted kind => exact absurd kind (unquoted _ rfl)

/-- Two quoted texts that lead one text end at the same quote. -/
theorem Spells.length_le_of_isQuote {quote : Char} {tail other behind : List Char}
    {reading otherReading : Except LexCause Token} (kind : IsQuote quote)
    (spells : Spells (quote :: tail) reading) (otherSpells : Spells (quote :: other) otherReading)
    (leads : other <+: tail ++ behind) : other.length ≤ tail.length := by
  obtain ⟨body, value, rfl, inside⟩ := spells.inside_of_isQuote kind rfl
  obtain ⟨otherBody, otherValue, rfl, otherInside⟩ := otherSpells.inside_of_isQuote kind rfl
  obtain ⟨remaining, whole⟩ := leads
  have split := splitQuoted_of_inside kind inside [] behind
  have otherSplit := splitQuoted_of_inside kind otherInside [] remaining
  rw [List.append_assoc, List.append_assoc, List.singleton_append, List.singleton_append] at whole
  rw [whole, split] at otherSplit
  obtain ⟨rfl, _⟩ := Prod.mk.inj (Option.some.inj otherSplit)
  exact le_rfl

/-- A lexeme ends where layout begins. -/
theorem Spells.longest_of_layout {characters behind : List Char} {reading : Except LexCause Token}
    (spells : Spells characters reading) (ends : ∀ next ∈ behind.head?, IsLayout next) :
    Longest characters (characters ++ behind) where
  leads := List.prefix_append ..
  matched := ⟨reading, spells⟩
  longest := by
    rintro other leads ⟨_, otherSpells⟩
    by_cases unquoted : ∀ first ∈ other.head?, ¬ IsQuote first
    · by_contra longer
      have shorter := Nat.le_of_not_le longer
      obtain ⟨more, rfl⟩ := List.prefix_of_prefix_length_le (List.prefix_append characters behind)
        leads shorter
      have further : more ≠ [] := by
        rintro rfl
        simp at longer
      obtain ⟨next, later, rfl⟩ := List.exists_cons_of_ne_nil further
      obtain ⟨rest, rfl⟩ := (List.prefix_append_right_inj characters).mp leads
      exact otherSpells.not_isLayout unquoted next (by simp) (ends next rfl)
    · push Not at unquoted
      obtain ⟨quote, first, kind⟩ := unquoted
      obtain ⟨otherTail, rfl⟩ := List.head?_eq_some_iff.mp first
      obtain ⟨begin, tail, rfl⟩ := List.exists_cons_of_ne_nil spells.ne_nil
      obtain ⟨rfl, tailLeads⟩ := List.cons_prefix_cons.mp leads
      exact Nat.succ_le_succ (spells.length_le_of_isQuote kind otherSpells tailLeads)

/-! ## Lexemes in a row -/

/-- A lexeme with the layout behind it. -/
structure Part where
  lexeme : List Char
  spaces : List Char
  matched : Matched lexeme
  layout : Layout spaces

/-- The text of lexemes in a row, with the layout between them. -/
def written (parts : List Part) : List Char := parts.flatMap fun part => part.lexeme ++ part.spaces

@[simp] theorem written_nil : written [] = [] := rfl

@[simp] theorem written_cons (part : Part) (parts : List Part) :
    written (part :: parts) = part.lexeme ++ (part.spaces ++ written parts) := by
  simp [written]

/-- Lexemes of which only the last may have no layout behind it. -/
def Apart (parts : List Part) : Prop := parts.Pairwise fun part _ => part.spaces ≠ []

/-- Lexemes that all stand for tokens. -/
abbrev Spell : List (List Char) → List Token → Prop :=
  List.Forall₂ fun lexeme token => Spells lexeme (.ok token)

/-- Lexemes all stand for tokens, or there is a first among them that does not. -/
theorem spell_cases (parts : List Part) :
    (∃ tokens, Spell (parts.map Part.lexeme) tokens) ∨
      ∃ done faulty rest tokens cause, parts.map Part.lexeme = done ++ faulty :: rest ∧
        Spell done tokens ∧ Spells faulty (.error cause) := by
  induction parts with
  | nil => exact .inl ⟨[], .nil⟩
  | cons part rest ih =>
      obtain ⟨reading, spells⟩ := part.matched
      cases reading with
      | error cause =>
          exact .inr ⟨[], part.lexeme, rest.map Part.lexeme, [], cause, rfl, .nil, spells⟩
      | ok token =>
          rcases ih with ⟨tokens, spell⟩ | ⟨done, faulty, rest, tokens, cause, split, spell, fault⟩
          · exact .inl ⟨token :: tokens, .cons spells spell⟩
          · refine .inr ⟨part.lexeme :: done, faulty, rest, token :: tokens, cause, ?_,
              .cons spells spell, fault⟩
            rw [List.map_cons, split, List.cons_append]

/-- The next character behind a lexeme is one of layout. -/
theorem head?_isLayout {part : Part} {rest : List Part} (apart : Apart (part :: rest)) :
    ∀ next ∈ (part.spaces ++ written rest).head?, IsLayout next := by
  have layout := part.layout
  cases spaces : part.spaces with
  | cons first others =>
      rw [spaces] at layout
      rintro _ ⟨⟩
      exact layout.isLayout
  | nil =>
      cases rest with
      | nil => nofun
      | cons later rest => exact absurd spaces (List.rel_of_pairwise_cons apart (.head _))

/-- Cutting goes through lexemes in a row, whatever the layout between them is. -/
theorem exists_tiling {done rest : List Part} {tokens : List Token}
    (spell : Spell (done.map Part.lexeme) tokens) (apart : Apart (done ++ rest))
    (before : List Char) :
    ∃ found,
      Tiling before (written (done ++ rest)) found (before ++ written done) (written rest) ∧
      found.map Lexeme.placed = tokens.mapIdx fun index token =>
        (token, .behind (before ++ written (done.take index))) := by
  induction done generalizing before tokens with
  | nil =>
      cases spell
      refine ⟨[], ?_, rfl⟩
      rw [List.nil_append, written_nil, List.append_nil]
      exact .stop
  | cons part done ih =>
      cases spell with
      | @cons _ token _ tokens spells later =>
          obtain ⟨found, tiling, places⟩ := ih later (List.Pairwise.of_cons apart)
            (before ++ part.lexeme ++ part.spaces)
          refine ⟨⟨before, part.lexeme, token⟩ :: found, ?_, ?_⟩
          · rw [List.cons_append, written_cons, written_cons, ← List.append_assoc before,
              ← List.append_assoc (before ++ _)]
            exact .lexeme rfl (spells.longest_of_layout (head?_isLayout apart)) spells
              (.layout part.layout tiling)
          · rw [List.map_cons, places, List.mapIdx_cons]
            simp [Lexeme.placed]

/-- A way to write lexemes in a row, with layout in front of them and behind each of them. Only
behind the last one can it be empty. -/
structure Arrangement where
  leading : List Char
  parts : List Part
  layout : Layout leading
  apart : Apart parts

namespace Arrangement

def lexemes (arranged : Arrangement) : List (List Char) := arranged.parts.map Part.lexeme

def source (arranged : Arrangement) : String :=
  String.ofList (arranged.leading ++ written arranged.parts)

/-- The position of a lexeme, or that of the end of input behind all of them. -/
def place (arranged : Arrangement) (index : Nat) : Position :=
  .behind (arranged.leading ++ written (arranged.parts.take index))

/-- Tokens at the positions of the lexemes. -/
def placed (arranged : Arrangement) (tokens : List Token) : List PlacedToken :=
  tokens.mapIdx fun index token => (token, arranged.place index)

variable {arranged : Arrangement}

theorem tokenize_eq_ok {tokens : List Token} (spell : Spell arranged.lexemes tokens) :
    tokenize arranged.source = .ok (arranged.placed (tokens ++ [.endOfInput])) := by
  have whole : Apart (arranged.parts ++ []) := (List.append_nil _).symm ▸ arranged.apart
  have count : tokens.length = arranged.parts.length := by
    rw [← spell.length_eq, lexemes, List.length_map]
  obtain ⟨found, tiling, places⟩ := exists_tiling spell whole arranged.leading
  rw [List.append_nil] at tiling
  refine tokenize_eq_ok_iff.mpr ⟨found, ?_, ?_⟩
  · rw [source, String.toList_ofList]
    exact .layout arranged.layout tiling
  · rw [places, placed, List.mapIdx_append, source, String.toList_ofList]
    simp [place, count]

theorem tokenize_eq_error {done rest : List (List Char)} {faulty : List Char}
    {tokens : List Token} {cause : LexCause} (split : arranged.lexemes = done ++ faulty :: rest)
    (spell : Spell done tokens) (fault : Spells faulty (.error cause)) :
    tokenize arranged.source = .error ⟨cause, arranged.place done.length⟩ := by
  obtain ⟨front, back, whole, rfl, behind⟩ := List.map_eq_append_iff.mp split
  obtain ⟨part, later, rfl, rfl, rfl⟩ := List.map_eq_cons_iff.mp behind
  have apart := arranged.apart
  rw [whole] at apart
  obtain ⟨found, tiling, _⟩ := exists_tiling spell apart arranged.leading
  have faultyApart : Apart (part :: later) := (List.pairwise_append.mp apart).2.1
  refine tokenize_eq_error_iff.mpr ⟨found, arranged.leading ++ written front,
    written (part :: later), ?_, ?_, ?_⟩
  · rw [source, String.toList_ofList, whole]
    exact .layout arranged.layout tiling
  · rw [written_cons]
    exact .faulty (fault.longest_of_layout (head?_isLayout faultyApart)) fault
  · simp [place, whole]

end Arrangement

end WindowScript.Lexer
