import Mathlib.Data.List.Infix
import WindowScript.Token.Lexer

/-!
# What a text may be cut into

The rules of the language say which runs of characters are lexemes and what each of
them means, without a word on how to find them. A text is cut from the left: layout is
skipped, and everything else has to begin with a lexeme, of which the longest is taken.
-/

set_option autoImplicit false

namespace WindowScript.Lexer

/-! ## The rules -/

/-- The characters between two quotes of one kind and the text they stand for. A
backslash keeps a quote that follows it inside and is dropped. Every other character,
other backslashes among them, stands for itself. -/
inductive Inside (quote : Char) : List Char → List Char → Prop where
  | done : Inside quote [] []
  | escaped {body value : List Char} (more : Inside quote body value) :
      Inside quote ('\x5c' :: quote :: body) (quote :: value)
  | plain {character : Char} {body value : List Char} (other : character ≠ quote)
      (free : character = '\x5c' → (body ++ [quote]).head? ≠ some quote)
      (more : Inside quote body value) : Inside quote (character :: body) (character :: value)

/-- Whether a character opens a quoted text. -/
def IsQuote (character : Char) : Prop := character = '\x22' ∨ character = '\x27'

/-- The lexemes, each with the token it stands for or with what is wrong with it. -/
inductive Spells : List Char → Except LexCause Token → Prop where
  | real {whole fraction : List Char} (nonempty : whole ≠ [])
      (digits : ∀ digit ∈ whole, Numeral.isDigit digit = true)
      (decimals : ∀ digit ∈ fraction, Numeral.isDigit digit = true)
      (finite : Real.isFinite (Numeral.nearestPointed whole fraction 0) = true) :
      Spells (whole ++ '.' :: fraction)
        (.ok (.real (Numeral.nearestPointed whole fraction 0)))
  | hugeReal {whole fraction : List Char} (nonempty : whole ≠ [])
      (digits : ∀ digit ∈ whole, Numeral.isDigit digit = true)
      (decimals : ∀ digit ∈ fraction, Numeral.isDigit digit = true)
      (infinite : Real.isFinite (Numeral.nearestPointed whole fraction 0) = false) :
      Spells (whole ++ '.' :: fraction)
        (.error (.realTooLarge (String.ofList (whole ++ '.' :: fraction))))
  | integer {whole : List Char} {value : Integer} (nonempty : whole ≠ [])
      (digits : ∀ digit ∈ whole, Numeral.isDigit digit = true)
      (exact : value.toInt = Numeral.value whole) : Spells whole (.ok (.integer value))
  | hugeInteger {whole : List Char} (nonempty : whole ≠ [])
      (digits : ∀ digit ∈ whole, Numeral.isDigit digit = true)
      (large : Integer.greatest < Numeral.value whole) :
      Spells whole (.error (.integerTooLarge (String.ofList whole)))
  | word {first : Char} {rest : List Char} (begins : startsWord first = true)
      (goesOn : ∀ character ∈ rest, continuesWord character = true) :
      Spells (first :: rest) (.ok (.ofWord (String.ofList (first :: rest))))
  | symbol (mark : Symbol) : Spells mark.spelling.toList (.ok (.symbol mark))
  | quoted {quote : Char} {body value : List Char} (kind : IsQuote quote)
      (inside : Inside quote body value) :
      Spells (quote :: (body ++ [quote])) (.ok (.text (String.ofList value)))

/-- Whether some rule matches a run of characters. -/
def Matched (characters : List Char) : Prop := ∃ reading, Spells characters reading

/-- The longest run of characters in front of a text that some rule matches. -/
structure Longest (characters text : List Char) : Prop where
  leads : characters <+: text
  matched : Matched characters
  longest : ∀ other, other <+: text → Matched other → other.length ≤ characters.length

/-! ## Cutting a text -/

/-- The characters that are skipped one by one. -/
def blanks : List Char := [' ', '\t', '\r', '\x0c', '\n']

/-- One unit of layout with the text behind it: a blank, or a comment that runs up to the
end of its line. -/
inductive Gap : List Char → List Char → Prop where
  | blank {character : Char} {rest : List Char} (skipped : character ∈ blanks) :
      Gap [character] rest
  | comment {line rest : List Char} (within : '\n' ∉ line)
      (stops : rest = [] ∨ rest.head? = some '\n') : Gap ('#' :: line) rest

/-- A lexeme of a text: everything in front of it, its characters, and its token. -/
structure Lexeme where
  before : List Char
  characters : List Char
  token : Token

/-- Cutting a `text` that follows `before`, layout and longest lexemes in turn, finds
these lexemes and has reached a place with `rest` still ahead. -/
inductive Tiling : List Char → List Char → List Lexeme → List Char → List Char → Prop where
  | stop {before text : List Char} : Tiling before text [] before text
  | gap {before text characters behind reached rest : List Char} {found : List Lexeme}
      (whole : text = characters ++ behind) (skipped : Gap characters behind)
      (more : Tiling (before ++ characters) behind found reached rest) :
      Tiling before text found reached rest
  | lexeme {before text characters behind reached rest : List Char} {token : Token}
      {found : List Lexeme} (whole : text = characters ++ behind)
      (longest : Longest characters text) (spells : Spells characters (.ok token))
      (more : Tiling (before ++ characters) behind found reached rest) :
      Tiling before text (⟨before, characters, token⟩ :: found) reached rest

/-- Why a text that does not begin with layout does not begin with a token either. -/
inductive Fails : List Char → LexCause → Prop where
  | faulty {characters text : List Char} {cause : LexCause}
      (longest : Longest characters text) (spells : Spells characters (.error cause)) :
      Fails text cause
  | unterminated {quote : Char} {input : List Char} (kind : IsQuote quote)
      (unmatched : ∀ leading, leading <+: quote :: input → ¬ Matched leading) :
      Fails (quote :: input) .unterminatedText
  | unexpected {first : Char} {input : List Char} (unquoted : ¬ IsQuote first)
      (visible : first ∉ blanks) (uncommented : first ≠ '#')
      (unmatched : ∀ leading, leading <+: first :: input → ¬ Matched leading) :
      Fails (first :: input) (.unexpectedCharacter first)

end WindowScript.Lexer
