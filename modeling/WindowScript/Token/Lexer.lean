import WindowScript.Number.Numeral
import WindowScript.Source.LineIndex
import WindowScript.Token.Basic

/-!
# From text to tokens

A source text is cut into pieces from the left. Each piece is the longest one that
any rule matches: a run of white space, a comment, a newline, a number, a word, a
quoted text or a symbol. Skipped pieces yield no token. The sequence of tokens ends
with the end of input, placed after the last character.
-/

set_option autoImplicit false

namespace WindowScript

inductive LexCause where
  | unexpectedCharacter (character : Char)
  | unterminatedText
  | integerTooLarge (numeral : String)
  | realTooLarge (numeral : String)
deriving DecidableEq, Repr

/-- A failure to read a token, and the position of the piece at fault. -/
structure LexError where
  cause : LexCause
  position : Position
deriving DecidableEq, Repr

namespace LexCause

def message : LexCause → String
  | .unexpectedCharacter character =>
      s!"Unexpected character {Text.quotedCharacter character}."
  | .unterminatedText => "Unterminated string literal."
  | .integerTooLarge numeral => s!"Integer literal {numeral} is too large."
  | .realTooLarge numeral => s!"Real literal {numeral} is too large."

end LexCause

def LexError.message (failure : LexError) : String :=
  s!"Error on {failure.position.text}: {failure.cause.message}"

namespace Lexer

def isSpace (character : Char) : Bool :=
  character = ' ' || character = '\t' || character = '\r' || character = '\x0c'

/-- Whether a character is one of the 26 letters, in either case. -/
def isLetter (character : Char) : Bool :=
  ('a' ≤ character && character ≤ 'z') || ('A' ≤ character && character ≤ 'Z')

def startsWord (character : Char) : Bool := isLetter character || character = '_'

def continuesWord (character : Char) : Bool :=
  startsWord character || Numeral.isDigit character || character = '-'

def pairSymbol? : Char → Char → Option Symbol
  | '=', '=' => some .equals
  | '-', '>' => some .arrow
  | _, _ => none

def singleSymbol? : Char → Option Symbol
  | '=' => some .assign
  | '+' => some .plus
  | '-' => some .minus
  | '*' => some .star
  | '/' => some .slash
  | '|' => some .pipe
  | '(' => some .openRound
  | ')' => some .closeRound
  | '\x7b' => some .openCurly
  | '\x7d' => some .closeCurly
  | '[' => some .openSquare
  | ']' => some .closeSquare
  | ';' => some .semicolon
  | ':' => some .colon
  | ',' => some .comma
  | '.' => some .dot
  | _ => none

/-- Splits the text behind an opening quote at the closing one, which is dropped. The
first part grows in reverse on top of `body`. A backslash hides a quote of the same
kind that follows it. -/
def splitQuoted (quote : Char) (body : List Char) : List Char → Option (List Char × List Char)
  | [] => none
  | [character] => if character = quote then some (body.reverse, []) else none
  | character :: next :: rest =>
      if character = quote then some (body.reverse, next :: rest)
      else if character = '\x5c' ∧ next = quote then
        splitQuoted quote (next :: character :: body) rest
      else splitQuoted quote (character :: body) (next :: rest)

/-- The text that the characters between two quotes stand for, on top of the reversed
`value`: a backslash before a quote of the same kind is dropped. -/
def unescape (quote : Char) (value : List Char) : List Char → List Char
  | [] => value.reverse
  | [character] => (character :: value).reverse
  | character :: next :: rest =>
      if character = '\x5c' ∧ next = quote then unescape quote (next :: value) rest
      else unescape quote (character :: value) (next :: rest)

inductive Content where
  | skipped
  | token (token : Token)
  | fault (cause : LexCause)

/-- A piece cut off the front of a text, what it amounts to, the text behind it, and
the byte offsets in the piece at which it reports that a line begins. -/
structure Piece where
  characters : List Char
  content : Content
  rest : List Char
  breaks : List Nat := []

/-- The offsets behind the newlines of a run of characters that begins at `offset`, on
top of those already `found`, which are kept in reverse. -/
def lineBreaks (found : List Nat) (offset : Nat) : List Char → List Nat
  | [] => found.reverse
  | character :: rest =>
      let next := offset + character.utf8Size
      lineBreaks (if character = '\n' then next :: found else found) next rest

def integerContent (digits : List Char) : Content :=
  match Integer.ofInt? (Numeral.value digits) with
  | some value => .token (.integer value)
  | none => .fault (.integerTooLarge (String.ofList digits))

def realContent (whole fraction : List Char) : Content :=
  let value := Numeral.nearestPointed whole fraction 0
  if Real.isFinite value then .token (.real value)
  else .fault (.realTooLarge (String.ofList (whole ++ '.' :: fraction)))

def cutNumber (input : List Char) : Piece :=
  let whole := input.takeWhile Numeral.isDigit
  match input.dropWhile Numeral.isDigit with
  | '.' :: rest =>
      let fraction := rest.takeWhile Numeral.isDigit
      { characters := whole ++ '.' :: fraction
        content := realContent whole fraction
        rest := rest.dropWhile Numeral.isDigit }
  | rest => { characters := whole, content := integerContent whole, rest }

def cutWord (input : List Char) : Piece :=
  let word := input.takeWhile continuesWord
  { characters := word
    content := .token (.ofWord (String.ofList word))
    rest := input.dropWhile continuesWord }

/-- Cuts off a quoted text, the opening quote of which is given apart. It reports the
lines that begin inside it, also when no quote closes it. -/
def cutQuoted (quote : Char) (input : List Char) : Piece :=
  match splitQuoted quote [] input with
  | some (body, rest) =>
      { characters := quote :: body ++ [quote]
        content := .token (.text (String.ofList (unescape quote [] body)))
        rest
        breaks := lineBreaks [] quote.utf8Size body }
  | none =>
      { characters := quote :: input
        content := .fault .unterminatedText
        rest := []
        breaks := lineBreaks [] quote.utf8Size input }

/-- Cuts off a symbol, or the character that begins no token. -/
def cutSymbol (first : Char) (input : List Char) : Piece :=
  let single : Piece :=
    match singleSymbol? first with
    | some symbol => { characters := [first], content := .token (.symbol symbol), rest := input }
    | none =>
        { characters := [first], content := .fault (.unexpectedCharacter first), rest := input }
  match input with
  | second :: rest =>
      match pairSymbol? first second with
      | some symbol => { characters := [first, second], content := .token (.symbol symbol), rest }
      | none => single
  | [] => single

/-- Cuts the longest piece off a text that begins with `first`. -/
def cut (first : Char) (input : List Char) : Piece :=
  if first = '\n' then
    { characters := [first], content := .skipped, rest := input, breaks := [first.utf8Size] }
  else if isSpace first then
    { characters := first :: input.takeWhile isSpace
      content := .skipped
      rest := input.dropWhile isSpace }
  else if first = '#' then
    { characters := first :: input.takeWhile (· ≠ '\n')
      content := .skipped
      rest := input.dropWhile (· ≠ '\n') }
  else if Numeral.isDigit first then cutNumber (first :: input)
  else if startsWord first then cutWord (first :: input)
  else if first = '\x22' ∨ first = '\x27' then cutQuoted first input
  else cutSymbol first input

/-- What is known in front of the next piece: its byte offset, the lines so far, and the
tokens so far, the last one first. -/
structure State where
  offset : Nat
  index : LineIndex
  read : List PlacedToken

namespace State

def start : State := ⟨0, .empty, []⟩

/-- The lines known once a piece has reported its own. -/
def indexAfter (state : State) (piece : Piece) : LineIndex :=
  piece.breaks.foldl (fun index start => index.record (state.offset + start)) state.index

/-- Takes in one piece. A piece is located after its own lines have been recorded. -/
def take (source : String) (state : State) (piece : Piece) : Except LexError State :=
  let index := state.indexAfter piece
  let offset := state.offset + byteSize piece.characters
  match piece.content with
  | .skipped => .ok ⟨offset, index, state.read⟩
  | .token token =>
      let (position, located) := index.locate source state.offset
      .ok ⟨offset, located, (token, position) :: state.read⟩
  | .fault cause => .error ⟨cause, (index.locate source state.offset).1⟩

end State

/-- Takes in the pieces of a text. Every piece holds a character, so the length of the
text bounds the number of pieces. -/
def scan (source : String) : Nat → State → List Char → Except LexError State
  | _, state, [] => .ok state
  | 0, state, _ :: _ => .ok state
  | pieces + 1, state, first :: input =>
      let piece := cut first input
      match state.take source piece with
      | .ok next => scan source pieces next piece.rest
      | .error failure => .error failure

end Lexer

def tokenize (source : String) : Except LexError (List PlacedToken) :=
  let characters := source.toList
  match Lexer.scan source characters.length .start characters with
  | .ok state =>
      let (position, _) := state.index.locate source source.utf8ByteSize
      .ok ((Token.endOfInput, position) :: state.read).reverse
  | .error failure => .error failure

end WindowScript
