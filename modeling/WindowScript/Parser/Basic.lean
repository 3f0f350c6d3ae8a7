import WindowScript.Token.Basic

/-!
# Reading from a token sequence

A parser takes the tokens that are left and either returns a result with the
tokens behind it or fails. This module holds the failures and the parsers of
single tokens and of delimited sequences.
-/

set_option autoImplicit false

namespace WindowScript

inductive Expectation where
  | symbol (mark : Symbol)
  | keyword (word : Keyword)
  | commaOr (closing : Symbol)
  | expression
  | identifier
  | attributeName
  | attributeNameOrEnd
  | element
  | widget
deriving DecidableEq, Repr

def Expectation.describe : Expectation → String
  | .symbol mark => (Token.symbol mark).describe
  | .keyword word => (Token.keyword word).describe
  | .commaOr closing => s!"`,` or {(Token.symbol closing).describe}"
  | .expression => "an expression"
  | .identifier => "an identifier"
  | .attributeName => "an attribute name"
  | .attributeNameOrEnd => "an attribute name or `\x7d`"
  | .element => "`window`, a widget or `\x7d`"
  | .widget => "a widget or `\x7d`"

inductive ParseCause where
  | unexpectedToken (expected : Expectation) (found : Token)
  | invalidCallTarget
  | unexpectedEnd
  | nestingTooDeep

def ParseCause.message : ParseCause → String
  | .unexpectedToken expected found => s!"Expected {expected.describe}, found {found.describe}."
  | .invalidCallTarget => "Only a plain function name can be called."
  | .unexpectedEnd => "Unexpected end of input."
  | .nestingTooDeep => "Delimiters are nested too deeply."

/-- A failure to read a program, and the position of the token at fault. -/
structure ParseError where
  cause : ParseCause
  position : Position

def ParseError.message (failure : ParseError) : String :=
  s!"Error on {failure.position.text}: {failure.cause.message}"

/-- A reader of results of one type from the tokens that are left. -/
abbrev Parser (α : Type) := List PlacedToken → Except ParseError (α × List PlacedToken)

namespace Parser

/-- The position of the next token, or that of no token. -/
def nextPosition : List PlacedToken → Position
  | (_, position) :: _ => position
  | [] => .nowhere

def startsWith (mark : Symbol) : List PlacedToken → Bool
  | (.symbol found, _) :: _ => found = mark
  | _ => false

def refuse {α : Type} (expected : Expectation) : Parser α
  | (found, position) :: _ => .error ⟨.unexpectedToken expected found, position⟩
  | [] => .error ⟨.unexpectedEnd, .nowhere⟩

def symbol (mark : Symbol) : Parser Position := fun tokens =>
  match tokens with
  | (.symbol found, position) :: rest =>
      if found = mark then .ok (position, rest) else refuse (.symbol mark) tokens
  | _ => refuse (.symbol mark) tokens

def identifier : Parser String
  | (.identifier name, _) :: rest => .ok (name, rest)
  | tokens => refuse .identifier tokens

def word (expected : Expectation) : Parser String := fun tokens =>
  match tokens with
  | (found, _) :: rest =>
      match found.word? with
      | some name => .ok (name, rest)
      | none => refuse expected tokens
  | [] => refuse expected tokens

def skipSemicolon : List PlacedToken → List PlacedToken
  | (.symbol .semicolon, _) :: rest => rest
  | tokens => tokens

/-- Reads items with commas between them up to a closing symbol, behind those in
`items`, which are kept in reverse. A comma may stand before the closing symbol.
Each round reads a token, so the number of tokens bounds the number of rounds. -/
def separated {α : Type} (item : Parser α) (closing : Symbol) :
    Nat → List α → Parser (List α)
  | 0, _, tokens => refuse (.commaOr closing) tokens
  | rounds + 1, items, tokens =>
      if startsWith closing tokens then .ok (items.reverse, tokens.tail)
      else do
        let (found, rest) ← item tokens
        if startsWith .comma rest then separated item closing rounds (found :: items) rest.tail
        else if startsWith closing rest then .ok ((found :: items).reverse, rest.tail)
        else refuse (.commaOr closing) rest

/-- Reads items up to a closing symbol, behind those in `items`, which are kept in
reverse. -/
def delimited {α : Type} (item : Parser α) (closing : Symbol) : Nat → List α → Parser (List α)
  | 0, _, tokens => refuse (.symbol closing) tokens
  | rounds + 1, items, tokens =>
      if startsWith closing tokens then .ok (items.reverse, tokens.tail)
      else do
        let (found, rest) ← item tokens
        delimited item closing rounds (found :: items) rest

end Parser

end WindowScript
