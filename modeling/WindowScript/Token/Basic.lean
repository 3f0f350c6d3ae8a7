import WindowScript.Number.Shortest
import WindowScript.Source.Position
import WindowScript.Text.Quoted

/-!
# Tokens

The words, literals and symbols of the language, with the spelling that messages
use for each of them.
-/

set_option autoImplicit false

namespace WindowScript

/-- The reserved words. Some of them begin no construct and are kept for later. -/
inductive Keyword where
  | func | letWord | ifWord | thenWord | elseWord | gui | window | importWord | returnWord
  | trueWord | falseWord
deriving DecidableEq, Repr

namespace Keyword

def all : List Keyword :=
  [.func, .letWord, .ifWord, .thenWord, .elseWord, .gui, .window, .importWord, .returnWord,
    .trueWord, .falseWord]

def spelling : Keyword → String
  | .func => "func"
  | .letWord => "let"
  | .ifWord => "if"
  | .thenWord => "then"
  | .elseWord => "else"
  | .gui => "gui"
  | .window => "window"
  | .importWord => "import"
  | .returnWord => "return"
  | .trueWord => "true"
  | .falseWord => "false"

def ofSpelling? (word : String) : Option Keyword := all.find? (·.spelling = word)

end Keyword

/-- A word that introduces a widget, with the toolkit class that builds it. -/
structure WidgetWord where
  word : String
  toolkitClass : String
deriving DecidableEq, Repr

namespace WidgetWord

def all : List WidgetWord :=
  [⟨"button", "QPushButton"⟩, ⟨"label", "QLabel"⟩, ⟨"textbox", "QLineEdit"⟩]

def find? (word : String) : Option WidgetWord := all.find? (·.word = word)

def fallbackClass : String := "QWidget"

def classOf (kind : String) : String := ((find? kind).map (·.toolkitClass)).getD fallbackClass

end WidgetWord

/-- The operators and punctuation marks. -/
inductive Symbol where
  | equals | assign | arrow | plus | minus | star | slash | pipe
  | openRound | closeRound | openCurly | closeCurly | openSquare | closeSquare
  | semicolon | colon | comma | dot
deriving DecidableEq, Repr

namespace Symbol

def all : List Symbol :=
  [.equals, .assign, .arrow, .plus, .minus, .star, .slash, .pipe,
    .openRound, .closeRound, .openCurly, .closeCurly, .openSquare, .closeSquare,
    .semicolon, .colon, .comma, .dot]

def spelling : Symbol → String
  | .equals => "=="
  | .assign => "="
  | .arrow => "->"
  | .plus => "+"
  | .minus => "-"
  | .star => "*"
  | .slash => "/"
  | .pipe => "|"
  | .openRound => "("
  | .closeRound => ")"
  | .openCurly => "\x7b"
  | .closeCurly => "\x7d"
  | .openSquare => "["
  | .closeSquare => "]"
  | .semicolon => ";"
  | .colon => ":"
  | .comma => ","
  | .dot => "."

def opens : Symbol → Bool
  | .openRound | .openCurly | .openSquare => true
  | _ => false

def closes : Symbol → Bool
  | .closeRound | .closeCurly | .closeSquare => true
  | _ => false

end Symbol

/-- A token. Comments and white space are tokens of a text too, though no
program holds them. -/
inductive Token where
  | integer (value : Integer)
  | real (value : Float)
  | text (value : String)
  | identifier (name : String)
  | keyword (word : Keyword)
  | widget (kind : String)
  | symbol (mark : Symbol)
  | comment
  | newline
  | blank
  | endOfInput

namespace Token

/-- The token that a word stands for: a reserved word, a widget word or an identifier. -/
def ofWord (word : String) : Token :=
  match Keyword.ofSpelling? word with
  | some reserved => .keyword reserved
  | none =>
      match WidgetWord.find? word with
      | some entry => .widget entry.word
      | none => .identifier word

/-- The word that a token spells, if it spells one. Any word can name an attribute. -/
def word? : Token → Option String
  | .identifier name => some name
  | .keyword word => some word.spelling
  | .widget kind => some kind
  | _ => none

def describe : Token → String
  | .integer value => s!"integer `{value.text}`"
  | .real value => s!"number `{Real.text value}`"
  | .text value => s!"string {Text.quotedText value}"
  | .identifier name => s!"identifier `{name}`"
  | .keyword word => s!"keyword `{word.spelling}`"
  | .widget kind => s!"widget `{kind}`"
  | .symbol mark => s!"`{mark.spelling}`"
  | .comment => "`comment`"
  | .newline => "`newline`"
  | .blank => "`whitespace`"
  | .endOfInput => "end of input"

end Token

abbrev PlacedToken := Token × Position

end WindowScript
