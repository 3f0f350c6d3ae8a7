import WindowScript.Number.Shortest
import WindowScript.Value.Basic

/-!
# The text of a value

A text shows as itself, and between quotes inside a list or a record, where quotes
and backslashes in it are escaped.
-/

set_option autoImplicit false

namespace WindowScript.Value

/-- Puts a backslash before each occurrence of a character. -/
def escapeEach (mark : Char) (characters : List Char) : List Char :=
  characters.flatMap fun character => if character = mark then ['\x5c', mark] else [character]

/-- A text between quotes: first the backslashes in it are escaped, then the quotes. -/
def showText (text : String) : String :=
  String.ofList ('\x27' :: (escapeEach '\x27' (escapeEach '\x5c' text.toList) ++ ['\x27']))

mutual

/-- The text of a value, which stands `inside` a list or record or on its own. -/
def display (inside : Bool) : Value → String
  | .absent => "null"
  | .integer value => Integer.text value
  | .real value => Real.text value
  | .boolean value => if value then "true" else "false"
  | .text value => if inside then showText value else value
  | .list items => displayItems "[" items ++ "]"
  | .record entries =>
      if entries.isEmpty then "\x7b\x7d" else displayEntries "\x7b " entries ++ "\x7d"
  | .function definition _ => s!"<function {definition.name}>"
  | .builtin which => s!"<builtin {which.name}>"
  | .gui described => s!"<gui {described.name}>"

/-- The items of a list behind what is already `shown`, with commas between them. -/
def displayItems (shown : String) : List Value → String
  | [] => shown
  | [item] => shown ++ display true item
  | item :: next :: rest => displayItems (shown ++ display true item ++ ", ") (next :: rest)

/-- The entries of a record behind what is already `shown`. -/
def displayEntries (shown : String) : List (String × Value) → String
  | [] => shown
  | (name, value) :: rest =>
      displayEntries (shown ++ name ++ " = " ++ display true value ++ "; ") rest

end

end WindowScript.Value
