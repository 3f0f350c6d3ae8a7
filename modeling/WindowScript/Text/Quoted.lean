import WindowScript.Text.Unprintable
import WindowScript.Text.Extending

/-!
# Quoted text in messages

Messages show characters and texts between quotes. Inside them a character that
could not be told from its surroundings is written as an escape: the quote
itself, the backslash, and whatever has no shape of its own.
-/

set_option autoImplicit false

namespace WindowScript.Text

/-- The escape that names a character by its code point in lower case hexadecimal. -/
def codePointEscape (character : Char) : List Char :=
  '\x5c' :: 'u' :: '\x7b' :: (Nat.toDigits 16 character.toNat ++ ['\x7d'])

/-- Whether a character is an ordinary one of the first 128. -/
def isPlain (character : Char) : Bool := 0x20 ≤ character.toNat && character.toNat < 0x7F

/-- How one character is shown between two copies of `quote`. -/
def showCharacter (quote character : Char) : List Char :=
  if character = '\x00' then ['\x5c', '0']
  else if character = '\t' then ['\x5c', 't']
  else if character = '\r' then ['\x5c', 'r']
  else if character = '\n' then ['\x5c', 'n']
  else if character = '\x5c' ∨ character = quote then ['\x5c', character]
  else if isPlain character then [character]
  else if isExtending character || isUnprintable character then codePointEscape character
  else [character]

def quoted (quote : Char) (characters : List Char) : String :=
  String.ofList (quote :: (characters.flatMap (showCharacter quote) ++ [quote]))

def quotedCharacter (character : Char) : String := quoted '\x27' [character]

def quotedText (text : String) : String := quoted '\x22' text.toList

end WindowScript.Text
