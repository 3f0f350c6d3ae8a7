/-!
# Names and texts in Python

A name of the language is a Python name once its hyphens are underscores. A text is
written between double quotes, with escapes for what could not stand there.
-/

set_option autoImplicit false

namespace WindowScript.Python

def name (name : String) : String :=
  String.ofList (name.toList.map fun character => if character = '-' then '_' else character)

/-- Whether a character is one of the 26 letters, in either case, or an underscore. -/
def startsIdentifier (character : Char) : Bool :=
  ('a' ≤ character && character ≤ 'z') || ('A' ≤ character && character ≤ 'Z') ||
    character = '_'

def isIdentifier (text : String) : Bool :=
  match text.toList with
  | [] => false
  | first :: rest =>
      startsIdentifier first &&
        rest.all fun character =>
          startsIdentifier character || ('0' ≤ character && character ≤ '9')

def isControl (character : Char) : Bool :=
  character.toNat < 0x20 || (0x7F ≤ character.toNat && character.toNat < 0xA0)

def fourDigits (code : Nat) : List Char :=
  [Nat.digitChar (code / 4096 % 16), Nat.digitChar (code / 256 % 16),
    Nat.digitChar (code / 16 % 16), Nat.digitChar (code % 16)]

/-- How one character is written between double quotes. -/
def escape (character : Char) : List Char :=
  if character = '\x5c' ∨ character = '\x22' then ['\x5c', character]
  else if character = '\n' then ['\x5c', 'n']
  else if character = '\r' then ['\x5c', 'r']
  else if character = '\t' then ['\x5c', 't']
  else if isControl character then '\x5c' :: 'u' :: fourDigits character.toNat
  else [character]

def literal (text : String) : String :=
  String.ofList ('\x22' :: (text.toList.flatMap escape ++ ['\x22']))

end WindowScript.Python
