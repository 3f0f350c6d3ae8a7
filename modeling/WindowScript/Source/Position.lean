/-!
# Source positions

A position names one character of a source text by its line and column. Only a
newline ends a line, and columns count characters, whatever their encoded size.
-/

set_option autoImplicit false

namespace WindowScript

/-- A line and a column, both counted from one. -/
structure Position where
  line : Nat
  column : Nat
deriving DecidableEq, Repr, Inhabited

namespace Position

/-- The position of no character. -/
def nowhere : Position := ⟨0, 0⟩

def start : Position := ⟨1, 1⟩

def text (position : Position) : String :=
  s!"line {position.line}, column {position.column}"

end Position

end WindowScript
