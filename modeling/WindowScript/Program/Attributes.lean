import WindowScript.Program.Expr

/-!
# Attributes

Record literals, windows and widgets carry attributes: names with an expression
each, in the order in which the names first appear.
-/

set_option autoImplicit false

namespace WindowScript

/-- Names with an expression each, in order. -/
abbrev Attributes := List (String × Expr)

namespace Attributes

/-- Gives a name an expression. A name that is already there keeps its place. -/
def insert (name : String) (value : Expr) : Attributes → Attributes
  | [] => [(name, value)]
  | (key, held) :: rest =>
      if key = name then (key, value) :: rest else (key, held) :: insert name value rest

def find? (name : String) : Attributes → Option Expr
  | [] => none
  | (key, value) :: rest => if key = name then some value else find? name rest

/-- The attributes that a sequence of insertions leaves. -/
def ofEntries (entries : List (String × Expr)) : Attributes :=
  entries.foldl (fun attributes entry => insert entry.1 entry.2 attributes) []

end Attributes

end WindowScript
