import WindowScript.Number.Real
import WindowScript.Source.Position

/-!
# Expressions

The expressions of the language. Each node carries a position: literals and names
that of their token, groups that of their opening delimiter, operators, pipes and
attribute reads that of their symbol, and calls that of the name they call.
-/

set_option autoImplicit false

namespace WindowScript

inductive Operator where
  | add | sub | mul | div | equal
deriving DecidableEq, Repr

def Operator.spelling : Operator → String
  | .add => "+"
  | .sub => "-"
  | .mul => "*"
  | .div => "/"
  | .equal => "=="

inductive Expr where
  | integer (value : Integer) (position : Position)
  | real (value : Float) (position : Position)
  | text (value : String) (position : Position)
  | boolean (value : Bool) (position : Position)
  | name (name : String) (position : Position)
  | binary (operator : Operator) (left right : Expr) (position : Position)
  | record (entries : List (String × Expr)) (position : Position)
  | access (object : Expr) (key : String) (position : Position)
  | list (items : List Expr) (position : Position)
  | call (callee : String) (arguments : List Expr) (position : Position)
  | pipe (left right : Expr) (position : Position)

namespace Expr

def position : Expr → Position
  | .integer _ position | .real _ position | .text _ position | .boolean _ position
  | .name _ position | .binary _ _ _ position | .record _ position | .access _ _ position
  | .list _ position | .call _ _ position | .pipe _ _ position => position

end Expr

mutual

/-- Whether two expressions are the same, positions included. -/
def Expr.same : Expr → Expr → Bool
  | .integer left at₁, .integer right at₂ => left = right && at₁ = at₂
  | .real left at₁, .real right at₂ => Real.alike left right && at₁ = at₂
  | .text left at₁, .text right at₂ => left = right && at₁ = at₂
  | .boolean left at₁, .boolean right at₂ => left = right && at₁ = at₂
  | .name left at₁, .name right at₂ => left = right && at₁ = at₂
  | .binary operator₁ left₁ right₁ at₁, .binary operator₂ left₂ right₂ at₂ =>
      operator₁ = operator₂ && left₁.same left₂ && right₁.same right₂ && at₁ = at₂
  | .record entries₁ at₁, .record entries₂ at₂ => Expr.sameEntries entries₁ entries₂ && at₁ = at₂
  | .access object₁ key₁ at₁, .access object₂ key₂ at₂ =>
      object₁.same object₂ && key₁ = key₂ && at₁ = at₂
  | .list items₁ at₁, .list items₂ at₂ => Expr.sameItems items₁ items₂ && at₁ = at₂
  | .call callee₁ arguments₁ at₁, .call callee₂ arguments₂ at₂ =>
      callee₁ = callee₂ && Expr.sameItems arguments₁ arguments₂ && at₁ = at₂
  | .pipe left₁ right₁ at₁, .pipe left₂ right₂ at₂ =>
      left₁.same left₂ && right₁.same right₂ && at₁ = at₂
  | _, _ => false

def Expr.sameItems : List Expr → List Expr → Bool
  | [], [] => true
  | item₁ :: rest₁, item₂ :: rest₂ => item₁.same item₂ && Expr.sameItems rest₁ rest₂
  | _, _ => false

/-- Whether two lists hold the same names with the same expressions. -/
def Expr.sameEntries : List (String × Expr) → List (String × Expr) → Bool
  | [], [] => true
  | (name₁, value₁) :: rest₁, (name₂, value₂) :: rest₂ =>
      name₁ = name₂ && value₁.same value₂ && Expr.sameEntries rest₁ rest₂
  | _, _ => false

end

end WindowScript
