import WindowScript.Program.Attributes

/-!
# Statements

A program is a sequence of statements: bindings, functions, returns, descriptions
of a graphical interface, and plain expressions.
-/

set_option autoImplicit false

namespace WindowScript

/-- A widget of an interface. Its kind is the word that introduced it. -/
structure Widget where
  kind : String
  attributes : Attributes
  position : Position

structure Window where
  attributes : Attributes
  children : List Widget
  position : Position

inductive Element where
  | window (window : Window)
  | widget (widget : Widget)

structure Gui where
  name : String
  elements : List Element
  position : Position

inductive Statement where
  | binding (name : String) (value : Expr) (position : Position)
  | function (name : String) (parameters : List String) (body : List Statement)
      (position : Position)
  | returning (value : Expr) (position : Position)
  | gui (gui : Gui)
  | expression (value : Expr) (position : Position)

/-- A program. -/
abbrev Program := List Statement

structure Function where
  name : String
  parameters : List String
  body : List Statement
  position : Position

def Statement.isReturn : Statement → Bool
  | .returning _ _ => true
  | _ => false

def Widget.same (left right : Widget) : Bool :=
  left.kind = right.kind && Expr.sameEntries left.attributes right.attributes &&
    left.position = right.position

def Widget.sameAll : List Widget → List Widget → Bool
  | [], [] => true
  | left :: leftRest, right :: rightRest => left.same right && Widget.sameAll leftRest rightRest
  | _, _ => false

def Window.same (left right : Window) : Bool :=
  Expr.sameEntries left.attributes right.attributes &&
    Widget.sameAll left.children right.children && left.position = right.position

def Element.same : Element → Element → Bool
  | .window left, .window right => left.same right
  | .widget left, .widget right => left.same right
  | _, _ => false

def Element.sameAll : List Element → List Element → Bool
  | [], [] => true
  | left :: leftRest, right :: rightRest => left.same right && Element.sameAll leftRest rightRest
  | _, _ => false

/-- Whether two descriptions of an interface are the same. -/
def Gui.same (left right : Gui) : Bool :=
  left.name = right.name && Element.sameAll left.elements right.elements &&
    left.position = right.position

mutual

def Statement.same : Statement → Statement → Bool
  | .binding name₁ value₁ at₁, .binding name₂ value₂ at₂ =>
      name₁ = name₂ && value₁.same value₂ && at₁ = at₂
  | .function name₁ parameters₁ body₁ at₁, .function name₂ parameters₂ body₂ at₂ =>
      name₁ = name₂ && parameters₁ = parameters₂ && Statement.sameAll body₁ body₂ && at₁ = at₂
  | .returning value₁ at₁, .returning value₂ at₂ => value₁.same value₂ && at₁ = at₂
  | .gui gui₁, .gui gui₂ => gui₁.same gui₂
  | .expression value₁ at₁, .expression value₂ at₂ => value₁.same value₂ && at₁ = at₂
  | _, _ => false

def Statement.sameAll : List Statement → List Statement → Bool
  | [], [] => true
  | left :: leftRest, right :: rightRest => left.same right && Statement.sameAll leftRest rightRest
  | _, _ => false

end

def Function.same (left right : Function) : Bool :=
  left.name = right.name && left.parameters = right.parameters &&
    Statement.sameAll left.body right.body && left.position = right.position

end WindowScript
