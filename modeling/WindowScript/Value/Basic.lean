import WindowScript.Program.Statement
import WindowScript.Value.Bindings

/-!
# Values

What expressions evaluate to. A function value holds its definition and a copy of
the scope in which it was defined; an interface is a value as it is described.
-/

set_option autoImplicit false

namespace WindowScript

inductive Builtin where
  | echo | run | len | str | int | float | assert
deriving DecidableEq, Repr

inductive Arity where
  | exactly (count : Nat)
  | atLeast (count : Nat)
deriving DecidableEq, Repr

namespace Arity

def accepts : Arity → Nat → Bool
  | .exactly count, found => found = count
  | .atLeast count, found => count ≤ found

def text : Arity → String
  | .exactly count => toString count
  | .atLeast count => s!"at least {count}"

end Arity

namespace Builtin

def all : List Builtin := [.echo, .run, .len, .str, .int, .float, .assert]

def name : Builtin → String
  | .echo => "echo"
  | .run => "run"
  | .len => "len"
  | .str => "str"
  | .int => "int"
  | .float => "float"
  | .assert => "assert"

def ofName? (name : String) : Option Builtin := all.find? (·.name = name)

def arity : Builtin → Arity
  | .echo => .atLeast 0
  | _ => .exactly 1

end Builtin

/-- A value. -/
inductive Value where
  | absent
  | integer (value : Integer)
  | real (value : Float)
  | boolean (value : Bool)
  | text (value : String)
  | list (items : List Value)
  | record (entries : List (String × Value))
  | function (definition : Function) (captured : List (String × Value))
  | builtin (builtin : Builtin)
  | gui (gui : Gui)

/-- The values of the names that can be used at some place. -/
abbrev Scope := List (String × Value)

inductive Kind where
  | null | int | float | bool | str | list | record | function | builtin | gui
deriving DecidableEq, Repr

def Kind.name : Kind → String
  | .null => "null"
  | .int => "int"
  | .float => "float"
  | .bool => "bool"
  | .str => "str"
  | .list => "list"
  | .record => "record"
  | .function => "function"
  | .builtin => "builtin"
  | .gui => "gui"

namespace Value

def kind : Value → Kind
  | .absent => .null
  | .integer _ => .int
  | .real _ => .float
  | .boolean _ => .bool
  | .text _ => .str
  | .list _ => .list
  | .record _ => .record
  | .function _ _ => .function
  | .builtin _ => .builtin
  | .gui _ => .gui

def isNumber : Value → Bool
  | .integer _ | .real _ => true
  | _ => false

def isAbsent : Value → Bool
  | .absent => true
  | _ => false

end Value

def Scope.initial : Scope :=
  Bindings.insertAll (Builtin.all.map fun builtin => (builtin.name, .builtin builtin)) []

end WindowScript
