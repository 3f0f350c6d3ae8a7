import WindowScript.Number.Shortest
import WindowScript.Program.Expr
import WindowScript.Python.Text

/-!
# Expressions in Python

Every operation stands between brackets, so that no reader needs to know how tightly
it binds. A pipe becomes the call it stands for.
-/

set_option autoImplicit false

namespace WindowScript.Python

def separated (texts : List String) : String := ", ".intercalate texts

/-- A call with the text that stands between its brackets. -/
def call (callee inside : String) : String := name callee ++ "(" ++ inside ++ ")"

mutual

def expression : Expr → String
  | .integer value _ => Integer.text value
  | .real value _ => Real.text value
  | .text value _ => literal value
  | .boolean value _ => if value then "True" else "False"
  | .name read _ => name read
  | .binary operator left right _ =>
      "(" ++ expression left ++ " " ++ operator.spelling ++ " " ++ expression right ++ ")"
  | .record fields _ => "\x7b" ++ separated (entries fields) ++ "\x7d"
  | .access object key _ => expression object ++ "['" ++ key ++ "']"
  | .list items _ => "[" ++ separated (expressions items) ++ "]"
  | .call callee arguments _ => call callee (separated (expressions arguments))
  | .pipe left (.call callee arguments _) _ =>
      if arguments.isEmpty then call callee (expression left)
      else call callee (expression left ++ ", " ++ separated (expressions arguments))
  | .pipe left (.name callee _) _ => call callee (expression left)
  | .pipe left _ _ => expression left

def expressions : List Expr → List String
  | [] => []
  | first :: rest => expression first :: expressions rest

def entries : List (String × Expr) → List String
  | [] => []
  | (key, value) :: rest => (literal key ++ ": " ++ expression value) :: entries rest

end

end WindowScript.Python
