/-!
# Drafts of Python programs

A Python program is written line by line. Its draft keeps the lines that are written, the depth
of the next one and the number of the next widget.
-/

set_option autoImplicit false

namespace WindowScript.Python

def widgetName (number : Nat) : String := s!"widget_{number}"

/-- A program in the making. -/
structure Draft where
  lines : Array String
  depth : Nat
  widgets : Nat

namespace Draft

def empty : Draft := ⟨#[], 0, 0⟩

/-- Adds a line at the depth of the draft, four spaces to a level. -/
def emit (draft : Draft) (code : String) : Draft :=
  let indentation := String.ofList (List.replicate (4 * draft.depth) ' ')
  { draft with lines := draft.lines.push (indentation ++ code) }

/-- Adds an empty line, unless the last line is empty already. -/
def blank (draft : Draft) : Draft :=
  if draft.lines.back? = some "" then draft else { draft with lines := draft.lines.push "" }

def indent (draft : Draft) : Draft := { draft with depth := draft.depth + 1 }

/-- Leaves a level of nesting. The outermost one cannot be left. -/
def dedent (draft : Draft) : Draft := { draft with depth := draft.depth - 1 }

/-- The variable of the next widget, and the draft in which it is taken. -/
def nextWidget (draft : Draft) : String × Draft :=
  (widgetName draft.widgets, { draft with widgets := draft.widgets + 1 })

/-- The text of a finished draft. Every line ends with a newline. -/
def text (draft : Draft) : String :=
  if draft.lines.isEmpty then "" else "\n".intercalate draft.lines.toList ++ "\n"

end Draft

end WindowScript.Python
