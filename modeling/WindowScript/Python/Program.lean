import WindowScript.Python.Interface

/-!
# Programs in Python

Statements become lines in their order. A program that describes an interface at its
top level also imports the toolkit and opens the first interface when it is run.
-/

set_option autoImplicit false

namespace WindowScript.Python

namespace Draft

mutual

def writeStatement (draft : Draft) : Statement → Draft
  | .binding bound value _ => draft.emit (name bound ++ " = " ++ expression value)
  | .function callee parameters body _ =>
      let headed := draft.emit
        ("def " ++ name callee ++ "(" ++ separated (parameters.map name) ++ "):")
      let started := if body.isEmpty then headed.indent.emit "pass" else headed.indent
      (started.writeStatements body).dedent.blank
  | .returning value _ => draft.emit ("return " ++ expression value)
  | .gui gui => draft.writeGui gui
  | .expression value _ => draft.emit (expression value)

def writeStatements (draft : Draft) : List Statement → Draft
  | [] => draft
  | first :: rest => (draft.writeStatement first).writeStatements rest

end

end Draft

/-- The first interface that a program describes at its top level. -/
def firstGui? : Program → Option Gui
  | [] => none
  | .gui gui :: _ => some gui
  | _ :: rest => firstGui? rest

/-- Adds a text to texts in increasing order, unless it is there already. -/
def insertOrdered (text : String) : List String → List String
  | [] => [text]
  | first :: rest =>
      if text = first then first :: rest
      else if text < first then text :: first :: rest
      else first :: insertOrdered text rest

/-- The classes of the toolkit that an interface needs, in increasing order. -/
def toolkitClasses : List String :=
  (["QApplication", "QMainWindow", "QVBoxLayout", WidgetWord.fallbackClass] ++
    WidgetWord.all.map (·.toolkitClass)).foldr insertOrdered []

namespace Draft

def writePreamble (draft : Draft) : Draft :=
  let imported := (draft.emit "#!/usr/bin/env python3").emit "import sys"
  (imported.emit ("from PyQt5.QtWidgets import (" ++ separated toolkitClasses ++ ")")).blank

/-- Writes the end of a program, which opens an interface. -/
def writeEpilogue (draft : Draft) (gui : Gui) : Draft :=
  let guarded := (draft.blank.emit "if __name__ == '__main__':").indent
  let opened := (guarded.emit "app = QApplication(sys.argv)").emit
    ("window = " ++ name gui.name ++ "()")
  ((opened.emit "window.show()").emit "sys.exit(app.exec_())").dedent

def writeProgram (draft : Draft) (program : Program) : Draft :=
  match firstGui? program with
  | some gui => (draft.writePreamble.writeStatements program).writeEpilogue gui
  | none => draft.writeStatements program

end Draft

def generate (program : Program) : String := (Draft.empty.writeProgram program).text

end WindowScript.Python
