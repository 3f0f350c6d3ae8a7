import WindowScript.Program.Statement
import WindowScript.Python.Draft
import WindowScript.Python.Expression
import WindowScript.Token.Basic

/-!
# Interfaces in Python

An interface becomes a class whose constructor sets up its windows and builds its
widgets. Widgets are numbered throughout a program, and each is added to the layout
of its own class.
-/

set_option autoImplicit false

namespace WindowScript.Python

namespace Draft

/-- Writes the statements of a window: its title, and its size when both of its sides are
given. -/
def writeWindow (draft : Draft) (window : Window) : Draft :=
  let titled :=
    match Attributes.find? "title" window.attributes with
    | some title => draft.emit ("self.setWindowTitle(" ++ expression title ++ ")")
    | none => draft
  match Attributes.find? "width" window.attributes,
    Attributes.find? "height" window.attributes with
  | some width, some height =>
      titled.emit
        ("self.setGeometry(100, 100, " ++ expression width ++ ", " ++ expression height ++ ")")
  | _, _ => titled

end Draft

/-- The statement that keeps a widget under its identifier. -/
def identifierBinding (target : String) : Expr → String
  | .text value _ =>
      if isIdentifier value then "self." ++ value ++ " = " ++ target
      else "setattr(self, " ++ literal value ++ ", " ++ target ++ ")"
  | .name value _ => "self." ++ name value ++ " = " ++ target
  | other => "setattr(self, " ++ expression other ++ ", " ++ target ++ ")"

/-- What a widget shows: its text, or else its label. -/
def widgetCaption (attributes : Attributes) : String :=
  match Attributes.find? "text" attributes with
  | some caption => expression caption
  | none =>
      match Attributes.find? "label" attributes with
      | some caption => expression caption
      | none => "\"\""

namespace Draft

/-- Writes what an attribute says of the widget in a variable. Only its identifier and what a
click does become statements. -/
def writeAttribute (target : String) (draft : Draft) : String × Expr → Draft
  | (key, value) =>
      if key = "id" then draft.emit (identifierBinding target value)
      else if key = "onClick" then
        draft.emit (target ++ ".clicked.connect(" ++ expression value ++ ")")
      else draft

/-- Writes the statements that build a widget and add it to the layout. -/
def writeWidget (draft : Draft) (widget : Widget) : Draft :=
  let (target, taken) := draft.nextWidget
  let built := taken.emit
    (target ++ " = " ++ WidgetWord.classOf widget.kind ++ "(" ++
      widgetCaption widget.attributes ++ ")")
  let attached := widget.attributes.foldl (writeAttribute target) built
  (attached.emit ("layout.addWidget(" ++ target ++ ")")).blank

/-- Sets up a window among the parts of an interface. -/
def writeSetup (draft : Draft) : Element → Draft
  | .window window => draft.writeWindow window
  | .widget _ => draft

def writeLayout (draft : Draft) : Draft :=
  let started := draft.blank.emit "central_widget = QWidget()"
  let central := started.emit "self.setCentralWidget(central_widget)"
  let layout := central.emit "layout = QVBoxLayout()"
  (layout.emit "central_widget.setLayout(layout)").blank

/-- Builds the widgets of a part of an interface. -/
def writeElement (draft : Draft) : Element → Draft
  | .window window => window.children.foldl writeWidget draft
  | .widget widget => draft.writeWidget widget

/-- Writes the class of an interface. -/
def writeGui (draft : Draft) (gui : Gui) : Draft :=
  let named := (draft.emit ("class " ++ name gui.name ++ "(QMainWindow):")).indent
  let headed := (named.emit "def __init__(self):").indent
  let prepared := gui.elements.foldl writeSetup (headed.emit "super().__init__()")
  let laidOut := if gui.elements.isEmpty then prepared else prepared.writeLayout
  (gui.elements.foldl writeElement laidOut).dedent.dedent.blank

end Draft

end WindowScript.Python
