import WindowScript.Proofs.Program.Relocation
import WindowScript.Python.Program

/-!
# The lines of a Python program

The lines of a program are said part by part, apart from the draft in which they are written:
every line has its depth with it, every widget its number, and blank lines are settled when all
lines are there. The draft of a program holds just these lines.
-/

set_option autoImplicit false

namespace WindowScript.Python

/-- A line of a program: code at some depth of nesting, or a separating blank line. -/
inductive Line where
  | code (depth : Nat) (text : String)
  | blank
deriving DecidableEq, Repr

namespace Line

/-- The text of a line, four spaces to a level. -/
def text : Line → String
  | .code depth text => String.ofList (List.replicate (4 * depth) ' ') ++ text
  | .blank => ""

/-- The texts of lines, without those blank lines that have an empty line before them;
`behindEmpty` says whether the first line has. -/
def settle (behindEmpty : Bool) : List Line → List String
  | [] => []
  | .blank :: rest => if behindEmpty then settle true rest else "" :: settle true rest
  | .code depth text :: rest =>
      (Line.code depth text).text :: settle (depth = 0 && text.isEmpty) rest

/-- The program that lines make up. Each line ends with a newline. -/
def render (lines : List Line) : String :=
  String.join ((settle false lines).map (· ++ "\n"))

end Line

/-!
## Lines part by part
-/

/-- The statements that a window contributes: its title, and its size when both of its
sides are given. -/
def windowSetup (depth : Nat) (window : Window) : List Line :=
  let title :=
    match Attributes.find? "title" window.attributes with
    | some title => [Line.code depth ("self.setWindowTitle(" ++ expression title ++ ")")]
    | none => []
  let size :=
    match Attributes.find? "width" window.attributes,
      Attributes.find? "height" window.attributes with
    | some width, some height =>
        [Line.code depth
          ("self.setGeometry(100, 100, " ++ expression width ++ ", " ++ expression height ++ ")")]
    | _, _ => []
  title ++ size

/-- The statements that the attributes of a widget contribute, in their order. -/
def widgetBindings (depth : Nat) (target : String) (attributes : Attributes) : List Line :=
  attributes.filterMap fun (key, value) =>
    if key = "id" then some (.code depth (identifierBinding target value))
    else if key = "onClick" then
      some (.code depth (target ++ ".clicked.connect(" ++ expression value ++ ")"))
    else none

def widgetLines (depth number : Nat) (widget : Widget) : List Line :=
  let target := widgetName number
  .code depth
      (target ++ " = " ++ WidgetWord.classOf widget.kind ++ "(" ++
        widgetCaption widget.attributes ++ ")") ::
    widgetBindings depth target widget.attributes ++
    [.code depth ("layout.addWidget(" ++ target ++ ")"), .blank]

/-- The statements that build several widgets, numbered from `number`. -/
def widgetsLines (depth number : Nat) : List Widget → List Line
  | [] => []
  | widget :: rest => widgetLines depth number widget ++ widgetsLines depth (number + 1) rest

def layoutLines (depth : Nat) : List Line :=
  [.blank,
    .code depth "central_widget = QWidget()",
    .code depth "self.setCentralWidget(central_widget)",
    .code depth "layout = QVBoxLayout()",
    .code depth "central_widget.setLayout(layout)",
    .blank]

def elementWidgets : Element → List Widget
  | .window window => window.children
  | .widget widget => [widget]

/-- The widgets of an interface, in order. -/
def guiWidgets (gui : Gui) : List Widget := gui.elements.flatMap elementWidgets

/-- The set-up of the windows among the parts of an interface. -/
def elementSetup (depth : Nat) : Element → List Line
  | .window window => windowSetup depth window
  | .widget _ => []

/-- The class of an interface, with its widgets numbered from `number`. -/
def guiLines (depth number : Nat) (gui : Gui) : List Line :=
  .code depth ("class " ++ name gui.name ++ "(QMainWindow):") ::
    .code (depth + 1) "def __init__(self):" ::
    .code (depth + 2) "super().__init__()" ::
    gui.elements.flatMap (elementSetup (depth + 2)) ++
    (if gui.elements.isEmpty then [] else layoutLines (depth + 2)) ++
    widgetsLines (depth + 2) number (guiWidgets gui) ++
    [.blank]

mutual

def widgetCount : Statement → Nat
  | .function _ _ body _ => widgetCounts body
  | .gui gui => (guiWidgets gui).length
  | _ => 0

/-- The number of widgets that several statements describe. -/
def widgetCounts : List Statement → Nat
  | [] => 0
  | first :: rest => widgetCount first + widgetCounts rest

end

mutual

/-- The lines of a statement, with its widgets numbered from `number`. -/
def statementLines (depth number : Nat) : Statement → List Line
  | .binding bound value _ => [.code depth (name bound ++ " = " ++ expression value)]
  | .function callee parameters body _ =>
      .code depth ("def " ++ name callee ++ "(" ++ separated (parameters.map name) ++ "):") ::
        (if body.isEmpty then [.code (depth + 1) "pass"]
          else statementsLines (depth + 1) number body) ++
        [.blank]
  | .returning value _ => [.code depth ("return " ++ expression value)]
  | .gui gui => guiLines depth number gui
  | .expression value _ => [.code depth (expression value)]

/-- The lines of several statements, with their widgets numbered from `number`. -/
def statementsLines (depth number : Nat) : List Statement → List Line
  | [] => []
  | first :: rest =>
      statementLines depth number first ++ statementsLines depth (number + widgetCount first) rest

end

def preamble : List Line :=
  [.code 0 "#!/usr/bin/env python3",
    .code 0 "import sys",
    .code 0 ("from PyQt5.QtWidgets import (" ++ separated toolkitClasses ++ ")"),
    .blank]

def epilogue (gui : Gui) : List Line :=
  [.blank,
    .code 0 "if __name__ == '__main__':",
    .code 1 "app = QApplication(sys.argv)",
    .code 1 ("window = " ++ name gui.name ++ "()"),
    .code 1 "window.show()",
    .code 1 "sys.exit(app.exec_())"]

def programLines (program : Program) : List Line :=
  match firstGui? program with
  | some gui => preamble ++ statementsLines 0 0 program ++ epilogue gui
  | none => statementsLines 0 0 program

/-!
## Lines in a draft
-/

namespace Line

/-- Writes a line behind others. A blank line is left out when an empty one stands before it. -/
def put (written : Array String) : Line → Array String
  | .code depth text => written.push (Line.code depth text).text
  | .blank => if written.back? = some "" then written else written.push ""

private theorem text_code_eq_empty_iff (depth : Nat) (text : String) :
    (Line.code depth text).text = "" ↔ depth = 0 ∧ text = "" := by
  rw [Line.text, String.append_eq_empty_iff, String.ofList_eq_empty_iff,
    List.replicate_eq_nil_iff, Nat.mul_eq_zero, or_iff_right (by decide)]

/-- Lines that are put one after the other are the lines settled at the end. -/
theorem toList_foldl_put (lines : List Line) (written : Array String) :
    (lines.foldl put written).toList =
      written.toList ++ settle (written.back? = some "") lines := by
  induction lines generalizing written with
  | nil => rw [List.foldl_nil, settle, List.append_nil]
  | cons line rest ih =>
      rw [List.foldl_cons, ih]
      cases line with
      | code depth text =>
          have empty : decide ((written.push (Line.code depth text).text).back? = some "") =
              (decide (depth = 0) && text.isEmpty) := by
            rw [Array.back?_push, Bool.eq_iff_iff]
            simp [text_code_eq_empty_iff]
          rw [put, settle, empty, Array.toList_push, List.append_assoc, List.singleton_append]
      | blank =>
          by_cases behind : written.back? = some ""
          · simp [put, settle, behind]
          · simp [put, settle, behind]

end Line

namespace Draft

/-- The draft with further lines, in which the numbers of some widgets are taken. -/
def add (draft : Draft) (lines : List Line) (taken : Nat) : Draft :=
  ⟨lines.foldl Line.put draft.lines, draft.depth, draft.widgets + taken⟩

@[simp] theorem depth_add (draft : Draft) (lines : List Line) (taken : Nat) :
    (draft.add lines taken).depth = draft.depth := rfl

@[simp] theorem widgets_add (draft : Draft) (lines : List Line) (taken : Nat) :
    (draft.add lines taken).widgets = draft.widgets + taken := rfl

@[simp] theorem depth_indent (draft : Draft) : draft.indent.depth = draft.depth + 1 := rfl

@[simp] theorem widgets_indent (draft : Draft) : draft.indent.widgets = draft.widgets := rfl

@[simp] theorem add_add (draft : Draft) (first second : List Line) (taken further : Nat) :
    (draft.add first taken).add second further =
      draft.add (first ++ second) (taken + further) := by
  simp only [add, List.foldl_append, Nat.add_assoc]

theorem emit_eq (draft : Draft) (code : String) :
    draft.emit code = draft.add [.code draft.depth code] 0 := rfl

private theorem blank_eq (draft : Draft) : draft.blank = draft.add [.blank] 0 := by
  simp only [blank, add, List.foldl_cons, List.foldl_nil, Line.put]
  split <;> rfl

/-- What is written at a deeper level comes back to the level that it was entered from. -/
@[simp] theorem dedent_add_indent (draft : Draft) (lines : List Line) (taken : Nat) :
    (draft.indent.add lines taken).dedent = draft.add lines taken := rfl

@[simp] theorem indent_add (draft : Draft) (lines : List Line) (taken : Nat) :
    (draft.add lines taken).indent = draft.indent.add lines taken := rfl

@[simp] theorem nextWidget_fst (draft : Draft) :
    draft.nextWidget.1 = widgetName draft.widgets := rfl

@[simp] theorem nextWidget_snd (draft : Draft) : draft.nextWidget.2 = draft.add [] 1 := rfl

/-- What is written for each of some items, where it takes no widget. -/
theorem foldl_eq_add {α : Type} {write : Draft → α → Draft} {lines : Nat → α → List Line}
    (each : ∀ (draft : Draft) (item : α), write draft item = draft.add (lines draft.depth item) 0)
    (draft : Draft) (items : List α) :
    items.foldl write draft = draft.add (items.flatMap (lines draft.depth)) 0 := by
  induction items generalizing draft with
  | nil => rfl
  | cons first rest ih =>
      rw [List.foldl_cons, each, ih, add_add, depth_add, List.flatMap_cons]

private theorem writeWindow_eq (draft : Draft) (window : Window) :
    draft.writeWindow window = draft.add (windowSetup draft.depth window) 0 := by
  simp only [writeWindow, windowSetup]
  cases Attributes.find? "title" window.attributes <;>
    cases Attributes.find? "width" window.attributes <;>
    cases Attributes.find? "height" window.attributes <;> rfl

private theorem foldl_writeAttribute (draft : Draft) (target : String) (attributes : Attributes) :
    attributes.foldl (writeAttribute target) draft =
      draft.add (widgetBindings draft.depth target attributes) 0 := by
  induction attributes generalizing draft with
  | nil => rfl
  | cons entry rest ih =>
      obtain ⟨key, value⟩ := entry
      rw [List.foldl_cons, ih]
      by_cases identifier : key = "id"
      · simp [writeAttribute, widgetBindings, identifier, emit_eq]
      by_cases click : key = "onClick"
      · simp [writeAttribute, widgetBindings, click, emit_eq]
      · simp [writeAttribute, widgetBindings, identifier, click]

private theorem writeWidget_eq (draft : Draft) (widget : Widget) :
    draft.writeWidget widget = draft.add (widgetLines draft.depth draft.widgets widget) 1 := by
  simp only [writeWidget, nextWidget_fst, nextWidget_snd, emit_eq, blank_eq,
    foldl_writeAttribute, add_add, depth_add, widgetLines]
  simp

private theorem foldl_writeWidget (draft : Draft) (widgets : List Widget) :
    widgets.foldl writeWidget draft =
      draft.add (widgetsLines draft.depth draft.widgets widgets) widgets.length := by
  induction widgets generalizing draft with
  | nil => rfl
  | cons widget rest ih =>
      rw [List.foldl_cons, writeWidget_eq, ih, add_add, depth_add, widgets_add, widgetsLines,
        List.length_cons, Nat.add_comm 1]

private theorem writeSetup_eq (draft : Draft) (part : Element) :
    draft.writeSetup part = draft.add (elementSetup draft.depth part) 0 := by
  cases part with
  | window window => exact draft.writeWindow_eq window
  | widget widget => rfl

private theorem writeLayout_eq (draft : Draft) :
    draft.writeLayout = draft.add (layoutLines draft.depth) 0 := by
  simp [writeLayout, layoutLines, emit_eq, blank_eq]

private theorem writeElement_eq (draft : Draft) (part : Element) :
    draft.writeElement part = (elementWidgets part).foldl writeWidget draft := by
  cases part <;> rfl

private theorem foldl_writeElement (draft : Draft) (gui : Gui) :
    gui.elements.foldl writeElement draft =
      draft.add (widgetsLines draft.depth draft.widgets (guiWidgets gui))
        (guiWidgets gui).length := by
  have each : writeElement = fun draft part => (elementWidgets part).foldl writeWidget draft :=
    funext fun draft => funext (writeElement_eq draft)
  rw [each, ← List.foldl_flatMap, ← guiWidgets, foldl_writeWidget]

private theorem writeGui_eq (draft : Draft) (gui : Gui) :
    draft.writeGui gui =
      draft.add (guiLines draft.depth draft.widgets gui) (guiWidgets gui).length := by
  have laidOut (started : Draft) :
      (if gui.elements.isEmpty then started else started.writeLayout) =
        started.add (if gui.elements.isEmpty then [] else layoutLines started.depth) 0 := by
    split
    · rfl
    · exact started.writeLayout_eq
  simp only [writeGui, foldl_eq_add writeSetup_eq, laidOut, foldl_writeElement, emit_eq, blank_eq,
    indent_add, dedent_add_indent, add_add, depth_add, widgets_add, depth_indent, widgets_indent,
    guiLines, List.cons_append, List.nil_append, Nat.add_zero, Nat.zero_add]

/-!
## Statements
-/

private theorem writeStatements_eq {statements : List Statement}
    (each : ∀ statement ∈ statements, ∀ draft : Draft,
      draft.writeStatement statement =
        draft.add (statementLines draft.depth draft.widgets statement) (widgetCount statement))
    (draft : Draft) :
    draft.writeStatements statements =
      draft.add (statementsLines draft.depth draft.widgets statements)
        (widgetCounts statements) := by
  induction statements generalizing draft with
  | nil => rfl
  | cons first rest ih =>
      obtain ⟨firstEach, restEach⟩ := List.forall_mem_cons.mp each
      rw [writeStatements, firstEach, ih restEach, add_add, depth_add, widgets_add,
        statementsLines, widgetCounts]

/-- A statement adds its lines at the depth of the draft, with the next numbers for its
widgets. -/
theorem writeStatement_eq (statement : Statement) (draft : Draft) :
    draft.writeStatement statement =
      draft.add (statementLines draft.depth draft.widgets statement) (widgetCount statement) := by
  induction statement using Statement.structural generalizing draft with
  | binding | returning | expression => rfl
  | gui described => exact draft.writeGui_eq described
  | function callee parameters body position bodyIH =>
      rw [writeStatement, statementLines, widgetCount]
      cases body with
      | nil => simp [emit_eq, blank_eq, writeStatements, widgetCounts]
      | cons first rest =>
          simp [writeStatements_eq bodyIH, emit_eq, blank_eq]

private theorem writeProgram_eq (program : Program) :
    Draft.empty.writeProgram program =
      Draft.empty.add (programLines program) (widgetCounts program) := by
  have statements (draft : Draft) :
      draft.writeStatements program =
        draft.add (statementsLines draft.depth draft.widgets program) (widgetCounts program) :=
    writeStatements_eq (fun statement _ => writeStatement_eq statement) draft
  unfold writeProgram programLines
  cases firstGui? program with
  | none => exact statements _
  | some gui =>
      simp [statements, writePreamble, writeEpilogue, preamble, epilogue, emit_eq, blank_eq, empty]

private theorem intercalate_newline (first : String) (rest : List String) :
    "\n".intercalate (first :: rest) ++ "\n" =
      String.join ((first :: rest).map (· ++ "\n")) := by
  induction rest generalizing first with
  | nil => simp
  | cons second rest ih =>
      rw [String.intercalate_cons_cons, String.append_assoc, ih]
      simp only [List.map_cons, String.join_cons, String.append_assoc]

private theorem text_eq (draft : Draft) :
    draft.text = String.join (draft.lines.toList.map (· ++ "\n")) := by
  unfold text
  obtain ⟨lines⟩ := draft.lines
  cases lines with
  | nil => rfl
  | cons first rest => exact intercalate_newline first rest

end Draft

/-- The text of a program is that of its lines. -/
theorem generate_eq (program : Program) :
    generate program = Line.render (programLines program) := by
  rw [generate, Draft.text_eq, Draft.writeProgram_eq, Line.render]
  have lines := Line.toList_foldl_put (programLines program) #[]
  simp only [Draft.add, Draft.empty, lines]
  rfl

end WindowScript.Python
