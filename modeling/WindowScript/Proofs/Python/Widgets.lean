import Mathlib.Data.List.Forall2
import WindowScript.Proofs.Python.Lines

/-!
# The widgets of a Python program

What the text of a program should be is said here from the program alone: the widgets of the
program as they stand in it, the lines that build a widget under some number, the class of an
interface with its one layout, and what stands around all of it. The text that is written is of
this kind, and the widgets in it bear the numbers from zero on, in their order.
-/

set_option autoImplicit false

namespace WindowScript

/-!
## The widgets of a program
-/

/-- The widgets of the parts of an interface as they stand there, those of a window in its
place. -/
def Element.widgetsOf : List Element → List Widget
  | [] => []
  | .window part :: rest => part.children ++ Element.widgetsOf rest
  | .widget part :: rest => part :: Element.widgetsOf rest

mutual

/-- The widgets that a statement describes, depth first. A function describes those of its
body. -/
def Statement.widgets : Statement → List Widget
  | .function _ _ body _ => Statement.widgetsOf body
  | .gui described => Element.widgetsOf described.elements
  | .binding _ _ _ | .returning _ _ | .expression _ _ => []

def Statement.widgetsOf : List Statement → List Widget
  | [] => []
  | first :: rest => first.widgets ++ Statement.widgetsOf rest

end

/-- The value of the first attribute of a name. -/
inductive Attributes.First (key : String) : Attributes → Expr → Prop where
  | here {value rest} : First key ((key, value) :: rest) value
  | later {entry value rest} : entry.1 ≠ key → First key rest value →
      First key (entry :: rest) value

def Attributes.Lacks (key : String) (attributes : Attributes) : Prop :=
  ∀ entry ∈ attributes, entry.1 ≠ key

private theorem Attributes.find?_cases (key : String) (attributes : Attributes) :
    (∃ value, attributes.find? key = some value ∧ attributes.First key value) ∨
      attributes.find? key = none ∧ attributes.Lacks key := by
  induction attributes with
  | nil => exact .inr ⟨rfl, by simp [Lacks]⟩
  | cons entry rest ih =>
      obtain ⟨held, value⟩ := entry
      by_cases same : held = key
      · subst same
        exact .inl ⟨value, if_pos rfl, .here⟩
      · rcases ih with ⟨found, read, first⟩ | ⟨missing, lacks⟩
        · exact .inl ⟨found, by rw [find?, if_neg same, read], .later same first⟩
        · exact .inr ⟨by rw [find?, if_neg same, missing], List.forall_mem_cons.mpr ⟨same, lacks⟩⟩

namespace Python

/-!
## The lines of a widget
-/

/-- The toolkit class for a kind of widget: the one listed for its word, or else the plain one. -/
inductive ClassOf : String → String → Prop where
  | listed {entry : WidgetWord} : entry ∈ WidgetWord.all → ClassOf entry.word entry.toolkitClass
  | plain {kind : String} : (∀ entry ∈ WidgetWord.all, entry.word ≠ kind) → ClassOf kind "QWidget"

/-- What a widget shows: its text, without one its label, and without either nothing. -/
inductive Caption (attributes : Attributes) : String → Prop where
  | text {value : Expr} : attributes.First "text" value → Caption attributes (expression value)
  | label {value : Expr} : attributes.Lacks "text" → attributes.First "label" value →
      Caption attributes (expression value)
  | none : attributes.Lacks "text" → attributes.Lacks "label" → Caption attributes "\"\""

/-- A text that can stand behind the dot of an attribute: letters, digits and underscores, with
no digit at the front. -/
def Dotted (text : String) : Prop :=
  ∃ first rest, text.toList = first :: rest ∧ (first.isAlpha ∨ first = '_') ∧
    ∀ character ∈ rest, character.isAlphanum ∨ character = '_'

/-- The statement that keeps the widget of a variable under an identifier. -/
inductive Keeps (target : String) : Expr → String → Prop where
  | dotted {value position} : Dotted value →
      Keeps target (.text value position) ("self." ++ value ++ " = " ++ target)
  | quoted {value position} : ¬Dotted value →
      Keeps target (.text value position)
        ("setattr(self, " ++ literal value ++ ", " ++ target ++ ")")
  | name {value position} :
      Keeps target (.name value position) ("self." ++ name value ++ " = " ++ target)
  | computed {value : Expr} :
      (∀ text position, value ≠ .text text position) →
      (∀ label position, value ≠ .name label position) →
      Keeps target value ("setattr(self, " ++ expression value ++ ", " ++ target ++ ")")

/-- What an attribute says of the widget of a variable: to keep it under an identifier, or what
a click on it does. -/
inductive Attaches (target : String) : String × Expr → String → Prop where
  | identifier {value : Expr} {line : String} :
      Keeps target value line → Attaches target ("id", value) line
  | click {value : Expr} :
      Attaches target ("onClick", value) (target ++ ".clicked.connect(" ++ expression value ++ ")")

/-- Some lines that stand for the widget with some number. -/
structure Block where
  depth : Nat
  number : Nat
  widget : Widget
  lines : List Line

/-- The lines of a block build its widget from the toolkit class of its kind, attach what its
attributes say, in their order, and add the widget to the layout. All of them are about the
variable with the number of the block. -/
def Block.Builds (block : Block) : Prop :=
  let target := "widget_" ++ toString block.number
  ∃ (toolkitClass caption : String) (attached : List String),
    ClassOf block.widget.kind toolkitClass ∧
    Caption block.widget.attributes caption ∧
    List.Forall₂ (Attaches target)
      (block.widget.attributes.filter fun entry => entry.1 = "id" ∨ entry.1 = "onClick") attached ∧
    block.lines =
      .code block.depth (target ++ " = " ++ toolkitClass ++ "(" ++ caption ++ ")") ::
        attached.map (.code block.depth) ++
        [.code block.depth ("layout.addWidget(" ++ target ++ ")"), .blank]

/-!
## The lines of a program
-/

/-- A part of the text of a program: a line, or the block of a widget. -/
inductive Part where
  | line (line : Line)
  | block (block : Block)

namespace Part

def lines : Part → List Line
  | .line single => [single]
  | .block own => own.lines

def block? : Part → Option Block
  | .line _ => none
  | .block own => some own

end Part

def blocksOf (parts : List Part) : List Block := parts.filterMap Part.block?

inductive Titles (depth : Nat) (window : Window) : List Line → Prop where
  | title {value : Expr} : window.attributes.First "title" value →
      Titles depth window [.code depth ("self.setWindowTitle(" ++ expression value ++ ")")]
  | none : window.attributes.Lacks "title" → Titles depth window []

/-- The size of a window is set when it has a width and a height. -/
inductive Sizes (depth : Nat) (window : Window) : List Line → Prop where
  | size {width height : Expr} :
      window.attributes.First "width" width → window.attributes.First "height" height →
      Sizes depth window
        [.code depth
          ("self.setGeometry(100, 100, " ++ expression width ++ ", " ++ expression height ++ ")")]
  | none : window.attributes.Lacks "width" ∨ window.attributes.Lacks "height" →
      Sizes depth window []

/-- The lines that set up the windows among the parts of an interface. -/
inductive SetsUp (depth : Nat) : List Element → List Line → Prop where
  | nil : SetsUp depth [] []
  | window {part rest title size lines} :
      Titles depth part title → Sizes depth part size → SetsUp depth rest lines →
      SetsUp depth (.window part :: rest) (title ++ size ++ lines)
  | widget {part rest lines} :
      SetsUp depth rest lines → SetsUp depth (.widget part :: rest) lines

/-- The one layout of a class. An interface without parts has none. -/
inductive LaysOut (depth : Nat) : List Element → List Line → Prop where
  | none : LaysOut depth [] []
  | layout {first rest} :
      LaysOut depth (first :: rest)
        [.blank,
          .code depth "central_widget = QWidget()",
          .code depth "self.setCentralWidget(central_widget)",
          .code depth "layout = QVBoxLayout()",
          .code depth "central_widget.setLayout(layout)",
          .blank]

mutual

/-- What a statement becomes. The blocks of the widgets of an interface stand behind the layout of
its class, one for each, in their order. -/
inductive Shows : Nat → Statement → List Part → Prop where
  | binding {depth bound value position} :
      Shows depth (.binding bound value position)
        [.line (.code depth (name bound ++ " = " ++ expression value))]
  | emptyFunction {depth callee parameters position} :
      Shows depth (.function callee parameters [] position)
        [.line
            (.code depth ("def " ++ name callee ++ "(" ++ separated (parameters.map name) ++ "):")),
          .line (.code (depth + 1) "pass"), .line .blank]
  | function {depth callee parameters first rest position parts} :
      ShowsAll (depth + 1) (first :: rest) parts →
      Shows depth (.function callee parameters (first :: rest) position)
        (.line
            (.code depth ("def " ++ name callee ++ "(" ++ separated (parameters.map name) ++ "):")) ::
          parts ++ [.line .blank])
  | returning {depth value position} :
      Shows depth (.returning value position) [.line (.code depth ("return " ++ expression value))]
  | gui {depth described setup layout} {blocks : List Block} :
      SetsUp (depth + 2) described.elements setup →
      LaysOut (depth + 2) described.elements layout →
      blocks.map Block.widget = Element.widgetsOf described.elements →
      (∀ block ∈ blocks, block.depth = depth + 2) →
      Shows depth (.gui described)
        (.line (.code depth ("class " ++ name described.name ++ "(QMainWindow):")) ::
          .line (.code (depth + 1) "def __init__(self):") ::
          .line (.code (depth + 2) "super().__init__()") ::
          (setup ++ layout).map .line ++ blocks.map .block ++ [.line .blank])
  | expression {depth value position} :
      Shows depth (.expression value position) [.line (.code depth (expression value))]

inductive ShowsAll : Nat → List Statement → List Part → Prop where
  | nil {depth} : ShowsAll depth [] []
  | cons {depth first rest parts others} :
      Shows depth first parts → ShowsAll depth rest others →
      ShowsAll depth (first :: rest) (parts ++ others)

end

/-- What a program becomes. One with an interface at its top level also imports the toolkit and
opens the first such interface. -/
inductive ShowsProgram (program : Program) : List Part → Prop where
  | plain {parts} : (∀ described, .gui described ∉ program) → ShowsAll 0 program parts →
      ShowsProgram program parts
  | opening {before described behind parts} :
      program = before ++ .gui described :: behind → (∀ other, .gui other ∉ before) →
      ShowsAll 0 program parts →
      ShowsProgram program
        ([.line (.code 0 "#!/usr/bin/env python3"),
            .line (.code 0 "import sys"),
            .line (.code 0 ("from PyQt5.QtWidgets import (QApplication, QLabel, QLineEdit, " ++
              "QMainWindow, QPushButton, QVBoxLayout, QWidget)")),
            .line .blank] ++
          parts ++
          [.line .blank,
            .line (.code 0 "if __name__ == '__main__':"),
            .line (.code 1 "app = QApplication(sys.argv)"),
            .line (.code 1 ("window = " ++ name described.name ++ "()")),
            .line (.code 1 "window.show()"),
            .line (.code 1 "sys.exit(app.exec_())")])

/-!
## Widgets
-/

private theorem classOf_classOf (kind : String) : ClassOf kind (WidgetWord.classOf kind) := by
  unfold WidgetWord.classOf WidgetWord.find?
  cases found : WidgetWord.all.find? (·.word = kind) with
  | none =>
      rw [List.find?_eq_none] at found
      exact .plain fun entry among same => found entry among (decide_eq_true same)
  | some entry =>
      have same : entry.word = kind := by simpa using List.find?_some found
      subst same
      exact .listed (List.mem_of_find?_eq_some found)

private theorem caption_widgetCaption (attributes : Attributes) :
    Caption attributes (widgetCaption attributes) := by
  unfold widgetCaption
  rcases attributes.find?_cases "text" with ⟨value, read, first⟩ | ⟨missing, lacksText⟩
  · rw [read]
    exact .text first
  rw [missing]
  rcases attributes.find?_cases "label" with ⟨value, read, first⟩ | ⟨missing, lacksLabel⟩
  · rw [read]
    exact .label lacksText first
  · rw [missing]
    exact .none lacksText lacksLabel

private theorem startsIdentifier_iff (character : Char) :
    startsIdentifier character = true ↔ character.isAlpha = true ∨ character = '_' := by
  unfold startsIdentifier Char.isAlpha Char.isUpper Char.isLower
  simp only [Bool.or_eq_true, Bool.and_eq_true, decide_eq_true_eq, Char.le_def]
  tauto

private theorem continuesIdentifier_iff (character : Char) :
    (startsIdentifier character || ('0' ≤ character && character ≤ '9')) = true ↔
      character.isAlphanum = true ∨ character = '_' := by
  have digit : ('0' ≤ character && character ≤ '9') = character.isDigit := rfl
  rw [digit, Bool.or_eq_true, startsIdentifier_iff, Char.isAlphanum, Bool.or_eq_true]
  tauto

private theorem isIdentifier_iff (text : String) : isIdentifier text = true ↔ Dotted text := by
  unfold isIdentifier Dotted
  cases spelled : text.toList with
  | nil => simp
  | cons first rest =>
      rw [Bool.and_eq_true, startsIdentifier_iff, List.all_eq_true]
      simp only [continuesIdentifier_iff]
      constructor
      · rintro ⟨start, each⟩
        exact ⟨first, rest, rfl, start, each⟩
      · rintro ⟨first, rest, same, start, each⟩
        cases same
        exact ⟨start, each⟩

private theorem keeps_identifierBinding (target : String) (value : Expr) :
    Keeps target value (identifierBinding target value) := by
  cases value with
  | text value position =>
      rw [identifierBinding]
      by_cases identifier : isIdentifier value = true
      · rw [if_pos identifier]
        exact .dotted ((isIdentifier_iff value).mp identifier)
      · rw [if_neg identifier]
        exact .quoted fun dotted => identifier ((isIdentifier_iff value).mpr dotted)
  | name value position => exact .name
  | _ => exact .computed (by simp) (by simp)

private theorem exists_attached (depth : Nat) (target : String) (attributes : Attributes) :
    ∃ attached : List String,
      List.Forall₂ (Attaches target)
        (attributes.filter fun entry => entry.1 = "id" ∨ entry.1 = "onClick") attached ∧
      widgetBindings depth target attributes = attached.map (.code depth) := by
  induction attributes with
  | nil => exact ⟨[], .nil, rfl⟩
  | cons entry rest ih =>
      obtain ⟨key, value⟩ := entry
      obtain ⟨attached, each, same⟩ := ih
      unfold widgetBindings at same
      by_cases identifier : key = "id"
      · subst identifier
        refine ⟨identifierBinding target value :: attached, ?_, ?_⟩
        · rw [List.filter_cons_of_pos (by simp)]
          exact .cons (.identifier (keeps_identifierBinding target value)) each
        · simp [widgetBindings, same]
      by_cases click : key = "onClick"
      · subst click
        refine ⟨(target ++ ".clicked.connect(" ++ expression value ++ ")") :: attached, ?_, ?_⟩
        · rw [List.filter_cons_of_pos (by simp)]
          exact .cons .click each
        · simp [widgetBindings, same]
      · refine ⟨attached, ?_, ?_⟩
        · simpa [identifier, click] using each
        · simp [widgetBindings, same, identifier, click]

private theorem builds_widgetLines (depth number : Nat) (widget : Widget) :
    Block.Builds ⟨depth, number, widget, widgetLines depth number widget⟩ := by
  obtain ⟨attached, each, same⟩ := exists_attached depth (widgetName number) widget.attributes
  refine ⟨_, _, attached, classOf_classOf _, caption_widgetCaption _, each, ?_⟩
  simp only [widgetLines, same]
  rfl

/-!
## Parts
-/

/-- Parts that are some lines, and whose blocks build some widgets under the numbers from
`number` on. -/
structure Presents (number : Nat) (described : List Widget) (written : List Line)
    (parts : List Part) : Prop where
  lines : parts.flatMap Part.lines = written
  widgets : (blocksOf parts).map Block.widget = described
  numbers : (blocksOf parts).map Block.number = List.range' number described.length
  builds : ∀ block ∈ blocksOf parts, block.Builds

private theorem Presents.append {number : Nat} {widgets further : List Widget}
    {lines others : List Line} {parts laterParts : List Part}
    (first : Presents number widgets lines parts)
    (second : Presents (number + widgets.length) further others laterParts) :
    Presents number (widgets ++ further) (lines ++ others) (parts ++ laterParts) where
  lines := by rw [List.flatMap_append, first.lines, second.lines]
  widgets := by rw [blocksOf, List.filterMap_append, List.map_append, ← blocksOf, ← blocksOf,
    first.widgets, second.widgets]
  numbers := by rw [blocksOf, List.filterMap_append, List.map_append, ← blocksOf, ← blocksOf,
    first.numbers, second.numbers, List.length_append, List.range'_append_1]
  builds := by
    rw [blocksOf, List.filterMap_append]
    exact List.forall_mem_append.mpr ⟨first.builds, second.builds⟩

private theorem Presents.ofLines (number : Nat) (lines : List Line) :
    Presents number [] lines (lines.map .line) := by
  have none : blocksOf (lines.map .line) = [] := by
    rw [blocksOf, List.filterMap_map, List.filterMap_eq_nil_iff]
    intro line _
    rfl
  refine ⟨?_, ?_, ?_, ?_⟩
  · rw [List.flatMap_map]
    exact List.flatMap_singleton' lines
  · rw [none, List.map_nil]
  · rw [none]
    rfl
  · simp [none]

private theorem Presents.surround {number : Nat} {widgets : List Widget} {lines : List Line}
    {parts : List Part} (inner : Presents number widgets lines parts) (before behind : List Line) :
    Presents number widgets (before ++ lines ++ behind)
      (before.map .line ++ parts ++ behind.map .line) := by
  have whole := ((Presents.ofLines number before).append inner).append (.ofLines _ behind)
  rwa [List.append_nil] at whole

/-- The lines of several widgets are blocks with the numbers from the first on. -/
private theorem exists_blocks (depth number : Nat) (widgets : List Widget) :
    ∃ blocks : List Block, blocks.map Block.widget = widgets ∧
      (∀ block ∈ blocks, block.depth = depth) ∧
      Presents number widgets (widgetsLines depth number widgets) (blocks.map .block) := by
  induction widgets generalizing number with
  | nil => exact ⟨[], rfl, by simp, .ofLines number []⟩
  | cons widget rest ih =>
      obtain ⟨blocks, widgets, depths, presents⟩ := ih (number + 1)
      let first : Block := ⟨depth, number, widget, widgetLines depth number widget⟩
      have alone : Presents number [widget] first.lines [.block first] := by
        refine ⟨List.append_nil _, rfl, rfl, ?_⟩
        change ∀ block ∈ [first], block.Builds
        exact List.forall_mem_singleton.mpr (builds_widgetLines depth number widget)
      refine ⟨first :: blocks, ?_, ?_, alone.append presents⟩
      · rw [List.map_cons, widgets]
      · exact List.forall_mem_cons.mpr ⟨rfl, depths⟩

/-!
## Interfaces
-/

private theorem guiWidgets_eq (described : Gui) :
    guiWidgets described = Element.widgetsOf described.elements := by
  unfold guiWidgets
  induction described.elements with
  | nil => rfl
  | cons part rest ih =>
      rw [List.flatMap_cons, ih]
      cases part <;> rfl

private theorem exists_windowSetup_eq (depth : Nat) (window : Window) :
    ∃ title size, Titles depth window title ∧ Sizes depth window size ∧
      windowSetup depth window = title ++ size := by
  refine ⟨_, _, ?_, ?_, rfl⟩
  · rcases window.attributes.find?_cases "title" with ⟨value, read, first⟩ | ⟨missing, lacks⟩
    · rw [read]
      exact .title first
    · rw [missing]
      exact .none lacks
  · rcases window.attributes.find?_cases "width" with ⟨width, readWidth, first⟩ | ⟨missing, lacks⟩
    · rcases window.attributes.find?_cases "height" with ⟨height, read, second⟩ | ⟨missing, lacks⟩
      · rw [readWidth, read]
        exact .size first second
      · rw [readWidth, missing]
        exact .none (.inr lacks)
    · rw [missing]
      exact .none (.inl lacks)

private theorem setsUp_elementSetup (depth : Nat) (elements : List Element) :
    SetsUp depth elements (elements.flatMap (elementSetup depth)) := by
  induction elements with
  | nil => exact .nil
  | cons part rest ih =>
      rw [List.flatMap_cons]
      cases part with
      | widget part => exact .widget ih
      | window part =>
          obtain ⟨title, size, titles, sizes, same⟩ := exists_windowSetup_eq depth part
          rw [elementSetup, same]
          exact .window titles sizes ih

private theorem laysOut_layoutLines (depth : Nat) (elements : List Element) :
    LaysOut depth elements (if elements.isEmpty then [] else layoutLines depth) := by
  cases elements with
  | nil => exact .none
  | cons first rest => exact .layout

private theorem exists_shows_gui (depth number : Nat) (described : Gui) :
    ∃ parts, Shows depth (.gui described) parts ∧
      Presents number (Element.widgetsOf described.elements) (guiLines depth number described)
        parts := by
  obtain ⟨blocks, widgets, depths, presents⟩ :=
    exists_blocks (depth + 2) number (guiWidgets described)
  rw [guiWidgets_eq] at widgets presents
  refine ⟨_, .gui (setsUp_elementSetup _ _) (laysOut_layoutLines _ _) widgets depths, ?_⟩
  have whole := presents.surround
    (.code depth ("class " ++ name described.name ++ "(QMainWindow):") ::
      .code (depth + 1) "def __init__(self):" ::
      .code (depth + 2) "super().__init__()" ::
      (described.elements.flatMap (elementSetup (depth + 2)) ++
        if described.elements.isEmpty then [] else layoutLines (depth + 2)))
    [.blank]
  simpa [guiLines, guiWidgets_eq] using whole

/-!
## Statements
-/

private theorem length_widgetsOf {statements : List Statement}
    (each : ∀ statement ∈ statements, widgetCount statement = statement.widgets.length) :
    widgetCounts statements = (Statement.widgetsOf statements).length := by
  induction statements with
  | nil => rfl
  | cons first rest ih =>
      obtain ⟨firstEach, restEach⟩ := List.forall_mem_cons.mp each
      rw [widgetCounts, Statement.widgetsOf, List.length_append, firstEach, ih restEach]

private theorem widgetCount_eq (statement : Statement) :
    widgetCount statement = statement.widgets.length := by
  induction statement using Statement.structural with
  | binding | returning | expression => rfl
  | gui described => rw [widgetCount, Statement.widgets, guiWidgets_eq]
  | function callee parameters body position bodyIH => exact length_widgetsOf bodyIH

private theorem exists_showsAll {statements : List Statement}
    (each : ∀ statement ∈ statements, ∀ depth number, ∃ parts, Shows depth statement parts ∧
      Presents number statement.widgets (statementLines depth number statement) parts)
    (depth number : Nat) :
    ∃ parts, ShowsAll depth statements parts ∧
      Presents number (Statement.widgetsOf statements)
        (statementsLines depth number statements) parts := by
  induction statements generalizing number with
  | nil => exact ⟨[], .nil, .ofLines number []⟩
  | cons first rest ih =>
      obtain ⟨firstEach, restEach⟩ := List.forall_mem_cons.mp each
      obtain ⟨parts, shows, presents⟩ := firstEach depth number
      obtain ⟨others, showsOthers, presentsOthers⟩ := ih restEach (number + widgetCount first)
      rw [widgetCount_eq] at presentsOthers
      refine ⟨parts ++ others, .cons shows showsOthers, ?_⟩
      rw [Statement.widgetsOf, statementsLines, widgetCount_eq]
      exact presents.append presentsOthers

private theorem exists_shows (statement : Statement) : ∀ depth number,
    ∃ parts, Shows depth statement parts ∧
      Presents number statement.widgets (statementLines depth number statement) parts := by
  induction statement using Statement.structural with
  | binding => exact fun depth number => ⟨_, .binding, .ofLines number [_]⟩
  | returning => exact fun depth number => ⟨_, .returning, .ofLines number [_]⟩
  | expression => exact fun depth number => ⟨_, .expression, .ofLines number [_]⟩
  | gui described => exact fun depth number => exists_shows_gui depth number described
  | function callee parameters body position bodyIH =>
      intro depth number
      cases body with
      | nil => exact ⟨_, .emptyFunction, .ofLines number [_, _, _]⟩
      | cons first rest =>
          obtain ⟨parts, shows, presents⟩ := exists_showsAll bodyIH (depth + 1) number
          exact ⟨_, .function shows, presents.surround [_] [.blank]⟩

private theorem firstGui?_cases (program : Program) :
    (firstGui? program = none ∧ ∀ described, .gui described ∉ program) ∨
      ∃ before described behind, firstGui? program = some described ∧
        program = before ++ .gui described :: behind ∧ ∀ other, .gui other ∉ before := by
  induction program with
  | nil => exact .inl ⟨rfl, by simp⟩
  | cons first rest ih =>
      by_cases gui : ∃ described, first = .gui described
      · obtain ⟨described, rfl⟩ := gui
        exact .inr ⟨[], described, rest, rfl, rfl, by simp⟩
      · have passed : firstGui? (first :: rest) = firstGui? rest := by
          cases first with
          | gui described => exact absurd ⟨described, rfl⟩ gui
          | _ => rfl
        rw [passed]
        rcases ih with ⟨none, without⟩ | ⟨before, described, behind, found, rfl, without⟩
        · refine .inl ⟨none, fun described member => ?_⟩
          rcases List.mem_cons.mp member with same | later
          · exact gui ⟨described, same.symm⟩
          · exact without described later
        · refine .inr ⟨first :: before, described, behind, found, rfl, fun other member => ?_⟩
          rcases List.mem_cons.mp member with same | later
          · exact gui ⟨other, same.symm⟩
          · exact without other later

private theorem exists_showsProgram (program : Program) :
    ∃ parts, ShowsProgram program parts ∧
      Presents 0 (Statement.widgetsOf program) (programLines program) parts := by
  obtain ⟨parts, shows, presents⟩ :=
    exists_showsAll (fun statement (_ : statement ∈ program) => exists_shows statement) 0 0
  unfold programLines
  rcases firstGui?_cases program with ⟨none, without⟩ | ⟨_, described, _, found, split, without⟩
  · rw [none]
    exact ⟨parts, .plain without shows, presents⟩
  · rw [found]
    exact ⟨_, .opening split without shows, presents.surround preamble (epilogue described)⟩

/-- The text of a program is that of its statements, with one block of lines for each widget of the
program, in the order in which the widgets stand in it and with the numbers from zero on. The blocks
of an interface stand behind the one layout of its class. Each builds its widget from the toolkit
class of its kind, then attaches what its attributes say, in their order, and adds it to the
layout. -/
theorem widgets_built_once_in_order (program : Program) :
    ∃ parts : List Part,
      generate program = Line.render (parts.flatMap Part.lines) ∧
      ShowsProgram program parts ∧
      (blocksOf parts).map Block.widget = Statement.widgetsOf program ∧
      (blocksOf parts).map Block.number = List.range (Statement.widgetsOf program).length ∧
      ∀ block ∈ blocksOf parts, block.Builds := by
  obtain ⟨parts, shows, presents⟩ := exists_showsProgram program
  refine ⟨parts, ?_, shows, presents.widgets, ?_, presents.builds⟩
  · rw [generate_eq, presents.lines]
  · rw [presents.numbers, List.range_eq_range']

end Python

end WindowScript
