import Mathlib
import WindowScript.Proofs.Python.Delimiters
import WindowScript.Proofs.Python.Lines

/-!
# Blocks of a Python program

The lines of a program make up a forest: under a line that ends in a colon stand the lines
of its block, one level deeper. A function is a block of its body and an interface is a
block of its constructor. Each line stays a line when the program is rendered, and closes
the quotes and brackets that it opens.
-/

set_option autoImplicit false

namespace WindowScript.Python

/-- A line of code with the lines of its block. -/
inductive Tree where
  | node (text : String) (children : List Tree)

def Tree.leaf (text : String) : Tree := .node text []

/-- The lines of a statement: a function with its body, an interface with its constructor,
and one line for anything else. -/
inductive Outlines : Statement → Tree → Prop where
  | binding {bound value position} :
      Outlines (.binding bound value position) (.leaf (name bound ++ " = " ++ expression value))
  | function {callee parameters body position children} :
      body ≠ [] → List.Forall₂ Outlines body children →
      Outlines (.function callee parameters body position)
        (.node ("def " ++ name callee ++ "(" ++ separated (parameters.map name) ++ "):") children)
  | emptyFunction {callee parameters position} :
      Outlines (.function callee parameters [] position)
        (.node ("def " ++ name callee ++ "(" ++ separated (parameters.map name) ++ "):")
          [.leaf "pass"])
  | returning {value position} :
      Outlines (.returning value position) (.leaf ("return " ++ expression value))
  | gui {described : Gui} {texts : List String} :
      Outlines (.gui described) (.node ("class " ++ name described.name ++ "(QMainWindow):")
        [.node "def __init__(self):" (texts.map .leaf)])
  | expression {value position} :
      Outlines (.expression value position) (.leaf (expression value))

/-!
## Lines of code
-/

/-- A text that begins with a visible character. -/
def Begins (text : String) : Prop := text.toList.head?.any (· ≠ ' ') = true

instance (text : String) : Decidable (Begins text) :=
  inferInstanceAs (Decidable (_ = true))

private theorem Begins.append {left : String} (begins : Begins left) (right : String) :
    Begins (left ++ right) := by
  unfold Begins at *
  rw [String.toList_append]
  cases spelled : left.toList with
  | nil => rw [spelled] at begins; cases begins
  | cons first rest => rw [spelled] at begins; exact begins

/-- A line of code under which no block stands. -/
structure IsPlain (text : String) : Prop extends Fits text where
  begins : Begins text

/-- The first line of a block. -/
structure IsHeader (text : String) : Prop where
  begins : Begins text
  contained : Contained text
  last : text.toList.getLast? = some ':'

/-- Lines at some depth that make up trees. A header stands right above its block. -/
inductive Lays : Nat → List Line → List Tree → Prop where
  | nil {depth} : Lays depth [] []
  | blank {depth lines trees} : Lays depth lines trees → Lays depth (.blank :: lines) trees
  | leaf {depth text lines trees} : IsPlain text → Lays depth lines trees →
      Lays depth (.code depth text :: lines) (.leaf text :: trees)
  | block {depth text first inner children lines trees} : IsHeader text →
      Lays (depth + 1) (.code (depth + 1) first :: inner) children → Lays depth lines trees →
      Lays depth (.code depth text :: .code (depth + 1) first :: (inner ++ lines))
        (.node text children :: trees)

private theorem Lays.append {depth : Nat} {left right : List Line} {trees others : List Tree}
    (begun : Lays depth left trees) (ended : Lays depth right others) :
    Lays depth (left ++ right) (trees ++ others) := by
  induction begun with
  | nil => exact ended
  | blank _ ih => exact .blank (ih ended)
  | leaf plain _ ih => exact .leaf plain (ih ended)
  | block header inner _ _ ih =>
      simp only [List.cons_append, List.append_assoc]
      exact .block header inner (ih ended)

/-- A line that has no part in any block but that around it. -/
def IsFlat (depth : Nat) (line : Line) : Prop :=
  line = .blank ∨ ∃ text, line = .code depth text ∧ IsPlain text

private theorem IsPlain.flat {text : String} (plain : IsPlain text) (depth : Nat) :
    IsFlat depth (.code depth text) := .inr ⟨text, rfl, plain⟩

private theorem exists_lays_of_flat {depth : Nat} {lines : List Line}
    (each : ∀ line ∈ lines, IsFlat depth line) :
    ∃ texts : List String, Lays depth lines (texts.map .leaf) := by
  induction lines with
  | nil => exact ⟨[], .nil⟩
  | cons line rest ih =>
      obtain ⟨here, later⟩ := List.forall_mem_cons.mp each
      obtain ⟨texts, lays⟩ := ih later
      rcases here with rfl | ⟨text, rfl, plain⟩
      · exact ⟨texts, .blank lays⟩
      · exact ⟨text :: texts, .leaf plain lays⟩

/-!
## The texts of lines
-/

section

variable {between : List Char} {left right : String}

/-- A line is plain when its last part is closed by something else than a colon. -/
theorem isPlain_append (begins : Begins left) (begun : Takes [] between left)
    (ended : Takes between [] right) {character : Char}
    (last : right.toList.getLast? = some character) (other : character ≠ ':') :
    IsPlain (left ++ right) where
  toFits := fits_append begun ended last other
  begins := begins.append right

private theorem isPlain_append_plain (begins : Begins left) (begun : Contained left)
    (plain : IsPlain right) : IsPlain (left ++ right) := by
  obtain ⟨⟨contained, last⟩, visible⟩ := plain
  cases ends : right.toList.getLast? with
  | none =>
      rw [List.getLast?_eq_none_iff] at ends
      rw [Begins, ends] at visible
      cases visible
  | some character =>
      exact isPlain_append begins begun contained ends fun colon => last (colon ▸ ends)

end

private theorem begins_name {text : String} (word : IsWord text.toList) :
    Begins (name text) := by
  obtain ⟨first, rest, spelled, starts, _⟩ := exists_toList_name word
  have visible : first ≠ ' ' := by rintro rfl; cases starts
  simpa [Begins, spelled] using visible

private theorem isPlain_expression {item : Expr} (made : item.MadeOf Token.Spelled) :
    IsPlain (expression item) := by
  refine ⟨fits_expression made, ?_⟩
  obtain ⟨first, rest, spelled, opens⟩ := (written_of_direct made.direct).opens
  rw [expression_desugar] at spelled
  have visible : first ≠ ' ' := by rintro rfl; exact opens (by decide)
  simpa [Begins, spelled] using visible

private theorem contained_assign : Contained " = " := contained_of_neutral (by decide)

/-- A call of something by a fixed name. -/
theorem isPlain_fixedCall {fragment inside : String} (begins : Begins fragment)
    (opened : Takes [] [')'] fragment) (contained : Contained inside) :
    IsPlain (fragment ++ inside ++ ")") :=
  isPlain_append (begins.append inside) (opened.append (contained.within _)) takes_closing rfl
    (by decide)

private theorem madeOf_find? {allowed : Token → Prop} {attributes : Attributes}
    (made : attributes.MadeOf allowed) {key : String} {value : Expr}
    (found : Attributes.find? key attributes = some value) : value.MadeOf allowed := by
  induction attributes with
  | nil => cases found
  | cons entry rest ih =>
      obtain ⟨head, tail⟩ := List.forall_mem_cons.mp made
      unfold Attributes.find? at found
      split at found
      · cases found
        exact head.2
      · exact ih tail found

private theorem flat_windowSetup {window : Window} (made : window.attributes.MadeOf Token.Spelled)
    (depth : Nat) : ∀ line ∈ windowSetup depth window, IsFlat depth line := by
  unfold windowSetup
  rw [List.forall_mem_append]
  constructor
  · split
    · next title found =>
        rw [List.forall_mem_singleton]
        exact (isPlain_fixedCall (by decide) ⟨by decide, fun _ => rfl⟩
          (fits_expression (madeOf_find? made found)).contained).flat depth
    · simp
  · split
    · next width height foundWidth foundHeight =>
        have opened : Takes [] [')'] "self.setGeometry(100, 100, " := ⟨by decide, fun _ => rfl⟩
        have sized := opened.append
          ((fits_expression (madeOf_find? made foundWidth)).contained.within [')'])
        rw [List.forall_mem_singleton]
        refine IsPlain.flat (isPlain_fixedCall ?_ (sized.append (contained_comma.within _))
          (fits_expression (madeOf_find? made foundHeight)).contained) depth
        exact Begins.append (Begins.append (by decide) _) _
    · simp

theorem toList_widgetName (number : Nat) : (widgetName number).toList =
    ['w', 'i', 'd', 'g', 'e', 't', '_'] ++ Nat.toDigits 10 number := by
  simp [widgetName, toString, Nat.repr_eq_ofList_toDigits]

private theorem isPlain_widgetName (number : Nat) : IsPlain (widgetName number) := by
  refine ⟨fits_of_neutral ?_, by rw [Begins, toList_widgetName]; rfl⟩
  rw [toList_widgetName, List.all_append, Bool.and_eq_true]
  refine ⟨by decide, List.all_eq_true.mpr fun character member => ?_⟩
  exact isNeutral_of_isNumeralCharacter ((Real.digits_toDigits number).numeric character member)

private theorem contained_classOf (kind : String) : Contained (WidgetWord.classOf kind) := by
  have all : ∀ entry ∈ WidgetWord.all, entry.toolkitClass.toList.all isNeutral = true := by decide
  unfold WidgetWord.classOf
  cases found : WidgetWord.find? kind with
  | none => exact contained_of_neutral (by decide)
  | some entry => exact contained_of_neutral (all entry (List.mem_of_find?_eq_some found))

private theorem isNeutral_of_isIdentifier {value : String}
    (identifier : isIdentifier value = true) : value.toList.all isNeutral = true := by
  unfold isIdentifier at identifier
  split at identifier
  · cases identifier
  · next first rest spelled =>
      rw [Bool.and_eq_true, List.all_eq_true] at identifier
      rw [spelled, List.all_eq_true, List.forall_mem_cons]
      have named : Reader.isNameCharacter first = true := by
        simp [Reader.isNameCharacter, identifier.1]
      refine ⟨isNeutral_of_isNameCharacter named, fun character member => ?_⟩
      exact isNeutral_of_isNameCharacter (identifier.2 character member)

/-- A widget is kept as an attribute under a name, or under what a text evaluates to. -/
theorem identifierBinding_cases {value : Expr} (made : value.MadeOf Token.Spelled)
    (target : String) :
    ∃ inside, (identifierBinding target value = "self." ++ inside ++ " = " ++ target ∧
        inside.toList.all isNeutral = true) ∨
      (identifierBinding target value = "setattr(self, " ++ inside ++ ", " ++ target ++ ")" ∧
        Contained inside) := by
  have contained := (fits_expression made).contained
  cases value with
  | text value position =>
      rw [identifierBinding]
      split
      · next identifier => exact ⟨value, .inl ⟨rfl, isNeutral_of_isIdentifier identifier⟩⟩
      · exact ⟨literal value, .inr ⟨rfl, contained⟩⟩
  | name label position =>
      cases made with
      | name spelled => exact ⟨name label, .inl ⟨rfl, neutral_name (spelled.isWord rfl)⟩⟩
  | _ => exact ⟨_, .inr ⟨rfl, contained⟩⟩

private theorem isPlain_identifierBinding {value : Expr} (made : value.MadeOf Token.Spelled)
    {target : String} (plain : IsPlain target) : IsPlain (identifierBinding target value) := by
  obtain ⟨inside, ⟨text, neutral⟩ | ⟨text, contained⟩⟩ := identifierBinding_cases made target
  · have dotted : Contained "self." := contained_of_neutral (by decide)
    rw [text]
    exact isPlain_append_plain (Begins.append (Begins.append (by decide) inside) _)
      ((dotted.append (contained_of_neutral neutral)).append contained_assign) plain
  · have opened : Takes [] [')'] "setattr(self, " := ⟨by decide, fun _ => rfl⟩
    rw [text]
    exact isPlain_fixedCall (Begins.append (Begins.append (by decide) inside) _)
      ((opened.append (contained.within _)).append (contained_comma.within _)) plain.contained

private theorem flat_widgetBindings {attributes : Attributes}
    (made : attributes.MadeOf Token.Spelled) (depth : Nat) {target : String}
    (plain : IsPlain target) :
    ∀ line ∈ widgetBindings depth target attributes, IsFlat depth line := by
  intro line member
  unfold widgetBindings at member
  obtain ⟨⟨key, value⟩, held, found⟩ := List.mem_filterMap.mp member
  have valueMade := (made _ held).2
  dsimp only at found
  split at found
  · cases found
    exact (isPlain_identifierBinding valueMade plain).flat depth
  · split at found
    · cases found
      have opened : Takes [] [')'] ".clicked.connect(" := ⟨by decide, fun _ => rfl⟩
      exact (isPlain_fixedCall (plain.begins.append _) (plain.contained.append opened)
        (fits_expression valueMade).contained).flat depth
    · cases found

private theorem contained_widgetCaption {attributes : Attributes}
    (made : attributes.MadeOf Token.Spelled) : Contained (widgetCaption attributes) := by
  unfold widgetCaption
  split
  · next caption found => exact (fits_expression (madeOf_find? made found)).contained
  · split
    · next caption found => exact (fits_expression (madeOf_find? made found)).contained
    · exact ⟨by decide, fun _ => rfl⟩

private theorem flat_widgetLines {widget : Widget} (made : widget.MadeOf Token.Spelled)
    (depth number : Nat) : ∀ line ∈ widgetLines depth number widget, IsFlat depth line := by
  have target := isPlain_widgetName number
  unfold widgetLines
  simp only [List.cons_append, List.forall_mem_cons, List.forall_mem_append]
  refine ⟨?_, flat_widgetBindings made.2 depth target, ?_, .inl rfl, by simp⟩
  · have built := ((target.contained.append contained_assign).append
      (contained_classOf widget.kind)).append takes_opening
    refine IsPlain.flat (isPlain_fixedCall ?_ built (contained_widgetCaption made.2)) depth
    exact ((target.begins.append _).append _).append _
  · exact (isPlain_fixedCall (by decide) ⟨by decide, fun _ => rfl⟩ target.contained).flat depth

theorem forall_mem_widgetsLines {property : Line → Prop} {widgets : List Widget} {depth : Nat}
    (each : ∀ widget ∈ widgets, ∀ number, ∀ line ∈ widgetLines depth number widget, property line)
    (number : Nat) : ∀ line ∈ widgetsLines depth number widgets, property line := by
  induction widgets generalizing number with
  | nil => simp [widgetsLines]
  | cons widget rest ih =>
      obtain ⟨first, later⟩ := List.forall_mem_cons.mp each
      rw [widgetsLines, List.forall_mem_append]
      exact ⟨first number, ih later (number + 1)⟩

private theorem flat_layoutLines (depth : Nat) : ∀ line ∈ layoutLines depth, IsFlat depth line := by
  simp only [layoutLines, List.forall_mem_cons]
  refine ⟨.inl rfl, ?_, ?_, ?_, ?_, .inl rfl, by simp⟩
  all_goals exact IsPlain.flat ⟨⟨⟨by decide, fun _ => rfl⟩, by decide⟩, by decide⟩ depth

/-!
## Statements
-/

private theorem isHeader_append {between : List Char} {left right : String} (begins : Begins left)
    (begun : Takes [] between left) (ended : Takes between [] right)
    (last : right.toList.getLast? = some ':') : IsHeader (left ++ right) where
  begins := begins.append right
  contained := begun.append ended
  last := by rw [String.toList_append, List.getLast?_append, last, Option.some_or]

private theorem isHeader_class {label : String} (word : IsWord label.toList) :
    IsHeader ("class " ++ name label ++ "(QMainWindow):") := by
  have introduced : Contained "class " := contained_of_neutral (by decide)
  exact isHeader_append (Begins.append (by decide) _)
    (introduced.append (contained_of_neutral (neutral_name word))) ⟨by decide, fun _ => rfl⟩ rfl

private theorem isHeader_function {callee : String} {parameters : List String}
    (word : IsWord callee.toList) (words : ∀ parameter ∈ parameters, IsWord parameter.toList) :
    IsHeader ("def " ++ name callee ++ "(" ++ separated (parameters.map name) ++ "):") := by
  have introduced : Contained "def " := contained_of_neutral (by decide)
  have inside : Contained (separated (parameters.map name)) := by
    apply contained_separated
    rw [List.forall_mem_map]
    exact fun parameter member => contained_of_neutral (neutral_name (words parameter member))
  have begun := (introduced.append (contained_of_neutral (neutral_name word))).append takes_opening
  exact isHeader_append (((Begins.append (by decide) _).append _).append _)
    (begun.append (inside.within _)) ⟨by decide, fun _ => rfl⟩ rfl

private theorem flat_elementSetup {part : Element} (made : part.MadeOf Token.Spelled)
    (depth : Nat) : ∀ line ∈ elementSetup depth part, IsFlat depth line := by
  cases made with
  | window attributes _ => exact flat_windowSetup attributes depth
  | widget _ => simp [elementSetup]

theorem madeOf_guiWidgets {described : Gui}
    (made : ∀ part ∈ described.elements, part.MadeOf Token.Spelled) :
    ∀ widget ∈ guiWidgets described, widget.MadeOf Token.Spelled := by
  intro widget member
  obtain ⟨part, held, inside⟩ := List.mem_flatMap.mp member
  cases made part held with
  | window _ children => exact children widget inside
  | widget madeWidget => exact List.mem_singleton.mp inside ▸ madeWidget

private theorem lays_gui {described : Gui} (word : IsWord described.name.toList)
    (made : ∀ part ∈ described.elements, part.MadeOf Token.Spelled) (depth number : Nat) :
    ∃ texts : List String, Lays depth (guiLines depth number described)
      [.node ("class " ++ name described.name ++ "(QMainWindow):")
        [.node "def __init__(self):" (texts.map .leaf)]] := by
  let inside := described.elements.flatMap (elementSetup (depth + 2)) ++
    (if described.elements.isEmpty then [] else layoutLines (depth + 2)) ++
    widgetsLines (depth + 2) number (guiWidgets described) ++ [.blank]
  have super : IsPlain "super().__init__()" :=
    ⟨⟨⟨by decide, fun _ => rfl⟩, by decide⟩, by decide⟩
  have flat : ∀ line ∈ inside, IsFlat (depth + 2) line := by
    simp only [inside, List.forall_mem_append, List.forall_mem_singleton]
    refine ⟨⟨⟨?_, ?_⟩, forall_mem_widgetsLines (fun widget member => ?_) number⟩, .inl rfl⟩
    · intro line member
      obtain ⟨part, held, among⟩ := List.mem_flatMap.mp member
      exact flat_elementSetup (made part held) _ line among
    · split
      · simp
      · exact flat_layoutLines _
    · exact flat_widgetLines (madeOf_guiWidgets made widget member) _
  obtain ⟨texts, lays⟩ := exists_lays_of_flat flat
  have header : IsHeader "def __init__(self):" := ⟨by decide, ⟨by decide, fun _ => rfl⟩, by decide⟩
  have inner := Lays.block header (.leaf super lays) .nil
  have whole := Lays.block (isHeader_class word) inner .nil
  refine ⟨"super().__init__()" :: texts, ?_⟩
  simpa [guiLines, inside] using whole

private theorem lays_statements {statements : List Statement}
    (each : ∀ statement ∈ statements, ∀ depth number, ∃ tree, Outlines statement tree ∧
      Lays depth (statementLines depth number statement) [tree]) (depth number : Nat) :
    ∃ trees, List.Forall₂ Outlines statements trees ∧
      Lays depth (statementsLines depth number statements) trees := by
  induction statements generalizing number with
  | nil => exact ⟨[], .nil, .nil⟩
  | cons statement rest ih =>
      obtain ⟨first, later⟩ := List.forall_mem_cons.mp each
      obtain ⟨tree, outlines, lays⟩ := first depth number
      obtain ⟨trees, outlined, laid⟩ := ih later (number + widgetCount statement)
      exact ⟨tree :: trees, .cons outlines outlined, lays.append laid⟩

/-- No statement begins with a blank line. -/
theorem exists_statementsLines_eq {statements : List Statement} (nonempty : statements ≠ [])
    (depth number : Nat) :
    ∃ first rest, statementsLines depth number statements = .code depth first :: rest := by
  obtain ⟨statement, others, rfl⟩ := List.exists_cons_of_ne_nil nonempty
  cases statement <;> exact ⟨_, _, rfl⟩

private theorem lays_statement {statement : Statement} (made : statement.MadeOf Token.Spelled)
    (depth number : Nat) :
    ∃ tree, Outlines statement tree ∧ Lays depth (statementLines depth number statement) [tree] := by
  induction statement using Statement.structural generalizing depth number with
  | binding bound value position =>
      cases made with
      | binding word valueMade =>
          have named := word.isWord rfl
          refine ⟨_, .binding, .leaf (isPlain_append_plain ?_ ?_ (isPlain_expression valueMade)) .nil⟩
          · exact (begins_name named).append _
          · exact (contained_of_neutral (neutral_name named)).append contained_assign
  | function callee parameters body position bodyIH =>
      cases made with
      | function word words bodyMade =>
          have header := isHeader_function (word.isWord rfl) fun parameter member =>
            (words parameter member).isWord rfl
          have blank : Lays depth [.blank] [] := .blank .nil
          by_cases empty : body = []
          · subst empty
            have pass : IsPlain "pass" := ⟨fits_of_neutral (by decide), by decide⟩
            exact ⟨_, .emptyFunction, .block header (.leaf pass .nil) blank⟩
          · obtain ⟨trees, outlined, laid⟩ := lays_statements
              (fun statement member => bodyIH statement member (bodyMade statement member))
              (depth + 1) number
            obtain ⟨first, rest, lines⟩ := exists_statementsLines_eq empty (depth + 1) number
            refine ⟨_, .function empty outlined, ?_⟩
            rw [lines] at laid
            rw [statementLines, if_neg (by simpa using empty), lines]
            exact .block header laid blank
  | returning value position =>
      cases made with
      | returning valueMade =>
          refine ⟨_, .returning, .leaf (isPlain_append_plain (by decide) ?_
            (isPlain_expression valueMade)) .nil⟩
          exact contained_of_neutral (by decide)
  | gui described =>
      cases made with
      | gui word parts =>
          obtain ⟨texts, lays⟩ := lays_gui (word.isWord rfl) parts depth number
          exact ⟨_, .gui, lays⟩
  | expression value position =>
      cases made with
      | expression valueMade => exact ⟨_, .expression, .leaf (isPlain_expression valueMade) .nil⟩

/-!
## Programs
-/

/-- The lines above the statements of a program that describes an interface. -/
def preambleTrees : List Tree :=
  [.leaf "#!/usr/bin/env python3", .leaf "import sys",
    .leaf ("from PyQt5.QtWidgets import (" ++ separated toolkitClasses ++ ")")]

/-- The block below the statements of a program that describes an interface. -/
def epilogueTree (gui : Gui) : Tree :=
  .node "if __name__ == '__main__':"
    [.leaf "app = QApplication(sys.argv)", .leaf ("window = " ++ name gui.name ++ "()"),
      .leaf "window.show()", .leaf "sys.exit(app.exec_())"]

private theorem lays_preamble : Lays 0 preamble preambleTrees := by
  have classes : Contained (separated toolkitClasses) := by
    have each : ∀ text ∈ toolkitClasses, text.toList.all isNeutral = true := by decide +kernel
    exact contained_separated fun text member => contained_of_neutral (each text member)
  refine .leaf ⟨fits_of_neutral (by decide), by decide⟩
    (.leaf ⟨fits_of_neutral (by decide), by decide⟩ (.leaf ?_ (.blank .nil)))
  exact isPlain_fixedCall (by decide) ⟨by decide, fun _ => rfl⟩ classes

private theorem lays_epilogue {gui : Gui} (word : IsWord gui.name.toList) :
    Lays 0 (epilogue gui) [epilogueTree gui] := by
  have header : IsHeader "if __name__ == '__main__':" :=
    ⟨by decide, ⟨by decide, fun _ => rfl⟩, by decide⟩
  have assigned : Contained "window = " := contained_of_neutral (by decide)
  have opened : IsPlain ("window = " ++ name gui.name ++ "()") :=
    isPlain_append (Begins.append (by decide) _)
      (assigned.append (contained_of_neutral (neutral_name word))) ⟨by decide, fun _ => rfl⟩ rfl
      (by decide)
  refine .blank (.block header (.leaf ?_ (.leaf opened (.leaf ?_ (.leaf ?_ .nil)))) .nil)
  all_goals exact ⟨⟨⟨by decide, fun _ => rfl⟩, by decide⟩, by decide⟩

private theorem mem_of_firstGui? {program : Program} {gui : Gui}
    (found : firstGui? program = some gui) : .gui gui ∈ program := by
  induction program with
  | nil => cases found
  | cons statement rest ih =>
      cases statement with
      | gui described => cases found; exact .head _
      | _ => exact .tail _ (ih found)

/-- The trees of a program around those of its statements, which stand alone where no
interface is described. -/
def framed (program : Program) (trees : List Tree) : List Tree :=
  match firstGui? program with
  | some gui => preambleTrees ++ trees ++ [epilogueTree gui]
  | none => trees

theorem lays_programLines {program : Program}
    (made : ∀ statement ∈ program, statement.MadeOf Token.Spelled) :
    ∃ trees, List.Forall₂ Outlines program trees ∧
      Lays 0 (programLines program) (framed program trees) := by
  obtain ⟨trees, outlined, laid⟩ := lays_statements
    (fun statement member => lays_statement (made statement member)) 0 0
  refine ⟨trees, outlined, ?_⟩
  unfold programLines framed
  cases found : firstGui? program with
  | none => exact laid
  | some gui =>
      cases made _ (mem_of_firstGui? found) with
      | gui word _ => exact (lays_preamble.append laid).append (lays_epilogue (word.isWord rfl))

/-!
## Rendered lines
-/

private theorem splitOn_join {texts : List String} (inline : ∀ text ∈ texts, '\n' ∉ text.toList) :
    (String.join (texts.map (· ++ "\n"))).toList.splitOn '\n' = texts.map String.toList ++ [[]] := by
  -- Newlines stand between the lines and the empty rest behind the last one.
  have spelled : (String.join (texts.map (· ++ "\n"))).toList =
      ['\n'].intercalate (texts.map String.toList ++ [[]]) := by
    clear inline
    rw [String.toList_join]
    induction texts with
    | nil => rfl
    | cons text rest ih =>
        rw [List.map_cons, List.map_cons, List.cons_append,
          List.intercalate_cons_of_ne_nil (by simp), ← ih]
        simp
  rw [spelled, List.splitOn_intercalate _ _ (by simp)]
  rw [List.forall_mem_append, List.forall_mem_map, List.forall_mem_singleton]
  exact ⟨inline, by simp⟩

/-- Lines without those blank ones that have an empty line before them. -/
def keptLines (behindEmpty : Bool) : List Line → List Line
  | [] => []
  | .blank :: rest => if behindEmpty then keptLines true rest else .blank :: keptLines true rest
  | .code depth text :: rest => .code depth text :: keptLines (depth = 0 && text.isEmpty) rest

theorem settle_eq (behindEmpty : Bool) (lines : List Line) :
    Line.settle behindEmpty lines = (keptLines behindEmpty lines).map Line.text := by
  induction lines generalizing behindEmpty with
  | nil => rfl
  | cons line rest ih =>
      cases line with
      | blank => cases behindEmpty <;> simp [Line.settle, keptLines, ih, Line.text]
      | code depth text => simp [Line.settle, keptLines, ih]

private theorem exists_keptLines_append (behindEmpty : Bool) (left right : List Line) :
    ∃ behind, keptLines behindEmpty (left ++ right) =
      keptLines behindEmpty left ++ keptLines behind right := by
  induction left generalizing behindEmpty with
  | nil => exact ⟨behindEmpty, rfl⟩
  | cons line rest ih =>
      cases line with
      | blank =>
          obtain ⟨behind, shape⟩ := ih true
          refine ⟨behind, ?_⟩
          cases behindEmpty <;> simp [keptLines, shape]
      | code depth text =>
          obtain ⟨behind, shape⟩ := ih (depth = 0 && text.isEmpty)
          exact ⟨behind, by simp [keptLines, shape]⟩

/-- Blank lines do not matter to the blocks. -/
theorem Lays.kept {depth : Nat} {lines : List Line} {trees : List Tree}
    (lays : Lays depth lines trees) (behindEmpty : Bool) :
    Lays depth (keptLines behindEmpty lines) trees := by
  induction lays generalizing behindEmpty with
  | nil => exact .nil
  | blank _ ih =>
      cases behindEmpty
      · exact .blank (ih true)
      · exact ih true
  | leaf plain _ ih => exact .leaf plain (ih _)
  | @block depth text first inner children lines trees header _ _ innerIH linesIH =>
      obtain ⟨behind, shape⟩ := exists_keptLines_append (depth + 1 = 0 && first.isEmpty) inner lines
      rw [keptLines, keptLines, shape]
      exact .block header (innerIH true) (linesIH behind)

private theorem contained_code {text : String} (contained : Contained text) (depth : Nat) :
    Contained (Line.code depth text).text := by
  refine Takes.append (contained_of_neutral ?_) contained
  rw [String.toList_ofList, List.all_eq_true]
  intro character member
  rw [List.eq_of_mem_replicate member]
  decide

private theorem Lays.contained {depth : Nat} {lines : List Line} {trees : List Tree}
    (lays : Lays depth lines trees) : ∀ line ∈ lines, Contained line.text := by
  have empty : Contained Line.blank.text := contained_of_neutral (by decide)
  induction lays with
  | nil => simp
  | blank _ ih => exact List.forall_mem_cons.mpr ⟨empty, ih⟩
  | leaf plain _ ih => exact List.forall_mem_cons.mpr ⟨contained_code plain.contained _, ih⟩
  | block header _ _ innerIH linesIH =>
      rw [List.forall_mem_cons] at innerIH
      simp only [List.forall_mem_cons, List.forall_mem_append]
      exact ⟨contained_code header.contained _, innerIH.1, innerIH.2, linesIH⟩

/-- The lines of the text of a program are the lines that make up its trees, and nothing
stands behind the last newline. -/
theorem splitOn_generate {program : Program} {trees : List Tree}
    (lays : Lays 0 (programLines program) trees) :
    (generate program).toList.splitOn '\n' =
      (keptLines false (programLines program)).map (fun line => line.text.toList) ++ [[]] := by
  rw [generate_eq, Line.render, settle_eq, splitOn_join, List.map_map]
  · rfl
  · rw [List.forall_mem_map]
    exact fun line member => ((lays.kept false).contained line member).inline

/-- Every line of the text of a program closes the quotes and the brackets that it opens. -/
theorem generate_lines_balanced {source : String} {program : Program}
    (accepted : Script.read source = .ok program) :
    ∀ line ∈ (generate program).toList.splitOn '\n', Scanner.start.scan line = some .start := by
  obtain ⟨trees, _, lays⟩ := lays_programLines (Script.read_madeOf accepted)
  rw [splitOn_generate lays, List.forall_mem_append, List.forall_mem_map, List.forall_mem_singleton]
  exact ⟨fun line member => ((lays.kept false).contained line member).scanned [], rfl⟩

/-- A call whose argument is looked up in a record with a newline in its text. -/
def quotedBracket : Program :=
  [.expression (.call "f-g" [.access (.record [("k", .text "('\n" ⟨1, 11⟩)] ⟨1, 5⟩) "k" ⟨2, 5⟩]
    ⟨1, 1⟩) ⟨1, 1⟩]

theorem generate_lines_balanced_quotedBracket :
    generate quotedBracket = "f_g(\x7b\"k\": \"('\\n\"\x7d['k'])\n" ∧
      Scanner.start.scan "f_g(\x7b\"k\": \"('\\n\"\x7d['k'])".toList = some .start := by
  have accepted : Script.read "f-g(\x7b k = \"('\n\"; \x7d.k)" = .ok quotedBracket := by cbv
  have text : generate quotedBracket = "f_g(\x7b\"k\": \"('\\n\"\x7d['k'])\n" := by decide +kernel
  refine ⟨text, generate_lines_balanced accepted _ ?_⟩
  rw [text]
  decide +kernel

end WindowScript.Python
