import WindowScript.Proofs.Evaluation.Pipes
import WindowScript.Proofs.Python.Lines

/-!
# Positions do not reach Python

The text of a program in Python is written without a look at the positions in it, so that a
program keeps its text when they are replaced.
-/

set_option autoImplicit false

namespace WindowScript

private theorem Attributes.find?_relocate (move : Position → Position) (key : String)
    (attributes : Attributes) :
    Attributes.find? key (attributes.relocate move) =
      (Attributes.find? key attributes).map (Expr.relocate move) := by
  induction attributes with
  | nil => rfl
  | cons entry rest ih =>
      obtain ⟨name, value⟩ := entry
      by_cases same : name = key
      · simp [Attributes.find?, Attributes.relocate, same]
      · simpa [Attributes.find?, Attributes.relocate, same] using ih

namespace Python

variable (move : Position → Position)

private theorem expression_relocate (item : Expr) :
    expression (item.relocate move) = expression item := by
  induction item using Expr.throughPipes with
  | integer | real | text | boolean | name => rfl
  | binary operator left right position leftIH rightIH =>
      simp only [Expr.relocate, expression, leftIH, rightIH]
  | record fields position fieldsIH =>
      simp only [Expr.relocate, expression, Expr.relocateEntries_eq, Attributes.relocate,
        entries_map fieldsIH]
  | access object key position objectIH => simp only [Expr.relocate, expression, objectIH]
  | list items position itemsIH =>
      simp only [Expr.relocate, expression, Expr.relocateItems_eq, expressions_map itemsIH]
  | call callee arguments position argumentsIH =>
      simp only [Expr.relocate, expression, Expr.relocateItems_eq, expressions_map argumentsIH]
  | pipeCall left callee arguments origin position leftIH argumentsIH =>
      simp only [Expr.relocate, expression, Expr.relocateItems_eq, expressions_map argumentsIH,
        leftIH, List.isEmpty_map]
  | pipeName left callee origin position leftIH => simp only [Expr.relocate, expression, leftIH]
  | pipeOther left right position call name leftIH =>
      rw [Expr.relocate, expression_pipe_of_ne call name, ← leftIH]
      cases right with
      | call callee arguments origin => exact absurd rfl (call callee arguments origin)
      | name label origin => exact absurd rfl (name label origin)
      | _ => rfl

/-!
## Interfaces
-/

private theorem windowSetup_relocate (depth : Nat) (window : Window) :
    windowSetup depth (window.relocate move) = windowSetup depth window := by
  simp only [windowSetup, Window.relocate, Attributes.find?_relocate]
  cases Attributes.find? "title" window.attributes <;>
    cases Attributes.find? "width" window.attributes <;>
    cases Attributes.find? "height" window.attributes <;>
    simp only [Option.map_none, Option.map_some, expression_relocate]

private theorem identifierBinding_relocate (target : String) (value : Expr) :
    identifierBinding target (value.relocate move) = identifierBinding target value := by
  have same := expression_relocate move value
  cases value with
  | text | name => rfl
  | _ => exact congrArg (fun text => "setattr(self, " ++ text ++ ", " ++ target ++ ")") same

private theorem widgetBindings_relocate (depth : Nat) (target : String) (attributes : Attributes) :
    widgetBindings depth target (attributes.relocate move) =
      widgetBindings depth target attributes := by
  unfold widgetBindings Attributes.relocate
  rw [List.filterMap_map]
  refine List.filterMap_congr fun entry _ => ?_
  simp only [Function.comp_apply, Prod.map, id_eq, identifierBinding_relocate, expression_relocate]

private theorem widgetCaption_relocate (attributes : Attributes) :
    widgetCaption (attributes.relocate move) = widgetCaption attributes := by
  simp only [widgetCaption, Attributes.find?_relocate]
  cases Attributes.find? "text" attributes <;> cases Attributes.find? "label" attributes <;>
    simp only [Option.map_none, Option.map_some, expression_relocate]

private theorem widgetsLines_relocate (depth number : Nat) (widgets : List Widget) :
    widgetsLines depth number (widgets.map (Widget.relocate move)) =
      widgetsLines depth number widgets := by
  induction widgets generalizing number with
  | nil => rfl
  | cons widget rest ih =>
      have first : widgetLines depth number (widget.relocate move) =
          widgetLines depth number widget := by
        simp only [widgetLines, Widget.relocate, widgetCaption_relocate, widgetBindings_relocate]
      rw [List.map_cons, widgetsLines, widgetsLines, first, ih]

private theorem guiWidgets_relocate (described : Gui) :
    guiWidgets (described.relocate move) = (guiWidgets described).map (Widget.relocate move) := by
  simp only [guiWidgets, Gui.relocate, List.flatMap_map, List.map_flatMap]
  refine List.flatMap_congr fun part _ => ?_
  cases part <;> rfl

private theorem elementSetup_relocate (depth : Nat) (part : Element) :
    elementSetup depth (part.relocate move) = elementSetup depth part := by
  cases part with
  | window window => exact windowSetup_relocate move depth window
  | widget widget => rfl

private theorem guiLines_relocate (depth number : Nat) (described : Gui) :
    guiLines depth number (described.relocate move) = guiLines depth number described := by
  have setup : (described.relocate move).elements.flatMap (elementSetup (depth + 2)) =
      described.elements.flatMap (elementSetup (depth + 2)) := by
    simp only [Gui.relocate, List.flatMap_map, elementSetup_relocate]
  have empty : (described.relocate move).elements.isEmpty = described.elements.isEmpty :=
    List.isEmpty_map
  rw [guiLines, guiLines, setup, empty, guiWidgets_relocate, widgetsLines_relocate]
  rfl

/-!
## Programs
-/

private theorem widgetCounts_relocate {statements : List Statement}
    (each : ∀ statement ∈ statements,
      widgetCount (statement.relocate move) = widgetCount statement) :
    widgetCounts (statements.map (Statement.relocate move)) = widgetCounts statements := by
  induction statements with
  | nil => rfl
  | cons statement rest ih =>
      obtain ⟨first, later⟩ := List.forall_mem_cons.mp each
      rw [List.map_cons, widgetCounts, widgetCounts, first, ih later]

private theorem widgetCount_relocate (statement : Statement) :
    widgetCount (statement.relocate move) = widgetCount statement := by
  induction statement using Statement.structural with
  | binding | returning | expression => rfl
  | function callee parameters body position bodyIH =>
      rw [Statement.relocate, Statement.relocateAll_eq, widgetCount, widgetCount,
        widgetCounts_relocate move bodyIH]
  | gui described =>
      rw [Statement.relocate, widgetCount, widgetCount, guiWidgets_relocate, List.length_map]

private theorem statementsLines_relocate {statements : List Statement}
    (each : ∀ statement ∈ statements, ∀ depth number,
      statementLines depth number (statement.relocate move) =
        statementLines depth number statement) (depth number : Nat) :
    statementsLines depth number (statements.map (Statement.relocate move)) =
      statementsLines depth number statements := by
  induction statements generalizing number with
  | nil => rfl
  | cons statement rest ih =>
      obtain ⟨first, later⟩ := List.forall_mem_cons.mp each
      rw [List.map_cons, statementsLines, statementsLines, first, widgetCount_relocate, ih later]

private theorem statementLines_relocate (depth number : Nat) (statement : Statement) :
    statementLines depth number (statement.relocate move) =
      statementLines depth number statement := by
  induction statement using Statement.structural generalizing depth number with
  | binding | returning | expression =>
      simp only [Statement.relocate, statementLines, expression_relocate]
  | function callee parameters body position bodyIH =>
      have inside : statementsLines (depth + 1) number (body.map (Statement.relocate move)) =
          statementsLines (depth + 1) number body :=
        statementsLines_relocate move bodyIH (depth + 1) number
      simp only [Statement.relocate, statementLines, Statement.relocateAll_eq, List.isEmpty_map,
        inside]
  | gui described => exact guiLines_relocate move depth number described

private theorem firstGui?_relocate (program : Program) :
    firstGui? (program.relocate move) = (firstGui? program).map (Gui.relocate move) := by
  induction program with
  | nil => rfl
  | cons statement rest ih =>
      cases statement with
      | gui described => rfl
      | _ => exact ih

theorem generate_relocate (program : Program) :
    generate (program.relocate move) = generate program := by
  have statements : statementsLines 0 0 (program.relocate move) = statementsLines 0 0 program :=
    statementsLines_relocate move
      (fun statement _ depth number => statementLines_relocate move depth number statement) 0 0
  rw [generate_eq, generate_eq]
  unfold programLines
  rw [firstGui?_relocate, statements]
  cases firstGui? program <;> rfl

end Python

end WindowScript
