import WindowScript.Proofs.Evaluation.Depth
import WindowScript.Proofs.Program.Relocation
import WindowScript.Python.Expression

/-!
# Pipes stand for calls

A pipe into a call or a name is a call with one more argument in front, and a pipe into
anything else is its left side. Both the text of an expression in Python and the value to
which it evaluates stay the same when all pipes are replaced by what they stand for.
-/

set_option autoImplicit false

namespace WindowScript

mutual

/-- An expression with every pipe in it replaced by what it stands for. -/
def Expr.desugar : Expr → Expr
  | .binary operator left right position =>
      .binary operator left.desugar right.desugar position
  | .record entries position => .record (Expr.desugarEntries entries) position
  | .access object key position => .access object.desugar key position
  | .list items position => .list (Expr.desugarItems items) position
  | .call callee arguments position => .call callee (Expr.desugarItems arguments) position
  | .pipe left (.call callee arguments origin) _ =>
      .call callee (left.desugar :: Expr.desugarItems arguments) origin
  | .pipe left (.name callee _) position => .call callee [left.desugar] position
  | .pipe left _ _ => left.desugar
  | .integer value position => .integer value position
  | .real value position => .real value position
  | .text value position => .text value position
  | .boolean value position => .boolean value position
  | .name label position => .name label position

def Expr.desugarItems : List Expr → List Expr
  | [] => []
  | item :: rest => item.desugar :: Expr.desugarItems rest

def Expr.desugarEntries : List (String × Expr) → List (String × Expr)
  | [] => []
  | (key, value) :: rest => (key, value.desugar) :: Expr.desugarEntries rest

end

@[simp] theorem Expr.desugarItems_eq (items : List Expr) :
    Expr.desugarItems items = items.map Expr.desugar := by
  induction items with
  | nil => rfl
  | cons item rest ih => simp only [Expr.desugarItems, List.map_cons, ih]

@[simp] theorem Expr.desugarEntries_eq (entries : List (String × Expr)) :
    Expr.desugarEntries entries = entries.map (Prod.map id Expr.desugar) := by
  induction entries with
  | nil => rfl
  | cons entry rest ih => simp only [Expr.desugarEntries, List.map_cons, ih, Prod.map, id_eq]

theorem Expr.desugar_pipe_of_ne {right : Expr}
    (call : ∀ callee arguments origin, right ≠ .call callee arguments origin)
    (name : ∀ label origin, right ≠ .name label origin) (left : Expr) (position : Position) :
    (Expr.pipe left right position).desugar = left.desugar := by
  cases right with
  | call callee arguments origin => exact absurd rfl (call callee arguments origin)
  | name label origin => exact absurd rfl (name label origin)
  | _ => rfl

/-- Induction over expressions by what the pipes in them stand for. The right side of a pipe
is no part of what the pipe stands for, but the arguments of a call there are. -/
theorem Expr.throughPipes {motive : Expr → Prop}
    (integer : ∀ value position, motive (.integer value position))
    (real : ∀ value position, motive (.real value position))
    (text : ∀ value position, motive (.text value position))
    (boolean : ∀ value position, motive (.boolean value position))
    (name : ∀ name position, motive (.name name position))
    (binary : ∀ operator left right position, motive left → motive right →
      motive (.binary operator left right position))
    (record : ∀ entries position, (∀ entry ∈ entries, motive entry.2) →
      motive (.record entries position))
    (access : ∀ object key position, motive object → motive (.access object key position))
    (list : ∀ items position, (∀ item ∈ items, motive item) → motive (.list items position))
    (call : ∀ callee arguments position, (∀ argument ∈ arguments, motive argument) →
      motive (.call callee arguments position))
    (pipeCall : ∀ left callee arguments origin position, motive left →
      (∀ argument ∈ arguments, motive argument) →
      motive (.pipe left (.call callee arguments origin) position))
    (pipeName : ∀ left callee origin position, motive left →
      motive (.pipe left (.name callee origin) position))
    (pipeOther : ∀ left right position,
      (∀ callee arguments origin, right ≠ .call callee arguments origin) →
      (∀ label origin, right ≠ .name label origin) → motive left →
      motive (.pipe left right position)) :
    ∀ expr, motive expr :=
  Expr.desugar.induct motive (fun items => ∀ item ∈ items, motive item)
    (fun entries => ∀ entry ∈ entries, motive entry.2)
    binary record access list call pipeCall pipeName pipeOther integer real text boolean name
    (by simp)
    (fun _ _ _ head tail => List.forall_mem_cons.mpr ⟨head, tail⟩)
    (by simp)
    (fun _ _ head tail => List.forall_mem_cons.mpr ⟨head, tail⟩)

/-!
## In Python
-/

namespace Python

theorem expressions_eq (items : List Expr) : expressions items = items.map expression := by
  induction items with
  | nil => rfl
  | cons item rest ih => simp only [expressions, List.map_cons, ih]

theorem entries_eq (fields : List (String × Expr)) :
    entries fields = fields.map fun field => literal field.1 ++ ": " ++ expression field.2 := by
  induction fields with
  | nil => rfl
  | cons field rest ih => simp only [entries, List.map_cons, ih]

theorem separated_cons (text : String) (texts : List String) :
    separated (text :: texts) =
      if texts.isEmpty then text else text ++ ", " ++ separated texts := by
  cases texts with
  | nil => simp [separated]
  | cons second rest => simp [separated, String.intercalate_cons_cons]

/-- Expressions that are written as their images are make up the same text as these. -/
theorem expressions_map {image : Expr → Expr} {items : List Expr}
    (same : ∀ item ∈ items, expression (image item) = expression item) :
    expressions (items.map image) = expressions items := by
  rw [expressions_eq, expressions_eq, List.map_map]
  exact List.map_congr_left same

theorem entries_map {image : Expr → Expr} {fields : List (String × Expr)}
    (same : ∀ field ∈ fields, expression (image field.2) = expression field.2) :
    entries (fields.map (Prod.map id image)) = entries fields := by
  rw [entries_eq, entries_eq, List.map_map]
  apply List.map_congr_left
  intro field member
  simp only [Function.comp_apply, Prod.map, id_eq, same field member]

theorem expression_pipe_of_ne {right : Expr}
    (call : ∀ callee arguments origin, right ≠ .call callee arguments origin)
    (name : ∀ label origin, right ≠ .name label origin) (left : Expr) (position : Position) :
    expression (.pipe left right position) = expression left := by
  cases right with
  | call callee arguments origin => exact absurd rfl (call callee arguments origin)
  | name label origin => exact absurd rfl (name label origin)
  | _ => rfl

theorem expression_desugar (item : Expr) : expression item.desugar = expression item := by
  induction item using Expr.throughPipes with
  | integer | real | text | boolean | name => rfl
  | binary operator left right position leftIH rightIH =>
      simp only [Expr.desugar, expression, leftIH, rightIH]
  | record fields position fieldsIH =>
      simp only [Expr.desugar, expression, Expr.desugarEntries_eq, entries_map fieldsIH]
  | access object key position objectIH => simp only [Expr.desugar, expression, objectIH]
  | list items position itemsIH =>
      simp only [Expr.desugar, expression, Expr.desugarItems_eq, expressions_map itemsIH]
  | call callee arguments position argumentsIH =>
      simp only [Expr.desugar, expression, Expr.desugarItems_eq, expressions_map argumentsIH]
  | pipeCall left callee arguments origin position leftIH argumentsIH =>
      -- The text of a pipe has a branch of its own for a call without arguments.
      have empty : (expressions arguments).isEmpty = arguments.isEmpty := by
        cases arguments <;> rfl
      simp only [Expr.desugar, expression, expressions, Expr.desugarItems_eq,
        expressions_map argumentsIH, leftIH, separated_cons, empty]
      split <;> rfl
  | pipeName left callee origin position leftIH =>
      simp only [Expr.desugar, expression, expressions, leftIH, separated_cons, List.isEmpty_nil,
        if_true]
  | pipeOther left right position call name leftIH =>
      rw [Expr.desugar_pipe_of_ne call name, expression_pipe_of_ne call name, leftIH]

end Python

/-!
## In evaluation
-/

/-- Wherever the first computation succeeds, the second succeeds in the same way. -/
def Implements {α : Type} (first second : Evaluation α) : Prop :=
  ∀ ⦃progress value after⦄, first.run progress = (.ok value, after) →
    second.run progress = (.ok value, after)

namespace Implements

variable {α β : Type}

private theorem refl (action : Evaluation α) :
    Implements action action := fun _ _ _ succeeded => succeeded

private theorem trans {first second third : Evaluation α} (one : Implements first second)
    (other : Implements second third) : Implements first third :=
  fun _ _ _ succeeded => other (one succeeded)

private theorem of_fail (cause : RuntimeCause) (position : Position) (action : Evaluation α) :
    Implements (Fallible.fail cause position) action := by
  intro progress value after succeeded
  cases succeeded

private theorem of_bind_fail (first : Evaluation β) (cause : RuntimeCause) (position : Position)
    (action : Evaluation α) :
    Implements (first >>= fun _ => Fallible.fail cause position) action := by
  intro progress value after succeeded
  rw [Fallible.run_bind] at succeeded
  split at succeeded <;> cases succeeded

private theorem bind {first second : Evaluation α} {onward further : α → Evaluation β}
    (begun : Implements first second) (next : ∀ value, Implements (onward value) (further value)) :
    Implements (first >>= onward) (second >>= further) := by
  intro progress value after succeeded
  rw [Fallible.run_bind] at succeeded ⊢
  rcases ran : first.run progress with ⟨result, reached⟩
  rw [ran] at succeeded
  cases result with
  | error failure => cases succeeded
  | ok found =>
      rw [begun ran]
      exact next found succeeded

private theorem nested {inner other : Evaluation α} (implements : Implements inner other)
    (position : Position) (otherPosition : Position) :
    Implements (Evaluation.nested position inner) (Evaluation.nested otherPosition other) := by
  intro progress value after succeeded
  by_cases room : progress.depth < maxDepth
  · rw [Evaluation.run_nested_of_lt room] at succeeded ⊢
    rcases ran : inner.run { progress with depth := progress.depth + 1 } with ⟨result, reached⟩
    rw [ran] at succeeded
    cases succeeded
    rw [implements ran]
  · rw [Evaluation.run_nested_of_le (Nat.not_lt.mp room)] at succeeded
    cases succeeded

def correspondence (host : Host) : Correspondence Unit host where
  Rel := fun one other => Implements (one ()) other
  pure := fun _ => refl _
  fail := fun _ _ => refl _
  bind := bind
  builtin := fun _ _ _ => refl _

end Implements

/-- What succeeds one evaluation further in succeeds without that evaluation around it. -/
theorem CutShort.implements_nested {α : Type} {inner whole : Evaluation α}
    (short : CutShort inner whole) (position : Position) :
    Implements (Evaluation.nested position inner) whole := by
  intro progress value after succeeded
  obtain ⟨history, depth⟩ := progress
  by_cases room : depth < maxDepth
  · rw [Evaluation.run_nested_of_lt room] at succeeded
    have ended := short.shortened history (Nat.le_succ depth)
    have cutDepth := short.cutOrderly.depth ⟨history, depth + 1⟩
    have wholeDepth := short.wholeOrderly.depth ⟨history, depth⟩
    rcases ran : inner.run ⟨history, depth + 1⟩ with ⟨result, reached⟩
    rcases ranWhole : whole.run ⟨history, depth⟩ with ⟨wholeResult, wholeReached⟩
    rw [ran] at succeeded ended cutDepth
    rw [ranWhole] at ended wholeDepth
    cases succeeded
    obtain ⟨results, histories⟩ := ended.same_of_unlimited fun _ limited => nomatch limited
    obtain ⟨_, _⟩ := wholeReached
    cases results
    cases histories
    cases wholeDepth
    rw [cutDepth]
    rfl
  · rw [Evaluation.run_nested_of_le (Nat.not_lt.mp room)] at succeeded
    cases succeeded

section

variable (host : Host) (scope : Scope)

/-- Evaluations correspond at any number of levels when their steps do. -/
theorem evaluateWithin_implements {item other : Expr}
    (steps : ∀ levels, Implements ((evaluateWithin host levels).step host item scope)
      ((evaluateWithin host levels).step host other scope)) (levels : Nat) :
    Implements (evaluateWithin host levels item scope) (evaluateWithin host levels other scope) := by
  cases levels with
  | zero => exact .of_fail _ _ _
  | succ levels => exact (steps levels).nested item.position other.position

/-- A call looks its name up before its arguments are evaluated, a pipe behind its left
side. Where both succeed this makes no difference. -/
theorem pipe_implements_call (evaluate : Evaluator) {left other : Expr}
    (begun : Implements (evaluate left scope) (evaluate other scope)) {arguments others : List Expr}
    (each : List.Forall₂ (fun item other => Implements (evaluate item scope) (evaluate other scope))
      arguments others) (name : String) (position : Position) :
    Implements
      (evaluate left scope >>= fun value =>
        evaluate.call host name [value] arguments position scope)
      (evaluate.call host name [] (other :: others) position scope) := by
  unfold Evaluator.call Evaluator.resolve
  cases Bindings.find? name scope with
  | none => exact .of_bind_fail _ _ _ _
  | some callee =>
      simp only [pure_bind, Evaluator.all, List.reverse_nil, bind_assoc]
      apply Implements.bind begun
      intro value
      apply Implements.bind ((Implements.correspondence host).all (fun _ => evaluate) evaluate each
        [value])
      intro values
      exact .refl _

/-- A right side that is neither a call nor a name is dropped. -/
theorem step_pipe_of_ne (evaluate : Evaluator) {right : Expr}
    (call : ∀ callee arguments origin, right ≠ .call callee arguments origin)
    (name : ∀ label origin, right ≠ .name label origin) (left : Expr) (position : Position) :
    evaluate.step host (.pipe left right position) scope = evaluate left scope := by
  have passed (value : Value) :
      evaluate.pipeInto host value right position scope = pure value := by
    cases right with
    | call callee arguments origin => exact absurd rfl (call callee arguments origin)
    | name label origin => exact absurd rfl (name label origin)
    | _ => rfl
  simp only [Evaluator.step, passed, bind_pure]

private theorem forall₂_desugar {items : List Expr}
    (each : ∀ item ∈ items, ∀ levels, Implements (evaluateWithin host levels item scope)
      (evaluateWithin host levels item.desugar scope)) (levels : Nat) :
    List.Forall₂ (fun item other => Implements (evaluateWithin host levels item scope)
      (evaluateWithin host levels other scope)) items (items.map Expr.desugar) := by
  rw [List.forall₂_map_right_iff]
  exact List.forall₂_same.mpr fun item member => each item member levels

private theorem evaluateWithin_desugar (item : Expr) (levels : Nat) :
    Implements (evaluateWithin host levels item scope)
      (evaluateWithin host levels item.desugar scope) := by
  induction item using Expr.throughPipes generalizing levels with
  | integer | real | text | boolean | name => exact .refl _
  | binary operator left right position leftIH rightIH =>
      apply evaluateWithin_implements
      intro levels
      apply Implements.bind (leftIH levels)
      intro first
      apply Implements.bind (rightIH levels)
      intro second
      exact .refl _
  | record entries position entriesIH =>
      apply evaluateWithin_implements
      intro levels
      simp only [Expr.desugar, Expr.desugarEntries_eq]
      refine .bind ((Implements.correspondence host).fields (fun _ => evaluateWithin host levels)
        (evaluateWithin host levels) ?_ []) fun bound => .refl _
      rw [List.forall₂_map_right_iff]
      exact List.forall₂_same.mpr fun entry member => ⟨rfl, entriesIH entry member levels⟩
  | access object key position objectIH =>
      apply evaluateWithin_implements
      intro levels
      exact .bind (objectIH levels) fun value => .refl _
  | list items position itemsIH =>
      apply evaluateWithin_implements
      intro levels
      simp only [Expr.desugar, Expr.desugarItems_eq]
      have each := forall₂_desugar host scope itemsIH levels
      exact .bind ((Implements.correspondence host).all (fun _ => evaluateWithin host levels)
        (evaluateWithin host levels) each []) fun values => .refl _
  | call callee arguments position argumentsIH =>
      apply evaluateWithin_implements
      intro levels
      simp only [Expr.desugar, Expr.desugarItems_eq]
      have each := forall₂_desugar host scope argumentsIH levels
      exact (Implements.correspondence host).call (fun _ => evaluateWithin host levels)
        (evaluateWithin host levels) (fun _ _ => .refl _) each callee [] position
  | pipeCall left callee arguments origin position leftIH argumentsIH =>
      apply evaluateWithin_implements
      intro levels
      simp only [Expr.desugar, Expr.desugarItems_eq]
      have each := forall₂_desugar host scope argumentsIH levels
      exact pipe_implements_call host scope _ (leftIH levels) each callee origin
  | pipeName left callee origin position leftIH =>
      apply evaluateWithin_implements
      intro levels
      exact pipe_implements_call host scope _ (leftIH levels) .nil callee position
  | pipeOther left right position call name leftIH =>
      rw [Expr.desugar_pipe_of_ne call name]
      cases levels with
      | zero => exact .of_fail _ _ _
      | succ levels =>
          rw [evaluateWithin, step_pipe_of_ne host scope _ call name]
          -- What is left is evaluated where the pipe was, one level further out.
          have shorter := evaluateWithin_cutShort host (Nat.le_succ levels) left.desugar scope
          exact ((leftIH levels).nested _ _).trans (shorter.implements_nested position)

end

/-- Replacing pipes by what they stand for changes neither the text of an expression in
Python nor, where evaluating it succeeds, its value and what is asked of the host. -/
theorem pipes_stand_for_calls (item : Expr) :
    Python.expression item = Python.expression item.desugar ∧
    ∀ (host : Host) (scope : Scope) (progress : Progress) (value : Value) (after : Progress),
      (evaluate host item scope).run progress = (.ok value, after) →
        (evaluate host item.desugar scope).run progress = (.ok value, after) := by
  constructor
  · exact (Python.expression_desugar item).symm
  · intro host scope progress value after succeeded
    exact evaluateWithin_desugar host scope item (maxDepth + 1) succeeded

/-- The expression `(2 | [9]) | echo(1 | 8) | str`. -/
def pipedTwice : Expr :=
  .pipe (.pipe (.pipe (.integer 2 ⟨1, 2⟩) (.list [.integer 9 ⟨1, 7⟩] ⟨1, 6⟩) ⟨1, 4⟩)
    (.call "echo" [.pipe (.integer 1 ⟨1, 18⟩) (.integer 8 ⟨1, 22⟩) ⟨1, 20⟩] ⟨1, 13⟩) ⟨1, 11⟩)
    (.name "str" ⟨1, 27⟩) ⟨1, 25⟩

theorem pipes_stand_for_calls_pipedTwice :
    Python.expression pipedTwice = Python.expression pipedTwice.desugar ∧
    (evaluate .quiet pipedTwice.desugar .initial).run ⟨[], 7⟩ =
      (.ok (.text "null"), ⟨[.wrote "2 1\n"], 7⟩) := by
  have succeeded : (evaluate .quiet pipedTwice .initial).run ⟨[], 7⟩ =
      (.ok (.text "null"), ⟨[.wrote "2 1\n"], 7⟩) := by rfl
  exact ⟨(pipes_stand_for_calls pipedTwice).1,
    (pipes_stand_for_calls pipedTwice).2 _ _ _ _ _ succeeded⟩

end WindowScript
