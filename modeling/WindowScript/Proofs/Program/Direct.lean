import WindowScript.Proofs.Evaluation.Pipes
import WindowScript.Proofs.Program.Vocabulary

/-!
# Expressions without pipes

Once its pipes are the calls that they stand for, an expression of a program is made of few
forms. What its tokens can spell is known of each of them: integers are not negative, reals
are finite and names are words.
-/

set_option autoImplicit false

namespace WindowScript

mutual

/-- The variables and callees of an expression, each as often as it occurs. -/
def Expr.names : Expr → List String
  | .integer _ _ | .real _ _ | .text _ _ | .boolean _ _ => []
  | .name label _ => [label]
  | .binary _ left right _ | .pipe left right _ => left.names ++ right.names
  | .record entries _ => Expr.namesOfEntries entries
  | .access object _ _ => object.names
  | .list items _ => Expr.namesOfItems items
  | .call callee arguments _ => callee :: Expr.namesOfItems arguments

def Expr.namesOfItems : List Expr → List String
  | [] => []
  | item :: rest => item.names ++ Expr.namesOfItems rest

def Expr.namesOfEntries : List (String × Expr) → List String
  | [] => []
  | (_, value) :: rest => value.names ++ Expr.namesOfEntries rest

end

private theorem Expr.namesOfItems_eq (items : List Expr) :
    Expr.namesOfItems items = items.flatMap Expr.names := by
  induction items with
  | nil => rfl
  | cons item rest ih => simp only [Expr.namesOfItems, List.flatMap_cons, ih]

private theorem Expr.namesOfEntries_eq (entries : List (String × Expr)) :
    Expr.namesOfEntries entries = (entries.map Prod.snd).flatMap Expr.names := by
  induction entries with
  | nil => rfl
  | cons entry rest ih => simp only [Expr.namesOfEntries, List.map_cons, List.flatMap_cons, ih]

private theorem Expr.mem_names_of_child {child item : Expr} (member : child ∈ item.children)
    {label : String} (named : label ∈ child.names) : label ∈ item.names := by
  have among : label ∈ item.children.flatMap Expr.names :=
    List.mem_flatMap.mpr ⟨child, member, named⟩
  cases item with
  | integer | real | text | boolean | name => cases member
  | call callee arguments position =>
      rw [Expr.names, Expr.namesOfItems_eq]
      exact List.mem_cons_of_mem callee among
  | _ => simpa [Expr.names, Expr.children, Expr.namesOfItems_eq, Expr.namesOfEntries_eq] using among

/-- An expression without pipes whose literals and names a source can spell, and all of whose
variables are allowed. -/
inductive Expr.Direct (allowed : String → Prop) : Expr → Prop where
  | integer {value position} : 0 ≤ value.toInt → Direct allowed (.integer value position)
  | real {value position} : Real.isFinite value = true → Direct allowed (.real value position)
  | text {value position} : Direct allowed (.text value position)
  | boolean {value position} : Direct allowed (.boolean value position)
  | name {label position} :
      IsWord label.toList → allowed label → Direct allowed (.name label position)
  | binary {operator left right position} :
      Direct allowed left → Direct allowed right →
      Direct allowed (.binary operator left right position)
  | record {entries position} :
      (∀ entry ∈ entries, Direct allowed entry.2) → Direct allowed (.record entries position)
  | access {object key position} :
      Direct allowed object → IsWord key.toList → Direct allowed (.access object key position)
  | list {items position} :
      (∀ item ∈ items, Direct allowed item) → Direct allowed (.list items position)
  | call {callee arguments position} :
      IsWord callee.toList → (∀ argument ∈ arguments, Direct allowed argument) →
      Direct allowed (.call callee arguments position)

/-- An expression whose tokens a source can spell and whose variables are allowed. -/
structure Expr.Fit (allowed : String → Prop) (item : Expr) : Prop where
  made : item.MadeOf Token.Spelled
  named : ∀ label ∈ item.names, allowed label

private theorem Expr.Fit.child {allowed : String → Prop} {item child : Expr}
    (fit : item.Fit allowed) (member : child ∈ item.children) : child.Fit allowed where
  made := fit.made.children child member
  named := fun label held => fit.named label (Expr.mem_names_of_child member held)

theorem Expr.Fit.direct {allowed : String → Prop} {item : Expr} (fit : item.Fit allowed) :
    item.desugar.Direct allowed := by
  induction item using Expr.throughPipes with
  | integer value position =>
      cases fit.made with
      | integer spelled => exact .integer spelled.nonnegative
  | real value position =>
      cases fit.made with
      | real spelled => exact .real spelled.isFinite
  | text value position => exact .text
  | boolean value position => exact .boolean
  | name label position =>
      cases fit.made with
      | name spelled => exact .name (spelled.isWord rfl) (fit.named label (.head _))
  | binary operator left right position leftIH rightIH =>
      exact .binary (leftIH (fit.child (.head _))) (rightIH (fit.child (.tail _ (.head _))))
  | record entries position entriesIH =>
      rw [Expr.desugar, Expr.desugarEntries_eq]
      apply Direct.record
      rw [List.forall_mem_map]
      exact fun entry member => entriesIH entry member (fit.child (List.mem_map_of_mem member))
  | access object key position objectIH =>
      cases fit.made with
      | access _ named =>
          obtain ⟨token, spelled, spells⟩ := named
          exact .access (objectIH (fit.child (.head _))) (spelled.isWord spells)
  | list items position itemsIH =>
      rw [Expr.desugar, Expr.desugarItems_eq]
      apply Direct.list
      rw [List.forall_mem_map]
      exact fun item member => itemsIH item member (fit.child member)
  | call callee arguments position argumentsIH =>
      cases fit.made with
      | call spelled _ =>
          rw [Expr.desugar, Expr.desugarItems_eq]
          apply Direct.call (spelled.isWord rfl)
          rw [List.forall_mem_map]
          exact fun argument member => argumentsIH argument member (fit.child member)
  | pipeCall left callee arguments origin position leftIH argumentsIH =>
      have right := fit.child (.tail _ (.head _))
      cases right.made with
      | call spelled _ =>
          rw [Expr.desugar, Expr.desugarItems_eq]
          apply Direct.call (spelled.isWord rfl)
          rw [List.forall_mem_cons, List.forall_mem_map]
          refine ⟨leftIH (fit.child (.head _)), ?_⟩
          exact fun argument member => argumentsIH argument member (right.child member)
  | pipeName left callee origin position leftIH =>
      have right := fit.child (.tail _ (.head _))
      cases right.made with
      | name spelled =>
          exact .call (spelled.isWord rfl)
            (List.forall_mem_singleton.mpr (leftIH (fit.child (.head _))))
  | pipeOther left right position call name leftIH =>
      rw [Expr.desugar_pipe_of_ne call name]
      exact leftIH (fit.child (.head _))

/-- Whatever its variables are, an expression of a source is direct without its pipes. -/
theorem Expr.MadeOf.direct {item : Expr} (made : item.MadeOf Token.Spelled) :
    item.desugar.Direct fun _ => True :=
  Expr.Fit.direct ⟨made, fun _ _ => trivial⟩

end WindowScript
