import WindowScript.Proofs.Evaluation.Pipes
import WindowScript.Proofs.Program.Vocabulary

/-!
# Evaluating data

An expression of literals, lists, records and arithmetic neither writes anything nor binds a
name, so that each part of it has the same value as when it is evaluated on its own.
-/

set_option autoImplicit false

namespace WindowScript

/-- An expression of literals, lists, records, attributes, sums, differences and products. -/
inductive Expr.IsData : Expr → Prop where
  | integer {value position} : IsData (.integer value position)
  | text {value position} : IsData (.text value position)
  | list {items position} : (∀ item ∈ items, IsData item) → IsData (.list items position)
  | record {entries position} :
      (∀ entry ∈ entries, IsData entry.2) → IsData (.record entries position)
  | access {object key position} : IsData object → IsData (.access object key position)
  | binary {operator left right position} : operator = .add ∨ operator = .sub ∨ operator = .mul →
      IsData left → IsData right → IsData (.binary operator left right position)

theorem Expr.IsData.desugar_eq {item : Expr} (data : item.IsData) : item.desugar = item := by
  induction data with
  | integer | text => rfl
  | @list items position _ itemsIH =>
      have same : items.map Expr.desugar = items.map id := List.map_congr_left itemsIH
      rw [Expr.desugar, Expr.desugarItems_eq, same, List.map_id]
  | @record entries position _ entriesIH =>
      have same : entries.map (Prod.map id Expr.desugar) = entries.map id :=
        List.map_congr_left fun entry member => Prod.ext rfl (entriesIH entry member)
      rw [Expr.desugar, Expr.desugarEntries_eq, same, List.map_id]
  | access _ objectIH => rw [Expr.desugar, objectIH]
  | binary _ _ _ leftIH rightIH => rw [Expr.desugar, leftIH, rightIH]

/-- An expression evaluates to a value when nothing has been evaluated before. -/
def Evaluates (host : Host) (item : Expr) (value : Value) : Prop :=
  ((evaluate host item .initial).run ⟨[], 0⟩).1 = .ok value

/-- Wherever an attribute is read in an expression, the record has it. -/
def FindsAttributes (host : Host) (item : Expr) : Prop :=
  ∀ object key position, (Expr.access object key position).Part item →
    ∀ entries, Evaluates host object (.record entries) → (Bindings.find? key entries).isSome

theorem FindsAttributes.child {host : Host} {child item : Expr} (finds : FindsAttributes host item)
    (member : child ∈ item.children) : FindsAttributes host child :=
  fun object key position part => finds object key position (.inside member part)

theorem FindsAttributes.of_children {host : Host} {item : Expr}
    (other : ∀ object key position, item ≠ .access object key position)
    (inside : ∀ child ∈ item.children, FindsAttributes host child) : FindsAttributes host item := by
  intro object key position part
  cases part with
  | self => exact absurd rfl (other object key position)
  | inside member part => exact inside _ member object key position part

theorem FindsAttributes.access {host : Host} {object : Expr} (finds : FindsAttributes host object)
    {key : String} {entries : List (String × Value)}
    (found : Evaluates host object (.record entries))
    (present : (Bindings.find? key entries).isSome) (position : Position) :
    FindsAttributes host (.access object key position) := by
  intro inner name place part
  cases part with
  | self =>
      intro others ran
      cases found.symm.trans ran
      exact present
  | inside member part =>
      cases List.mem_singleton.mp member
      exact finds inner name place part

/-!
## Computations that change nothing
-/

/-- A computation that leaves everything as it was. -/
def Silent {α : Type} (action : Evaluation α) : Prop :=
  ∀ progress, (action.run progress).2 = progress

namespace Silent

variable {α β : Type}

private theorem pure (value : α) : Silent (Pure.pure value) := fun _ => rfl

private theorem place (position : Position) (result : Except RuntimeCause α) :
    Silent (Fallible.place position result) := by
  intro progress
  cases result <;> rfl

private theorem bind {first : Evaluation α} {next : α → Evaluation β} (begun : Silent first)
    (onward : ∀ value, Silent (next value)) : Silent (first >>= next) := by
  intro progress
  have before := begun progress
  rw [Fallible.run_bind]
  rcases outcome : first.run progress with ⟨result, after⟩
  rw [outcome] at before
  cases result with
  | error failure => exact before
  | ok value => exact (onward value after).trans before

private theorem nested {inner : Evaluation α} (silent : Silent inner) (position : Position) :
    Silent (Evaluation.nested position inner) := by
  intro progress
  by_cases room : progress.depth < maxDepth
  · rw [Evaluation.run_nested_of_lt room, silent]
    rfl
  · rw [Evaluation.run_nested_of_le (Nat.not_lt.mp room)]

/-- A silent computation that goes on leaves to the rest what it found itself. -/
theorem bind_eq_ok {first : Evaluation α} {next : α → Evaluation β} (begun : Silent first)
    {progress : Progress} {result : β} (ran : ((first >>= next).run progress).1 = .ok result) :
    ∃ value, (first.run progress).1 = .ok value ∧ ((next value).run progress).1 = .ok result := by
  have before := begun progress
  rw [Fallible.run_bind] at ran
  rcases outcome : first.run progress with ⟨found, after⟩
  rw [outcome] at ran before
  cases found with
  | error failure => cases ran
  | ok value => exact ⟨value, rfl, before ▸ ran⟩

end Silent

private theorem place_eq_ok {α : Type} {position : Position} {result : Except RuntimeCause α}
    {value : α} {progress : Progress}
    (ran : ((Fallible.place position result : Evaluation α).run progress).1 = .ok value) :
    result = .ok value := by
  cases result with
  | error cause => cases ran
  | ok found => cases ran; rfl

section

variable {evaluate : Evaluator} {scope : Scope} {progress : Progress}

private theorem silent_all {items : List Expr} (each : ∀ item ∈ items, Silent (evaluate item scope))
    (values : List Value) : Silent (evaluate.all scope values items) := by
  induction items generalizing values with
  | nil => exact .pure _
  | cons item rest ih =>
      obtain ⟨first, later⟩ := List.forall_mem_cons.mp each
      exact first.bind fun value => ih later (value :: values)

private theorem silent_fields {entries : List (String × Expr)}
    (each : ∀ entry ∈ entries, Silent (evaluate entry.2 scope)) (bound : List (String × Value)) :
    Silent (evaluate.fields scope bound entries) := by
  induction entries generalizing bound with
  | nil => exact .pure _
  | cons entry rest ih =>
      obtain ⟨first, later⟩ := List.forall_mem_cons.mp each
      exact first.bind fun value => ih later (Bindings.insert entry.1 value bound)

private theorem all_eq_ok {items : List Expr} (each : ∀ item ∈ items, Silent (evaluate item scope))
    {values result : List Value}
    (ran : ((evaluate.all scope values items).run progress).1 = .ok result) :
    ∃ found, result = values.reverse ++ found ∧
      List.Forall₂ (fun item value => ((evaluate item scope).run progress).1 = .ok value)
        items found := by
  induction items generalizing values with
  | nil =>
      cases ran
      exact ⟨[], (List.append_nil _).symm, .nil⟩
  | cons item rest ih =>
      obtain ⟨first, later⟩ := List.forall_mem_cons.mp each
      obtain ⟨value, here, behind⟩ := first.bind_eq_ok ran
      obtain ⟨found, rfl, all⟩ := ih later behind
      exact ⟨value :: found, by simp, .cons here all⟩

private theorem fields_eq_ok {entries : List (String × Expr)}
    (each : ∀ entry ∈ entries, Silent (evaluate entry.2 scope))
    {bound result : List (String × Value)}
    (ran : ((evaluate.fields scope bound entries).run progress).1 = .ok result) :
    ∃ found, result = Bindings.insertAll found bound ∧
      List.Forall₂ (fun entry pair =>
        entry.1 = pair.1 ∧ ((evaluate entry.2 scope).run progress).1 = .ok pair.2)
        entries found := by
  induction entries generalizing bound with
  | nil =>
      cases ran
      exact ⟨[], rfl, .nil⟩
  | cons entry rest ih =>
      obtain ⟨first, later⟩ := List.forall_mem_cons.mp each
      obtain ⟨value, here, behind⟩ := first.bind_eq_ok ran
      obtain ⟨found, rfl, all⟩ := ih later behind
      exact ⟨(entry.1, value) :: found, rfl, .cons ⟨rfl, here⟩ all⟩

end

private theorem Expr.IsData.silent {item : Expr} (data : item.IsData) (host : Host) (levels : Nat)
    (scope : Scope) : Silent (evaluateWithin host levels item scope) := by
  have ofSteps {item : Expr}
      (steps : ∀ levels, Silent ((evaluateWithin host levels).step host item scope)) (levels : Nat) :
      Silent (evaluateWithin host levels item scope) := by
    cases levels with
    | zero => exact fun _ => rfl
    | succ levels => exact (steps levels).nested item.position
  induction data generalizing levels with
  | integer | text => exact ofSteps (fun _ => .pure _) levels
  | list _ itemsIH =>
      refine ofSteps (fun levels => Silent.bind ?_ fun _ => .pure _) levels
      exact silent_all (fun item member => itemsIH item member levels) []
  | record _ entriesIH =>
      refine ofSteps (fun levels => Silent.bind ?_ fun _ => .pure _) levels
      exact silent_fields (fun entry member => entriesIH entry member levels) []
  | access _ objectIH =>
      refine ofSteps (fun levels => (objectIH levels).bind fun _ => ?_) levels
      exact .place _ _
  | binary _ _ _ leftIH rightIH =>
      refine ofSteps (fun levels => (leftIH levels).bind fun _ => ?_) levels
      exact (rightIH levels).bind fun _ => .place _ _

/-!
## The values of parts
-/

section

variable {host : Host} {value : Value} {position : Position}

/-- What is evaluated on the way evaluates to the same value when it is evaluated first. -/
theorem evaluates_of_within {item : Expr} {levels depth : Nat} (few : levels ≤ maxDepth + 1)
    (ran : ((evaluateWithin host levels item .initial).run ⟨[], depth⟩).1 = .ok value) :
    Evaluates host item value := by
  have ended := (evaluateWithin_cutShort host few item .initial).shortened [] (Nat.zero_le depth)
  refine (ended.same_of_unlimited ?_).1.trans ran
  rw [ran]
  exact fun _ limited => nomatch limited

private theorem Evaluates.step {item : Expr} (ran : Evaluates host item value) :
    (((evaluateWithin host maxDepth).step host item .initial).run ⟨[], 1⟩).1 = .ok value := by
  unfold Evaluates evaluate evaluateWithin at ran
  rwa [Evaluation.run_nested_of_lt (show 0 < maxDepth by decide)] at ran

theorem Evaluates.binary {operator : Operator} {left right : Expr} (leftData : left.IsData)
    (rightData : right.IsData) (ran : Evaluates host (.binary operator left right position) value) :
    ∃ first second, Evaluates host left first ∧ Evaluates host right second ∧
      operator.apply first second = .ok value := by
  obtain ⟨first, leftRan, ran⟩ := (leftData.silent host maxDepth _).bind_eq_ok ran.step
  obtain ⟨second, rightRan, ran⟩ := (rightData.silent host maxDepth _).bind_eq_ok ran
  exact ⟨first, second, evaluates_of_within (Nat.le_succ _) leftRan,
    evaluates_of_within (Nat.le_succ _) rightRan, place_eq_ok ran⟩

theorem Evaluates.access {object : Expr} {key : String} (data : object.IsData)
    (ran : Evaluates host (.access object key position) value) :
    ∃ entries, Evaluates host object (.record entries) ∧
      value = (Bindings.find? key entries).getD .absent := by
  obtain ⟨found, objectRan, ran⟩ := (data.silent host maxDepth _).bind_eq_ok ran.step
  have read := place_eq_ok ran
  cases found with
  | record entries =>
      cases read
      exact ⟨entries, evaluates_of_within (Nat.le_succ _) objectRan, rfl⟩
  | _ => cases read

theorem Evaluates.list {items : List Expr} (data : ∀ item ∈ items, item.IsData)
    (ran : Evaluates host (.list items position) value) :
    ∃ values, value = .list values ∧ List.Forall₂ (Evaluates host) items values := by
  have silent : ∀ item ∈ items, Silent (evaluateWithin host maxDepth item .initial) :=
    fun item member => (data item member).silent host maxDepth _
  obtain ⟨values, itemsRan, ran⟩ := (silent_all silent []).bind_eq_ok ran.step
  obtain ⟨_, rfl, all⟩ := all_eq_ok silent itemsRan
  exact ⟨values, (Except.ok.inj ran).symm, all.imp fun _ _ => evaluates_of_within (Nat.le_succ _)⟩

theorem Evaluates.record {entries : List (String × Expr)} (data : ∀ entry ∈ entries, entry.2.IsData)
    (ran : Evaluates host (.record entries position) value) :
    ∃ found, value = .record (Bindings.insertAll found []) ∧
      List.Forall₂ (fun entry pair => entry.1 = pair.1 ∧ Evaluates host entry.2 pair.2)
        entries found := by
  have silent : ∀ entry ∈ entries, Silent (evaluateWithin host maxDepth entry.2 .initial) :=
    fun entry member => (data entry member).silent host maxDepth _
  obtain ⟨bound, entriesRan, ran⟩ := (silent_fields silent []).bind_eq_ok ran.step
  obtain ⟨found, rfl, all⟩ := fields_eq_ok silent entriesRan
  refine ⟨found, (Except.ok.inj ran).symm, all.imp fun _ _ => And.imp_right ?_⟩
  exact evaluates_of_within (Nat.le_succ _)

end

end WindowScript
