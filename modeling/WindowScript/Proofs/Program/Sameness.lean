import Mathlib.Data.List.Forall2
import Mathlib.Logic.Function.Basic
import WindowScript.Proofs.Program.Relocation

/-!
# When two parts of a program are the same

Doubles of one reading are interchangeable as literals. Two parts of a program are the same
exactly when they become equal once one double has taken the place of all that have its reading,
so that being the same is an equivalence.
-/

set_option autoImplicit false

namespace WindowScript

/-- Lists related item by item are lists of allowed items with one list of forms, where that is
how single items are related. -/
theorem forall₂_iff_map_eq {α β : Type} {related : α → α → Prop} {allowed : α → Prop}
    {form : α → β} {items others : List α}
    (each : ∀ item ∈ items, ∀ other,
      related item other ↔ allowed item ∧ allowed other ∧ form item = form other) :
    List.Forall₂ related items others ↔
      (∀ item ∈ items, allowed item) ∧ (∀ other ∈ others, allowed other) ∧
        items.map form = others.map form := by
  induction items generalizing others with
  | nil => cases others <;> simp
  | cons item rest ih =>
      obtain ⟨here, later⟩ := List.forall_mem_cons.mp each
      cases others with
      | nil => simp
      | cons other others =>
          rw [List.forall₂_cons, here, ih later, List.forall_mem_cons, List.forall_mem_cons,
            List.map_cons, List.map_cons, List.cons.injEq]
          tauto

private theorem forall₂_iff_map_eq_of_forall {α β : Type} {related : α → α → Prop} {form : α → β}
    {items others : List α}
    (each : ∀ item ∈ items, ∀ other, related item other ↔ form item = form other) :
    List.Forall₂ related items others ↔ items.map form = others.map form := by
  have all := @forall₂_iff_map_eq α β related (fun _ => True) form items others
    (fun item member other => by simpa using each item member other)
  simpa using all

namespace Real

/-- One of the doubles that have a reading, where there are any. -/
noncomputable def withReading (wanted : Reading) : Float := Function.invFun reading wanted

@[simp] theorem reading_withReading (real : Float) :
    reading (withReading (reading real)) = reading real :=
  Function.invFun_eq ⟨real, rfl⟩

@[simp] theorem withReading_inj {left right : Float} :
    withReading (reading left) = withReading (reading right) ↔ reading left = reading right := by
  constructor
  · intro same
    have readings := congrArg reading same
    rwa [reading_withReading, reading_withReading] at readings
  · exact congrArg withReading

end Real

/-!
## Expressions
-/

mutual

/-- An expression with one double in place of all that have its reading. -/
noncomputable def Expr.canonical : Expr → Expr
  | .real value position => .real (Real.withReading (Real.reading value)) position
  | .binary operator left right position =>
      .binary operator left.canonical right.canonical position
  | .record entries position => .record (Expr.canonicalEntries entries) position
  | .access object key position => .access object.canonical key position
  | .list items position => .list (Expr.canonicalItems items) position
  | .call callee arguments position => .call callee (Expr.canonicalItems arguments) position
  | .pipe left right position => .pipe left.canonical right.canonical position
  | other => other

noncomputable def Expr.canonicalItems : List Expr → List Expr
  | [] => []
  | item :: rest => item.canonical :: Expr.canonicalItems rest

noncomputable def Expr.canonicalEntries : List (String × Expr) → List (String × Expr)
  | [] => []
  | (key, value) :: rest => (key, value.canonical) :: Expr.canonicalEntries rest

end

private theorem Expr.canonicalItems_eq (items : List Expr) :
    Expr.canonicalItems items = items.map Expr.canonical := by
  induction items with
  | nil => rfl
  | cons item rest ih => rw [Expr.canonicalItems, ih, List.map_cons]

private theorem Expr.canonicalEntries_eq (entries : List (String × Expr)) :
    Expr.canonicalEntries entries = entries.map (Prod.map id Expr.canonical) := by
  induction entries with
  | nil => rfl
  | cons entry rest ih => rw [Expr.canonicalEntries, ih, List.map_cons, Prod.map_apply, id]

private theorem Expr.sameItems_iff {items others : List Expr} :
    Expr.sameItems items others = true ↔
      List.Forall₂ (fun item other => item.same other = true) items others := by
  induction items generalizing others with
  | nil => cases others <;> simp [Expr.sameItems]
  | cons item rest ih => cases others <;> simp [Expr.sameItems, ih]

private theorem Expr.sameEntries_iff {entries others : List (String × Expr)} :
    Expr.sameEntries entries others = true ↔
      List.Forall₂ (fun entry other => entry.1 = other.1 ∧ entry.2.same other.2 = true)
        entries others := by
  induction entries generalizing others with
  | nil => cases others <;> simp [Expr.sameEntries]
  | cons entry rest ih => cases others <;> simp [Expr.sameEntries, ih]

private theorem Expr.sameItems_iff_canonical {items : List Expr}
    (each : ∀ item ∈ items, ∀ other, item.same other = true ↔ item.canonical = other.canonical)
    (others : List Expr) :
    Expr.sameItems items others = true ↔
      Expr.canonicalItems items = Expr.canonicalItems others := by
  rw [Expr.sameItems_iff, Expr.canonicalItems_eq, Expr.canonicalItems_eq]
  exact forall₂_iff_map_eq_of_forall each

private theorem Expr.sameEntries_iff_canonical {entries : List (String × Expr)}
    (each : ∀ entry ∈ entries, ∀ other,
      entry.2.same other = true ↔ entry.2.canonical = other.canonical)
    (others : List (String × Expr)) :
    Expr.sameEntries entries others = true ↔
      Expr.canonicalEntries entries = Expr.canonicalEntries others := by
  rw [Expr.sameEntries_iff, Expr.canonicalEntries_eq, Expr.canonicalEntries_eq]
  apply forall₂_iff_map_eq_of_forall
  intro entry member other
  rw [each entry member, Prod.ext_iff]
  rfl

private theorem Expr.same_iff (item other : Expr) :
    item.same other = true ↔ item.canonical = other.canonical := by
  induction item using Expr.structural generalizing other with
  | integer | real | text | boolean | name =>
      cases other <;> simp [Expr.same, Expr.canonical, Real.alike]
  | binary operator left right position leftIH rightIH =>
      cases other <;> simp [Expr.same, Expr.canonical, leftIH, rightIH, and_assoc]
  | record entries position entriesIH =>
      have inner := Expr.sameEntries_iff_canonical fun entry member => entriesIH entry member
      cases other <;> simp [Expr.same, Expr.canonical, inner]
  | access object key position objectIH =>
      cases other <;> simp [Expr.same, Expr.canonical, objectIH, and_assoc]
  | list items position itemsIH =>
      cases other <;> simp [Expr.same, Expr.canonical, Expr.sameItems_iff_canonical itemsIH]
  | call callee arguments position argumentsIH =>
      have inner := Expr.sameItems_iff_canonical argumentsIH
      cases other <;> simp [Expr.same, Expr.canonical, inner, and_assoc]
  | pipe left right position leftIH rightIH =>
      cases other <;> simp [Expr.same, Expr.canonical, leftIH, rightIH, and_assoc]

private theorem Attributes.same_iff (attributes others : Attributes) :
    Expr.sameEntries attributes others = true ↔
      Expr.canonicalEntries attributes = Expr.canonicalEntries others :=
  Expr.sameEntries_iff_canonical (fun entry _ => entry.2.same_iff) others

/-!
## Interfaces
-/

noncomputable def Widget.canonical (widget : Widget) : Widget :=
  { widget with attributes := Expr.canonicalEntries widget.attributes }

noncomputable def Window.canonical (window : Window) : Window :=
  { window with
    attributes := Expr.canonicalEntries window.attributes
    children := window.children.map Widget.canonical }

noncomputable def Element.canonical : Element → Element
  | .window part => .window part.canonical
  | .widget part => .widget part.canonical

noncomputable def Gui.canonical (gui : Gui) : Gui :=
  { gui with elements := gui.elements.map Element.canonical }

private theorem Widget.same_iff (widget other : Widget) :
    widget.same other = true ↔ widget.canonical = other.canonical := by
  obtain ⟨kind, attributes, position⟩ := widget
  obtain ⟨otherKind, others, otherPosition⟩ := other
  simp [Widget.same, Widget.canonical, Attributes.same_iff, and_assoc]

private theorem Widget.sameAll_iff {widgets others : List Widget} :
    Widget.sameAll widgets others = true ↔
      widgets.map Widget.canonical = others.map Widget.canonical := by
  induction widgets generalizing others with
  | nil => cases others <;> simp [Widget.sameAll]
  | cons widget rest ih => cases others <;> simp [Widget.sameAll, Widget.same_iff, ih]

private theorem Window.same_iff (window other : Window) :
    window.same other = true ↔ window.canonical = other.canonical := by
  obtain ⟨attributes, children, position⟩ := window
  obtain ⟨others, otherChildren, otherPosition⟩ := other
  simp [Window.same, Window.canonical, Attributes.same_iff, Widget.sameAll_iff, and_assoc]

private theorem Element.same_iff (part other : Element) :
    part.same other = true ↔ part.canonical = other.canonical := by
  cases part <;> cases other <;>
    simp [Element.same, Element.canonical, Window.same_iff, Widget.same_iff]

private theorem Element.sameAll_iff {parts others : List Element} :
    Element.sameAll parts others = true ↔
      parts.map Element.canonical = others.map Element.canonical := by
  induction parts generalizing others with
  | nil => cases others <;> simp [Element.sameAll]
  | cons part rest ih => cases others <;> simp [Element.sameAll, Element.same_iff, ih]

theorem Gui.same_iff (gui other : Gui) :
    gui.same other = true ↔ gui.canonical = other.canonical := by
  obtain ⟨name, elements, position⟩ := gui
  obtain ⟨otherName, others, otherPosition⟩ := other
  simp [Gui.same, Gui.canonical, Element.sameAll_iff, and_assoc]

/-!
## Statements
-/

mutual

noncomputable def Statement.canonical : Statement → Statement
  | .binding name value position => .binding name value.canonical position
  | .function name parameters body position =>
      .function name parameters (Statement.canonicalAll body) position
  | .returning value position => .returning value.canonical position
  | .gui described => .gui described.canonical
  | .expression value position => .expression value.canonical position

noncomputable def Statement.canonicalAll : List Statement → List Statement
  | [] => []
  | statement :: rest => statement.canonical :: Statement.canonicalAll rest

end

noncomputable def Function.canonical (definition : Function) : Function :=
  { definition with body := Statement.canonicalAll definition.body }

private theorem Statement.canonicalAll_eq (body : List Statement) :
    Statement.canonicalAll body = body.map Statement.canonical := by
  induction body with
  | nil => rfl
  | cons statement rest ih => rw [Statement.canonicalAll, ih, List.map_cons]

private theorem Statement.sameAll_iff {body others : List Statement} :
    Statement.sameAll body others = true ↔
      List.Forall₂ (fun statement other => statement.same other = true) body others := by
  induction body generalizing others with
  | nil => cases others <;> simp [Statement.sameAll]
  | cons statement rest ih => cases others <;> simp [Statement.sameAll, ih]

private theorem Statement.sameAll_iff_canonical {body : List Statement}
    (each : ∀ statement ∈ body, ∀ other,
      statement.same other = true ↔ statement.canonical = other.canonical)
    (others : List Statement) :
    Statement.sameAll body others = true ↔
      Statement.canonicalAll body = Statement.canonicalAll others := by
  rw [Statement.sameAll_iff, Statement.canonicalAll_eq, Statement.canonicalAll_eq]
  exact forall₂_iff_map_eq_of_forall each

private theorem Statement.same_iff (statement other : Statement) :
    statement.same other = true ↔ statement.canonical = other.canonical := by
  induction statement using Statement.structural generalizing other with
  | binding | returning | expression =>
      cases other <;> simp [Statement.same, Statement.canonical, Expr.same_iff, and_assoc]
  | function name parameters body position bodyIH =>
      have inner := Statement.sameAll_iff_canonical bodyIH
      cases other <;> simp [Statement.same, Statement.canonical, inner, and_assoc]
  | gui described => cases other <;> simp [Statement.same, Statement.canonical, Gui.same_iff]

theorem Function.same_iff (definition other : Function) :
    definition.same other = true ↔ definition.canonical = other.canonical := by
  obtain ⟨name, parameters, body, position⟩ := definition
  obtain ⟨otherName, otherParameters, others, otherPosition⟩ := other
  have inner := Statement.sameAll_iff_canonical
    fun statement (_ : statement ∈ body) => statement.same_iff
  simp [Function.same, Function.canonical, inner, and_assoc]

end WindowScript
