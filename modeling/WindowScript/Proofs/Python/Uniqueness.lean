import Mathlib
import WindowScript.Proofs.Python.Reading

/-!
# Expressions with the same text

Two expressions of programs have the same Python text only if they are the same tree, once
their pipes are the calls that they stand for, and up to positions and to hyphens in the
place of underscores. The one exception is a name that Python has for a boolean.
-/

set_option autoImplicit false

namespace WindowScript

mutual

/-- An expression with every variable and every callee in it spelled anew. The names of
attributes stay. -/
def Expr.respell (spell : String → String) : Expr → Expr
  | .integer value position => .integer value position
  | .real value position => .real value position
  | .text value position => .text value position
  | .boolean value position => .boolean value position
  | .name label position => .name (spell label) position
  | .binary operator left right position =>
      .binary operator (left.respell spell) (right.respell spell) position
  | .record entries position => .record (Expr.respellEntries spell entries) position
  | .access object key position => .access (object.respell spell) key position
  | .list items position => .list (Expr.respellItems spell items) position
  | .call callee arguments position =>
      .call (spell callee) (Expr.respellItems spell arguments) position
  | .pipe left right position => .pipe (left.respell spell) (right.respell spell) position

def Expr.respellItems (spell : String → String) : List Expr → List Expr
  | [] => []
  | item :: rest => item.respell spell :: Expr.respellItems spell rest

def Expr.respellEntries (spell : String → String) : List (String × Expr) → List (String × Expr)
  | [] => []
  | (key, value) :: rest => (key, value.respell spell) :: Expr.respellEntries spell rest

end

@[simp] theorem Expr.respellItems_eq (spell : String → String) (items : List Expr) :
    Expr.respellItems spell items = items.map (Expr.respell spell) := by
  induction items with
  | nil => rfl
  | cons item rest ih => simp only [Expr.respellItems, List.map_cons, ih]

@[simp] theorem Expr.respellEntries_eq (spell : String → String)
    (entries : List (String × Expr)) :
    Expr.respellEntries spell entries = entries.map (Prod.map id (Expr.respell spell)) := by
  induction entries with
  | nil => rfl
  | cons entry rest ih => simp only [Expr.respellEntries, List.map_cons, ih, Prod.map, id_eq]

/-- No name in an expression is one that Python has for a boolean. -/
def Expr.AvoidsBooleans (item : Expr) : Prop :=
  ∀ label ∈ item.names, label ≠ "True" ∧ label ≠ "False"

instance (item : Expr) : Decidable item.AvoidsBooleans :=
  inferInstanceAs (Decidable (∀ label ∈ item.names, label ≠ "True" ∧ label ≠ "False"))

namespace Python

theorem eq_of_name_eq {label word : String} (free : '_' ∉ word.toList) (same : name label = word) :
    label = word := by
  have spelled : (label.toList.map fun character => if character = '-' then '_' else character) =
      word.toList := by rw [← same, name, String.toList_ofList]
  have kept : ∀ character ∈ label.toList, character ≠ '-' := by
    rintro character member rfl
    exact free (spelled ▸ List.mem_map.mpr ⟨'-', member, rfl⟩)
  have unchanged : (label.toList.map fun character => if character = '-' then '_' else character) =
      label.toList.map id :=
    List.map_congr_left fun character member => if_neg (kept character member)
  rw [List.map_id] at unchanged
  rw [← String.toList_inj, ← unchanged, spelled]

private theorem integer_eq_of_text_eq {left right : Integer} (leftSide : 0 ≤ left.toInt)
    (rightSide : 0 ≤ right.toInt) (same : Integer.text left = Integer.text right) :
    left = right := by
  have values : left.toInt = right.toInt := by
    rw [← Integer.value_text leftSide, ← Integer.value_text rightSide, same]
  exact Int64.toInt_inj.mp values

/-- A real has a point or an exponent in its text, an integer has not. -/
theorem text_integer_ne_text_real {value : Integer} {real : Float} (nonnegative : 0 ≤ value.toInt)
    (finite : Real.isFinite real = true) : Integer.text value ≠ Real.text real := by
  intro same
  have digits := Integer.digits_text nonnegative
  have inside : Real.magnitudeText real ⊆ (Real.text real).toList := by
    rw [Real.toList_text finite]
    split
    · exact List.subset_cons_self _ _
    · exact List.Subset.refl _
  rw [same] at digits
  rcases (Real.fractional_magnitudeText real).marked with point | exponent
  · cases digits _ (inside point)
  · cases digits _ (inside exponent)

/-- The names of the two booleans in Python are nobody else's. -/
theorem name_ne_boolean {label : String} (avoids : label ≠ "True" ∧ label ≠ "False")
    (value : Bool) : name label ≠ if value then "True" else "False" := by
  intro same
  cases value
  · exact avoids.2 (eq_of_name_eq (by decide) same)
  · exact avoids.1 (eq_of_name_eq (by decide) same)

/-- An expression without its positions, with names as they are in Python. -/
def bare (item : Expr) : Expr := (item.relocate fun _ => .nowhere).respell name

/-- Two lists with the same images under one function have the same under another that sees
no more of their elements. -/
theorem map_eq_of_map_eq {α β γ : Type} {one : α → β} {other : α → γ} {left right : List α}
    (coarser : ∀ first ∈ left, ∀ second ∈ right, one first = one second →
      other first = other second) (same : left.map one = right.map one) :
    left.map other = right.map other := by
  induction left generalizing right with
  | nil =>
      cases right with
      | nil => rfl
      | cons => cases same
  | cons first left ih =>
      cases right with
      | nil => cases same
      | cons second right =>
          obtain ⟨heads, tails⟩ := List.cons.inj same
          rw [List.map_cons, List.map_cons, coarser first (.head _) second (.head _) heads,
            ih (fun _ inLeft _ inRight => coarser _ (.tail _ inLeft) _ (.tail _ inRight)) tails]

private theorem bare_eq_of_phrase_eq {first second : Expr}
    (direct : first.Direct fun label => label ≠ "True" ∧ label ≠ "False")
    (other : second.Direct fun label => label ≠ "True" ∧ label ≠ "False")
    (same : phrase first = phrase second) : bare first = bare second := by
  induction direct generalizing second with
  | integer nonnegative =>
      cases other with
      | integer rightSide =>
          simp only [phrase, Phrase.number.injEq] at same
          cases integer_eq_of_text_eq nonnegative rightSide same
          rfl
      | real finite =>
          simp only [phrase, Phrase.number.injEq] at same
          exact absurd same (text_integer_ne_text_real nonnegative finite)
      | _ => cases same
  | real finite =>
      cases other with
      | integer nonnegative =>
          simp only [phrase, Phrase.number.injEq] at same
          exact absurd same.symm (text_integer_ne_text_real nonnegative finite)
      | real rightSide =>
          simp only [phrase, Phrase.number.injEq] at same
          cases Real.text_injective finite rightSide same
          rfl
      | _ => cases same
  | text =>
      cases other with
      | text => cases same; rfl
      | _ => cases same
  | @boolean value _ =>
      cases other with
      | @boolean found _ =>
          cases value <;> cases found <;> first | rfl | (simp [phrase] at same)
      | name _ avoids =>
          simp only [phrase, Phrase.name.injEq] at same
          exact absurd same.symm (name_ne_boolean avoids value)
      | _ => cases same
  | name _ avoids =>
      cases other with
      | @boolean value _ =>
          simp only [phrase, Phrase.name.injEq] at same
          exact absurd same (name_ne_boolean avoids value)
      | name =>
          simp only [phrase, Phrase.name.injEq] at same
          simp only [bare, Expr.relocate, Expr.respell, same]
      | _ => cases same
  | binary _ _ leftIH rightIH =>
      cases other with
      | binary otherLeft otherRight =>
          simp only [phrase, Phrase.operation.injEq] at same
          obtain ⟨rfl, lefts, rights⟩ := same
          simp only [bare, Expr.relocate, Expr.respell, Expr.binary.injEq, true_and, and_true]
          exact ⟨leftIH otherLeft lefts, rightIH otherRight rights⟩
      | _ => cases same
  | record _ fieldsIH =>
      cases other with
      | record others =>
          simp only [phrase, fieldPhrases_eq, Phrase.dictionary.injEq] at same
          simp only [bare, Expr.relocate, Expr.relocateEntries_eq, Attributes.relocate,
            Expr.respell, Expr.respellEntries_eq, List.map_map]
          congr 1
          refine map_eq_of_map_eq ?_ same
          rintro ⟨key, value⟩ member ⟨otherKey, otherValue⟩ otherMember entries
          obtain ⟨rfl, values⟩ := Prod.mk.inj entries
          exact congrArg (key, ·) (fieldsIH _ member (others _ otherMember) values)
      | _ => cases same
  | access _ _ objectIH =>
      cases other with
      | access otherObject _ =>
          simp only [phrase, Phrase.subscript.injEq] at same
          obtain ⟨objects, rfl⟩ := same
          simp only [bare, Expr.relocate, Expr.respell, Expr.access.injEq, and_true]
          exact objectIH otherObject objects
      | _ => cases same
  | list _ itemsIH =>
      cases other with
      | list others =>
          simp only [phrase, phrases_eq, Phrase.list.injEq] at same
          simp only [bare, Expr.relocate, Expr.relocateItems_eq, Expr.respell,
            Expr.respellItems_eq, List.map_map]
          congr 1
          refine map_eq_of_map_eq ?_ same
          exact fun item member found otherMember => itemsIH item member (others found otherMember)
      | _ => cases same
  | call _ _ argumentsIH =>
      cases other with
      | call _ others =>
          simp only [phrase, phrases_eq, Phrase.call.injEq] at same
          obtain ⟨callees, arguments⟩ := same
          simp only [bare, Expr.relocate, Expr.relocateItems_eq, Expr.respell,
            Expr.respellItems_eq, List.map_map, callees]
          congr 1
          refine map_eq_of_map_eq ?_ arguments
          exact fun item member found otherMember =>
            argumentsIH item member (others found otherMember)
      | _ => cases same

/-- Expressions of programs that are written alike are the same tree once their pipes are
the calls they stand for, up to positions and to hyphens and underscores in names. -/
theorem uniquely_readable {source otherSource : String} {program otherProgram : Program}
    (accepted : Script.read source = .ok program)
    (otherAccepted : Script.read otherSource = .ok otherProgram) {item other : Expr}
    (mentioned : program.Mentions item) (otherMentioned : otherProgram.Mentions other)
    (avoids : item.AvoidsBooleans) (otherAvoids : other.AvoidsBooleans)
    (same : expression item = expression other) :
    (item.desugar.relocate fun _ => .nowhere).respell name =
      (other.desugar.relocate fun _ => .nowhere).respell name := by
  have made := Script.read_mentions accepted mentioned
  have otherMade := Script.read_mentions otherAccepted otherMentioned
  have read := read?_expression made
  rw [same, read?_expression otherMade] at read
  exact bare_eq_of_phrase_eq (Expr.Fit.direct ⟨made, avoids⟩)
    (Expr.Fit.direct ⟨otherMade, otherAvoids⟩) (Option.some.inj read).symm

/-- The expression of the source `x-1 | f([2], "]")`. -/
def pipedIn : Expr :=
  .pipe (.name "x-1" ⟨1, 1⟩)
    (.call "f" [.list [.integer 2 ⟨1, 10⟩] ⟨1, 9⟩, .text "]" ⟨1, 14⟩] ⟨1, 7⟩) ⟨1, 5⟩

/-- The expression of the source `f(x_1, [2], "]")`. -/
def calledWith : Expr :=
  .call "f" [.name "x_1" ⟨1, 3⟩, .list [.integer 2 ⟨1, 9⟩] ⟨1, 8⟩, .text "]" ⟨1, 13⟩] ⟨1, 1⟩

theorem uniquely_readable_pipedIn :
    expression pipedIn = expression calledWith ∧
      (pipedIn.desugar.relocate fun _ => .nowhere).respell name =
        (calledWith.desugar.relocate fun _ => .nowhere).respell name := by
  have accepted : Script.read "x-1 | f([2], \"]\")" = .ok [.expression pipedIn ⟨1, 1⟩] := by cbv
  have otherAccepted : Script.read "f(x_1, [2], \"]\")" = .ok [.expression calledWith ⟨1, 1⟩] := by
    cbv
  have same : expression pipedIn = expression calledWith := by decide +kernel
  refine ⟨same, uniquely_readable accepted otherAccepted ?_ ?_ (by decide +kernel)
    (by decide +kernel) same⟩
  · exact ⟨_, .head _, .expression (.self _)⟩
  · exact ⟨_, .head _, .expression (.self _)⟩

end Python

end WindowScript
