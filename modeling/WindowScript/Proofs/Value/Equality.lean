import WindowScript.Proofs.Number.Casts
import WindowScript.Proofs.Program.Sameness
import WindowScript.Proofs.Value.Bindings

/-!
# Equality is an equivalence

Every value has a form that it shares with just the values equal to it: one double stands for
all that have its reading, and in the loose equality for the integer that has it too. Two values
are equal when they have one form and hold nothing undefined.
-/

set_option autoImplicit false

namespace WindowScript

/-- Induction over values, with one hypothesis for each value that a list, a record or a captured
scope holds. -/
theorem Value.structural {motive : Value → Prop}
    (absent : motive .absent)
    (integer : ∀ value, motive (.integer value))
    (real : ∀ value, motive (.real value))
    (boolean : ∀ value, motive (.boolean value))
    (text : ∀ value, motive (.text value))
    (list : ∀ items, (∀ item ∈ items, motive item) → motive (.list items))
    (record : ∀ entries, (∀ entry ∈ entries, motive entry.2) → motive (.record entries))
    (function : ∀ definition captured, (∀ entry ∈ captured, motive entry.2) →
      motive (.function definition captured))
    (builtin : ∀ builtin, motive (.builtin builtin))
    (gui : ∀ gui, motive (.gui gui)) :
    ∀ value, motive value :=
  @Value.rec motive (fun items => ∀ item ∈ items, motive item)
    (fun entries => ∀ entry ∈ entries, motive entry.2) (fun entry => motive entry.2)
    absent integer real boolean text list record function builtin gui
    (by simp)
    (fun _ _ head tail => List.forall_mem_cons.mpr ⟨head, tail⟩)
    (by simp)
    (fun _ _ head tail => List.forall_mem_cons.mpr ⟨head, tail⟩)
    (fun _ _ value => value)

/-- A value with no undefined real in it, in lists, in records or in captured scopes. -/
inductive Value.Defined : Value → Prop where
  | absent : Defined .absent
  | integer {value : Integer} : Defined (.integer value)
  | real {value : Float} : Real.reading value ≠ .undefined → Defined (.real value)
  | boolean {value : Bool} : Defined (.boolean value)
  | text {value : String} : Defined (.text value)
  | list {items : List Value} : (∀ item ∈ items, Defined item) → Defined (.list items)
  | record {entries : List (String × Value)} :
      (∀ entry ∈ entries, Defined entry.2) → Defined (.record entries)
  | function {definition : Function} {captured : Scope} :
      (∀ entry ∈ captured, Defined entry.2) → Defined (.function definition captured)
  | builtin {builtin : Builtin} : Defined (.builtin builtin)
  | gui {described : Gui} : Defined (.gui described)

namespace Value

attribute [simp] Defined.absent Defined.integer Defined.boolean Defined.text Defined.builtin
  Defined.gui

@[simp] theorem defined_real {value : Float} :
    (Value.real value).Defined ↔ Real.reading value ≠ .undefined :=
  ⟨fun | .real defined => defined, .real⟩

@[simp] theorem defined_list {items : List Value} :
    (Value.list items).Defined ↔ ∀ item ∈ items, item.Defined :=
  ⟨fun | .list each => each, .list⟩

@[simp] theorem defined_record {entries : List (String × Value)} :
    (Value.record entries).Defined ↔ ∀ entry ∈ entries, entry.2.Defined :=
  ⟨fun | .record each => each, .record⟩

@[simp] theorem defined_function {definition : Function} {captured : Scope} :
    (Value.function definition captured).Defined ↔ ∀ entry ∈ captured, entry.2.Defined :=
  ⟨fun | .function each => each, .function⟩

/-!
## Forms
-/

private theorem equals_real_iff {left right : Float} :
    Real.equals left right = true ↔
      Real.reading left ≠ .undefined ∧ Real.reading right ≠ .undefined ∧
        Real.reading left = Real.reading right := by
  unfold Real.equals Real.Reading.equals
  generalize Real.reading left = first
  generalize Real.reading right = second
  cases first <;> cases second <;> simp

/-- What an integer reads as when it is taken for a double. -/
def wholeReading (value : Integer) : Real.Reading := .units (value.toInt * Real.unitsPerOne)

/-- A double that stands for an integer, or the integer where there is none. -/
noncomputable def ofWhole (value : Integer) : Value :=
  if Real.reading (Real.withReading (wholeReading value)) = wholeReading value then
    .real (Real.withReading (wholeReading value))
  else .integer value

mutual

/-- The form that a value shares with all that equal it, in the loose equality or in the strict
one. Functions are compared strictly by both. -/
noncomputable def form : Bool → Value → Value
  | loose, .integer value => if loose then ofWhole value else .integer value
  | _, .real value => .real (Real.withReading (Real.reading value))
  | loose, .list items => .list (formItems loose items)
  | loose, .record entries => .record (formEntries loose entries)
  | _, .function definition captured => .function definition.canonical (formEntries false captured)
  | _, .gui described => .gui described.canonical
  | _, other => other

noncomputable def formItems : Bool → List Value → List Value
  | _, [] => []
  | loose, item :: rest => form loose item :: formItems loose rest

noncomputable def formEntries : Bool → List (String × Value) → List (String × Value)
  | _, [] => []
  | loose, (name, value) :: rest => (name, form loose value) :: formEntries loose rest

end

private theorem formItems_eq (loose : Bool) (items : List Value) :
    formItems loose items = items.map (form loose) := by
  induction items with
  | nil => rfl
  | cons item rest ih => rw [formItems, ih, List.map_cons]

private theorem formEntries_eq (loose : Bool) (entries : List (String × Value)) :
    formEntries loose entries = entries.map (Prod.map id (form loose)) := by
  induction entries with
  | nil => rfl
  | cons entry rest ih => rw [formEntries, ih, List.map_cons, Prod.map_apply, id]

private theorem wholeReading_inj {left right : Integer} :
    wholeReading left = wholeReading right ↔ left = right := by
  have nonzero : Real.unitsPerOne ≠ 0 := Int.ne_of_gt Real.unitsPerOne_pos
  rw [wholeReading, wholeReading, Real.Reading.units.injEq, Int.mul_eq_mul_right_iff nonzero,
    Int64.toInt_inj]

private theorem ofWhole_eq_real_iff {value : Integer} {real : Float} :
    ofWhole value = .real (Real.withReading (Real.reading real)) ↔
      Real.reading real = wholeReading value := by
  unfold ofWhole
  split
  · next exact =>
      rw [Value.real.injEq, ← exact, Real.withReading_inj, exact, eq_comm]
  · next none =>
      simp only [reduceCtorEq, false_iff]
      intro same
      rw [← same, Real.reading_withReading] at none
      exact none rfl

private theorem equalsInteger_iff {value : Integer} {real : Float} :
    Real.equalsInteger value real = true ↔
      Real.reading real ≠ .undefined ∧
        ofWhole value = .real (Real.withReading (Real.reading real)) := by
  rw [ofWhole_eq_real_iff, Real.equalsInteger_iff_reading]
  refine ⟨fun exact => ⟨?_, exact⟩, And.right⟩
  rw [exact]
  exact Real.Reading.noConfusion

private theorem ofWhole_inj {left right : Integer} :
    ofWhole left = ofWhole right ↔ left = right := by
  constructor
  · intro same
    unfold ofWhole at same
    split at same <;> split at same
    · next exact other =>
        have readings := congrArg Real.reading (Value.real.inj same)
        rwa [exact, other, wholeReading_inj] at readings
    · cases same
    · cases same
    · exact Value.integer.inj same
  · exact congrArg ofWhole

private theorem ofWhole_ne {value : Integer} {other : Value}
    (notInteger : ∀ held, other ≠ .integer held) (notReal : ∀ held, other ≠ .real held) :
    ofWhole value ≠ other := by
  unfold ofWhole
  split
  · exact (notReal _).symm
  · exact (notInteger _).symm

private theorem ne_ofWhole {value : Integer} {other : Value}
    (notInteger : ∀ held, other ≠ .integer held) (notReal : ∀ held, other ≠ .real held) :
    other ≠ ofWhole value :=
  (ofWhole_ne notInteger notReal).symm

/-!
## Equality is having one form
-/

private theorem sameItems_iff {items others : List Value} :
    sameItems items others = true ↔
      List.Forall₂ (fun item other => item.same other = true) items others := by
  induction items generalizing others with
  | nil => cases others <;> simp [sameItems]
  | cons item rest ih => cases others <;> simp [sameItems, ih]

private theorem sameEntries_iff {entries others : List (String × Value)} :
    sameEntries entries others = true ↔
      List.Forall₂ (fun entry other => entry.1 = other.1 ∧ entry.2.same other.2 = true)
        entries others := by
  induction entries generalizing others with
  | nil => cases others <;> simp [sameEntries]
  | cons entry rest ih => cases others <;> simp [sameEntries, ih]

private theorem equalItems_iff {items others : List Value} :
    equalItems items others = true ↔
      List.Forall₂ (fun item other => item.equals other = true) items others := by
  induction items generalizing others with
  | nil => cases others <;> simp [equalItems]
  | cons item rest ih => cases others <;> simp [equalItems, ih]

/-- How an equality shows in the forms of values. -/
def Agree (loose : Bool) (equality : Value → Value → Bool) (value : Value) : Prop :=
  ∀ other, equality value other = true ↔
    value.Defined ∧ other.Defined ∧ form loose value = form loose other

section

variable {loose : Bool} {equality : Value → Value → Bool}

private theorem forall₂_items {items : List Value}
    (each : ∀ item ∈ items, Agree loose equality item) (others : List Value) :
    List.Forall₂ (fun item other => equality item other = true) items others ↔
      (∀ item ∈ items, item.Defined) ∧ (∀ other ∈ others, other.Defined) ∧
        formItems loose items = formItems loose others := by
  rw [formItems_eq, formItems_eq]
  exact forall₂_iff_map_eq each

private theorem forall₂_entries {entries : List (String × Value)}
    (each : ∀ entry ∈ entries, Agree loose equality entry.2) (others : List (String × Value)) :
    List.Forall₂ (fun entry other => entry.1 = other.1 ∧ equality entry.2 other.2 = true)
        entries others ↔
      (∀ entry ∈ entries, entry.2.Defined) ∧ (∀ other ∈ others, other.2.Defined) ∧
        formEntries loose entries = formEntries loose others := by
  rw [formEntries_eq, formEntries_eq]
  apply @forall₂_iff_map_eq _ _ _ fun entry : String × Value => entry.2.Defined
  intro entry member other
  rw [each entry member other.2, Prod.ext_iff, Prod.map_fst, Prod.map_fst, Prod.map_snd,
    Prod.map_snd, id, id]
  tauto

end

private theorem same_agree (value : Value) : Agree false same value := by
  induction value using structural with
  | absent | integer | boolean | text | builtin =>
      intro other
      cases other <;> simp [same, form]
  | real value =>
      intro other
      cases other <;> simp [same, form, equals_real_iff]
  | list items itemsIH =>
      intro other
      cases other <;> simp [same, form, sameItems_iff, forall₂_items itemsIH]
  | record entries entriesIH =>
      intro other
      cases other <;> simp [same, form, sameEntries_iff, forall₂_entries entriesIH]
  | function definition captured capturedIH =>
      intro other
      cases other <;>
        simp [same, form, sameEntries_iff, forall₂_entries capturedIH, Function.same_iff,
          and_left_comm]
  | gui described =>
      intro other
      cases other <;> simp [same, form, Gui.same_iff]

theorem equals_agree (value : Value) : Agree true equals value := by
  induction value using structural with
  | absent | boolean | text | builtin =>
      intro other
      cases other <;> simp [equals, same, form, ne_ofWhole]
  | integer value =>
      intro other
      cases other <;> simp [equals, same, form, ofWhole_ne, ofWhole_inj, equalsInteger_iff]
  | real value =>
      intro other
      cases other with
      | integer whole => simp [equals, form, equalsInteger_iff, @eq_comm _ (ofWhole whole)]
      | _ => simp [equals, same, form, equals_real_iff]
  | list items itemsIH =>
      intro other
      cases other <;> simp [equals, same, form, equalItems_iff, forall₂_items itemsIH, ne_ofWhole]
  | record entries entriesIH =>
      intro other
      cases other <;>
        simp [equals, same, form, equalEntries_iff, forall₂_entries entriesIH, ne_ofWhole]
  | function definition captured =>
      intro other
      have strict := same_agree (.function definition captured) other
      cases other <;> simp_all [equals, form, ne_ofWhole]
  | gui described =>
      intro other
      cases other <;> simp [equals, same, form, Gui.same_iff, ne_ofWhole]

/-!
## The loose equality
-/

private theorem forall₂_of_forall_mem {α : Type} {related further : α → α → Prop}
    {items others : List α}
    (each : ∀ item ∈ items, ∀ other, related item other → further item other)
    (all : List.Forall₂ related items others) : List.Forall₂ further items others := by
  obtain ⟨lengths, pairs⟩ := List.forall₂_iff_zip.mp all
  refine List.forall₂_iff_zip.mpr ⟨lengths, fun member => ?_⟩
  exact each _ (List.of_mem_zip member).1 _ (pairs member)

private theorem equals_of_same {value other : Value} (strict : value.same other = true) :
    value.equals other = true := by
  induction value using structural generalizing other with
  | list items itemsIH =>
      cases other with
      | list others =>
          rw [same, sameItems_iff] at strict
          rw [equals, equalItems_iff]
          exact forall₂_of_forall_mem (fun item member other => itemsIH item member) strict
      | _ => cases strict
  | record entries entriesIH =>
      cases other with
      | record others =>
          rw [same, sameEntries_iff] at strict
          rw [equals, equalEntries_iff]
          refine forall₂_of_forall_mem (fun entry member other => ?_) strict
          exact And.imp_right (entriesIH entry member)
      | _ => cases strict
  | _ => cases other <;> simp_all [same, equals]

/-- The equality of the language is symmetric and transitive, and a value equals itself just when
nothing undefined is in it. What is strictly equal is equal. Records are equal just when every name
is missing from both or bound in both to equal values. -/
theorem equals_equivalence :
    (∀ value other : Value, value.equals other = true → other.equals value = true) ∧
    (∀ value other third : Value, value.equals other = true → other.equals third = true →
      value.equals third = true) ∧
    (∀ value : Value, value.equals value = true ↔ value.Defined) ∧
    (∀ value other : Value, value.same other = true → value.equals other = true) ∧
    ∀ left right : List (String × Value), Bindings.Sorted left → Bindings.Sorted right →
      (Value.equals (.record left) (.record right) = true ↔
        ∀ name, Option.Rel (fun one other => Value.equals one other = true)
          (Bindings.find? name left) (Bindings.find? name right)) := by
  refine ⟨?_, ?_, ?_, ?_, ?_⟩
  · intro value other
    rw [equals_agree, equals_agree]
    rintro ⟨defined, otherDefined, forms⟩
    exact ⟨otherDefined, defined, forms.symm⟩
  · intro value other third
    rw [equals_agree, equals_agree, equals_agree]
    rintro ⟨defined, _, forms⟩ ⟨_, thirdDefined, others⟩
    exact ⟨defined, thirdDefined, forms.trans others⟩
  · intro value
    rw [equals_agree]
    exact ⟨And.left, fun defined => ⟨defined, defined, rfl⟩⟩
  · exact fun value other => equals_of_same
  · exact fun left right => equals_record_iff

/-- The whole number 2 ^ 53 as an integer and as a double, in lists beside records. -/
theorem equals_equivalence_wholeAndReal :
    let fields : List (String × Value) := [("k", .integer 1)]
    let reals : List (String × Value) := [("k", .real (Float.ofBits 0x3FF0000000000000))]
    let whole : Value := .list [.integer 9007199254740992, .record fields]
    let real : Value := .list [.real (Float.ofBits 0x4340000000000000), .record reals]
    (whole.equals real = true ∧ real.equals whole = true ∧ whole.equals whole = true) ∧
      whole.Defined ∧ (whole.same whole = true ∧ whole.equals whole = true) ∧
      ∀ name, Option.Rel (fun one other => Value.equals one other = true)
        (Bindings.find? name fields) (Bindings.find? name reals) := by
  intro fields reals whole real
  have same : whole.equals real = true := by decide +kernel
  have turned := equals_equivalence.1 whole real same
  have twice := equals_equivalence.2.1 whole real whole same turned
  have strict : whole.same whole = true := by decide +kernel
  have records : Value.equals (.record fields) (.record reals) = true := by decide +kernel
  refine ⟨⟨same, turned, twice⟩, (equals_equivalence.2.2.1 whole).mp twice,
    ⟨strict, equals_equivalence.2.2.2.1 whole whole strict⟩, ?_⟩
  exact (equals_equivalence.2.2.2.2 fields reals (List.pairwise_singleton _ _)
    (List.pairwise_singleton _ _)).mp records

end Value

end WindowScript
