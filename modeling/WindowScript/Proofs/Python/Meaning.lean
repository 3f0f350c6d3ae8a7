import Mathlib
import WindowScript.Proofs.Evaluation.Data
import WindowScript.Proofs.Evaluation.Repetition
import WindowScript.Proofs.Python.Objects
import WindowScript.Proofs.Python.Reading

/-!
# Python computes what evaluation computes

On expressions that only build and take apart data, the Python text of an expression has
the value to which the expression evaluates. Integers of the language that do not overflow
are integers of Python, and a record is a dictionary with the same keys.
-/

set_option autoImplicit false

namespace WindowScript.Python

/-!
## Values and objects
-/

/-- The object that a value of data is in Python. A record is a dictionary with the same
keys; its own keys are in order, and neither has a key twice. -/
inductive Corresponds : Value → Object → Prop where
  | integer {value : Integer} : Corresponds (.integer value) (.int value.toInt)
  | text {value : String} : Corresponds (.text value) (.str value)
  | list {items : List Value} {objects : List Object} :
      items.length = objects.length →
      (∀ item object, (item, object) ∈ items.zip objects → Corresponds item object) →
      Corresponds (.list items) (.list objects)
  | record {fields : List (String × Value)} {entries : List (String × Object)} :
      Bindings.Sorted fields → (entries.map Prod.fst).Nodup →
      (∀ key, (Bindings.find? key fields).isSome = (Bindings.find? key entries).isSome) →
      (∀ key value object, Bindings.find? key fields = some value →
        Bindings.find? key entries = some object → Corresponds value object) →
      Corresponds (.record fields) (.dict entries)

private theorem corresponds_list {items : List Value} {objects : List Object}
    (each : List.Forall₂ Corresponds items objects) : Corresponds (.list items) (.list objects) := by
  obtain ⟨lengths, all⟩ := List.forall₂_iff_zip.mp each
  exact .list lengths fun _ _ member => all member

private theorem Corresponds.items {items : List Value} {objects : List Object}
    (same : Corresponds (.list items) (.list objects)) : List.Forall₂ Corresponds items objects := by
  cases same with
  | list lengths each => exact List.forall₂_iff_zip.mpr ⟨lengths, fun member => each _ _ member⟩

private theorem rel_of_isSome {α β : Type} {related : α → β → Prop} {first : Option α}
    {second : Option β} (present : first.isSome = second.isSome)
    (values : ∀ one other, first = some one → second = some other → related one other) :
    Option.Rel related first second := by
  cases first with
  | none =>
      cases second with
      | none => exact .none
      | some => cases present
  | some one =>
      cases second with
      | none => cases present
      | some other => exact .some (values one other rfl rfl)

/-!
### Equality
-/

/-- Values that compare alike with whatever corresponds make up lists that do. -/
theorem equalItems_eq {left right : List Value} {one other : List Object}
    (alike : List.Forall₂ (fun value object => ∀ {another : Value} {thing : Object},
      Corresponds another thing → value.equals another = object.equals thing) left one)
    (same : List.Forall₂ Corresponds right other) :
    Value.equalItems left right = Object.equalItems one other := by
  induction alike generalizing right other with
  | nil => cases same <;> rfl
  | cons first _ ih =>
      cases same with
      | nil => rfl
      | cons head tail => rw [Value.equalItems, Object.equalItems, first head, ih tail]

private theorem rel_equals_iff {left right : Option Value} {one other : Option Object}
    (alike : Option.Rel (fun value object => ∀ {another : Value} {thing : Object},
      Corresponds another thing → value.equals another = object.equals thing) left one)
    (same : Option.Rel Corresponds right other) :
    Option.Rel (fun first second => first.equals second = true) left right ↔
      Option.Rel (fun first second => first.equals second = true) one other := by
  cases alike with
  | none => cases same <;> simp
  | some agree =>
      cases same with
      | none => simp
      | some head => rw [Option.rel_some_some, Option.rel_some_some, agree head]

private theorem Corresponds.equals {left right : Value} {one other : Object}
    (same : Corresponds left one) (otherSame : Corresponds right other) :
    left.equals right = one.equals other := by
  induction same generalizing right other with
  | integer =>
      cases otherSame with
      | integer => simp [Value.equals, Value.same, Object.equals, Object.whole?, Int64.toInt_inj]
      | _ => rfl
  | text =>
      cases otherSame with
      | text => simp [Value.equals, Value.same, Object.equals]
      | _ => rfl
  | list lengths _ ih =>
      cases otherSame with
      | list otherLengths otherEach =>
          rw [Value.equals, Object.equals]
          refine equalItems_eq (List.forall₂_iff_zip.mpr ⟨lengths, ?_⟩)
            (List.forall₂_iff_zip.mpr ⟨otherLengths, fun member => otherEach _ _ member⟩)
          exact fun member => ih _ _ member
      | _ => rfl
  | record sorted distinct keys _ ih =>
      cases otherSame with
      | record otherSorted otherDistinct otherKeys otherValues =>
          rw [Bool.eq_iff_iff, Value.equals_record_iff sorted otherSorted,
            Object.equals_dict_iff distinct otherDistinct]
          apply forall_congr'
          intro key
          have alike := rel_of_isSome (keys key) (ih key)
          exact rel_equals_iff alike (rel_of_isSome (otherKeys key) (otherValues key))
      | _ => rfl

/-!
### Operations
-/

private theorem corresponds_repeatedText {text : String} {count : Integer} {value : Value}
    (ran : repeatedText text count = .ok value) :
    ∃ object, Object.repeated? count.toInt (.str text) = some object ∧ Corresponds value object := by
  unfold repeatedText at ran
  cases counted : repetitions text.utf8ByteSize count with
  | error cause => rw [counted] at ran; cases ran
  | ok copies =>
      rw [counted] at ran
      cases ran
      have whole : (repeatText text copies).toList =
          (List.replicate count.toInt.toNat text.toList).flatten := by
        rw [toList_repeatText]
        apply flatten_copies _ counted
        simp
      refine ⟨_, rfl, ?_⟩
      rw [← whole, String.ofList_toList]
      exact .text

private theorem corresponds_repeatedList {items : List Value} {objects : List Object}
    {count : Integer} {value : Value} (same : List.Forall₂ Corresponds items objects)
    (ran : repeatedList items count = .ok value) :
    ∃ object, Object.repeated? count.toInt (.list objects) = some object ∧
      Corresponds value object := by
  have repeats (copies : Nat) : List.Forall₂ Corresponds (List.replicate copies items).flatten
      (List.replicate copies objects).flatten := by
    induction copies with
    | zero => exact .nil
    | succ copies ih =>
        rw [List.replicate_succ, List.replicate_succ, List.flatten_cons, List.flatten_cons]
        exact List.rel_append same ih
  unfold repeatedList at ran
  cases counted : repetitions items.length count with
  | error cause => rw [counted] at ran; cases ran
  | ok copies =>
      rw [counted] at ran
      cases ran
      refine ⟨_, rfl, corresponds_list ?_⟩
      rw [repeatList_eq, flatten_copies List.length_eq_zero_iff.mp counted]
      exact repeats _

/-- An integer that does not overflow is the integer of Python. -/
theorem corresponds_checked {whole : Int} {value : Value}
    (ran : Operator.checked (Integer.ofInt? whole) = .ok value) :
    Corresponds value (.int whole) := by
  cases found : Integer.ofInt? whole with
  | none => rw [found] at ran; cases ran
  | some held =>
      rw [found] at ran
      cases ran
      rw [← Integer.ofInt?_eq_some_iff.mp found]
      exact .integer

private theorem Corresponds.apply {operator : Operator}
    (arithmetic : operator = .add ∨ operator = .sub ∨ operator = .mul) {left right value : Value}
    {one other : Object} (same : Corresponds left one) (otherSame : Corresponds right other)
    (ran : operator.apply left right = .ok value) :
    ∃ object, one.operate? operator other = some object ∧ Corresponds value object := by
  rcases arithmetic with rfl | rfl | rfl
  · cases same with
    | integer =>
        cases otherSame with
        | integer => exact ⟨_, rfl, corresponds_checked ran⟩
        | _ => cases ran
    | text =>
        cases otherSame with
        | text => cases ran; exact ⟨_, rfl, .text⟩
        | _ => cases ran
    | list lengths each =>
        cases otherSame with
        | list otherLengths otherEach =>
            cases ran
            refine ⟨_, rfl, corresponds_list (List.rel_append ?_ ?_)⟩
            · exact Corresponds.items (.list lengths each)
            · exact Corresponds.items (.list otherLengths otherEach)
        | _ => cases ran
    | record => cases otherSame <;> cases ran
  · cases same with
    | integer =>
        cases otherSame with
        | integer => exact ⟨_, rfl, corresponds_checked ran⟩
        | _ => cases ran
    | _ => cases otherSame <;> cases ran
  · cases same with
    | integer =>
        cases otherSame with
        | integer => exact ⟨_, rfl, corresponds_checked ran⟩
        | text => exact corresponds_repeatedText ran
        | list lengths each =>
            exact corresponds_repeatedList (Corresponds.items (.list lengths each)) ran
        | record => cases ran
    | text =>
        cases otherSame with
        | integer => exact corresponds_repeatedText ran
        | _ => cases ran
    | list lengths each =>
        cases otherSame with
        | integer => exact corresponds_repeatedList (Corresponds.items (.list lengths each)) ran
        | _ => cases ran
    | record => cases otherSame <;> cases ran

/-!
## Data
-/

/-- Records and dictionaries that correspond still do when each gets one more binding. -/
theorem corresponds_insert {fields : List (String × Value)} {entries : List (String × Object)}
    (same : Corresponds (.record fields) (.dict entries)) {value : Value} {object : Object}
    (added : Corresponds value object) (key : String) :
    Corresponds (.record (Bindings.insert key value fields))
      (.dict (Object.store key object entries)) := by
  cases same with
  | record sorted distinct keys values =>
      refine .record (sorted.insert key value) (Object.nodup_store distinct key object) ?_ ?_
      · intro name
        rw [Bindings.find?_insert, Object.find?_store]
        split
        · rfl
        · exact keys name
      · intro name held thing
        rw [Bindings.find?_insert, Object.find?_store]
        split
        · rintro ⟨⟩ ⟨⟩
          exact added
        · exact values name held thing

private theorem corresponds_insertAll {found : List (String × Value)}
    {objects : List (String × Object)}
    (each : List.Forall₂ (fun pair entry => pair.1 = entry.1 ∧ Corresponds pair.2 entry.2)
      found objects) :
    Corresponds (.record (Bindings.insertAll found [])) (.dict (Object.collect objects)) := by
  -- Both are built one binding after the other, from what corresponds already.
  suffices building : ∀ fields entries, Corresponds (.record fields) (.dict entries) →
      Corresponds (.record (Bindings.insertAll found fields))
        (.dict (objects.foldl (fun held entry => Object.store entry.1 entry.2 held) entries)) from
    building [] [] (.record .nil .nil (fun _ => rfl) (fun _ _ _ missing => nomatch missing))
  induction each with
  | nil => exact fun _ _ same => same
  | @cons pair entry _ _ first _ ih =>
      intro fields entries same
      obtain ⟨key, object⟩ := entry
      obtain ⟨rfl, added⟩ := first
      exact ih _ _ (corresponds_insert same added pair.1)

private theorem exists_forall₂ {α β γ : Type} {first : α → β → Prop} {second : α → γ → Prop}
    {third : β → γ → Prop} {sources : List α} {values : List β}
    (ran : List.Forall₂ first sources values)
    (each : ∀ source ∈ sources, ∀ value, first source value → ∃ found, second source found ∧
      third value found) :
    ∃ found, List.Forall₂ second sources found ∧ List.Forall₂ third values found := by
  induction ran with
  | nil => exact ⟨[], .nil, .nil⟩
  | cons here _ ih =>
      obtain ⟨head, tail⟩ := List.forall_mem_cons.mp each
      obtain ⟨object, one, other⟩ := head _ here
      obtain ⟨objects, ones, others⟩ := ih tail
      exact ⟨object :: objects, .cons one ones, .cons other others⟩

private theorem evaluate_phrase {host : Host} {item : Expr} (data : item.IsData)
    (made : item.MadeOf Token.Spelled) (finds : FindsAttributes host item) {value : Value}
    (ran : Evaluates host item value) :
    ∃ object, (phrase item).evaluate = some object ∧ Corresponds value object := by
  induction data generalizing value with
  | integer =>
      cases ran
      cases made with
      | integer spelled =>
          refine ⟨_, ?_, .integer⟩
          rw [phrase, Phrase.evaluate, integer?_text spelled.nonnegative, Option.map_some]
  | text =>
      cases ran
      exact ⟨_, rfl, .text⟩
  | list each itemsIH =>
      obtain ⟨values, rfl, all⟩ := ran.list each
      obtain ⟨objects, meant, same⟩ := exists_forall₂ all fun item member value itemRan =>
        itemsIH item member (made.children item member) (finds.child member) itemRan
      refine ⟨.list objects, ?_, corresponds_list same⟩
      rw [phrase, phrases_eq, Phrase.evaluate,
        Phrase.evaluateItems_of_forall₂ (List.forall₂_map_left_iff.mpr meant)]
      rfl
  | @record fields position each fieldsIH =>
      obtain ⟨found, rfl, all⟩ := ran.record each
      have inner {field : String × Expr} (member : field ∈ fields) :
          field.2 ∈ (Expr.record fields position).children := List.mem_map_of_mem member
      have meets : ∀ field ∈ fields, ∀ pair : String × Value,
          field.1 = pair.1 ∧ Evaluates host field.2 pair.2 →
          ∃ entry : String × Object,
            (field.1 = entry.1 ∧ (phrase field.2).evaluate = some entry.2) ∧
              pair.1 = entry.1 ∧ Corresponds pair.2 entry.2 := by
        rintro field member pair ⟨named, fieldRan⟩
        obtain ⟨object, meant, same⟩ := fieldsIH field member (made.children _ (inner member))
          (finds.child (inner member)) fieldRan
        exact ⟨(field.1, object), ⟨rfl, meant⟩, named.symm, same⟩
      obtain ⟨entries, meant, same⟩ := exists_forall₂ all meets
      refine ⟨.dict (Object.collect entries), ?_, corresponds_insertAll same⟩
      rw [phrase, fieldPhrases_eq, Phrase.evaluate,
        Phrase.evaluateEntries_of_forall₂ (List.forall₂_map_left_iff.mpr meant)]
      rfl
  | @access object key position data objectIH =>
      obtain ⟨fields, objectRan, rfl⟩ := ran.access data
      have present := finds object key position (.self _) fields objectRan
      obtain ⟨thing, meant, same⟩ := objectIH (made.children _ (.head _)) (finds.child (.head _))
        objectRan
      cases same with
      | @record _ entries _ _ keys values =>
          obtain ⟨held, found⟩ := Option.isSome_iff_exists.mp present
          obtain ⟨kept, stored⟩ := Option.isSome_iff_exists.mp (keys key ▸ present)
          refine ⟨kept, ?_, ?_⟩
          · rw [phrase, Phrase.evaluate, meant]
            exact stored
          · rw [found]
            exact values key held kept found stored
  | binary arithmetic leftData rightData leftIH rightIH =>
      obtain ⟨first, second, leftRan, rightRan, applied⟩ := ran.binary leftData rightData
      obtain ⟨one, leftMeant, leftSame⟩ := leftIH (made.children _ (.head _))
        (finds.child (.head _)) leftRan
      obtain ⟨other, rightMeant, rightSame⟩ := rightIH (made.children _ (.tail _ (.head _)))
        (finds.child (.tail _ (.head _))) rightRan
      obtain ⟨object, computed, same⟩ := leftSame.apply arithmetic rightSame applied
      refine ⟨object, ?_, same⟩
      rw [phrase, Phrase.evaluate, leftMeant, rightMeant]
      exact computed

/-- The object that a value is in Python, where the value may also be a boolean. -/
inductive Answers : Value → Object → Prop where
  | data {value : Value} {object : Object} : Corresponds value object → Answers value object
  | truth {value : Bool} : Answers (.boolean value) (.bool value)

/-- An expression of data, or an equation of two, has in Python the value to which it
evaluates, provided that every attribute read in it is there. -/
theorem expression_means_value {source : String} {program : Program}
    (accepted : Script.read source = .ok program) {item : Expr} (mentioned : program.Mentions item)
    (data : item.IsData ∨ ∃ left right position,
      item = .binary .equal left right position ∧ left.IsData ∧ right.IsData)
    {host : Host} (finds : FindsAttributes host item) {value : Value}
    (ran : ((evaluate host item .initial).run ⟨[], 0⟩).1 = .ok value) :
    ∃ object, (Phrase.read? (expression item)).bind Phrase.evaluate = some object ∧
      Answers value object := by
  have made := Script.read_mentions accepted mentioned
  rw [read?_expression made, Option.bind_some]
  rcases data with data | ⟨left, right, position, rfl, leftData, rightData⟩
  · rw [data.desugar_eq]
    obtain ⟨object, meant, same⟩ := evaluate_phrase data made finds ran
    exact ⟨object, meant, .data same⟩
  · rw [Expr.desugar, leftData.desugar_eq, rightData.desugar_eq]
    obtain ⟨first, second, leftRan, rightRan, applied⟩ := Evaluates.binary leftData rightData ran
    obtain ⟨one, leftMeant, leftSame⟩ := evaluate_phrase leftData (made.children _ (.head _))
      (finds.child (.head _)) leftRan
    obtain ⟨other, rightMeant, rightSame⟩ := evaluate_phrase rightData
      (made.children _ (.tail _ (.head _))) (finds.child (.tail _ (.head _))) rightRan
    cases applied
    refine ⟨.bool (one.equals other), ?_, ?_⟩
    · rw [phrase, Phrase.evaluate, leftMeant, rightMeant]
      rfl
    · rw [leftSame.equals rightSame]
      exact .truth

/-- The record of the source below. Its keys are not in order. -/
def twoFields : Expr :=
  .record [("n", .list [.integer 7 ⟨1, 8⟩] ⟨1, 7⟩), ("m", .text "]" ⟨1, 16⟩)] ⟨1, 1⟩

/-- The expression of the source `{ n = [7]; m = "]"; }.n * 2 == [9 - 2, 7]`. -/
def comparedLists : Expr :=
  .binary .equal
    (.binary .mul (.access twoFields "n" ⟨1, 22⟩) (.integer 2 ⟨1, 27⟩) ⟨1, 25⟩)
    (.list [.binary .sub (.integer 9 ⟨1, 33⟩) (.integer 2 ⟨1, 37⟩) ⟨1, 35⟩, .integer 7 ⟨1, 40⟩]
      ⟨1, 32⟩)
    ⟨1, 29⟩

private theorem read_comparedLists :
    Script.read "\x7b n = [7]; m = \"]\"; \x7d.n * 2 == [9 - 2, 7]" =
      .ok [.expression comparedLists ⟨1, 1⟩] := by cbv

private theorem evaluates_comparedLists :
    ((evaluate .quiet comparedLists .initial).run ⟨[], 0⟩).1 = .ok (.boolean true) := by cbv

private theorem evaluates_twoFields :
    Evaluates .quiet twoFields (.record [("m", .text "]"), ("n", .list [.integer 7])]) := by cbv

theorem expression_means_value_comparedLists :
    expression comparedLists =
        "((\x7b\"n\": [7], \"m\": \"]\"\x7d['n'] * 2) == [(9 - 2), 7])" ∧
      ∃ object, (Phrase.read? (expression comparedLists)).bind Phrase.evaluate = some object ∧
        Answers (.boolean true) object := by
  have finds : FindsAttributes .quiet comparedLists := by
    have number (value : Integer) (place : Position) :
        FindsAttributes .quiet (.integer value place) :=
      .of_children (by simp) (by simp [Expr.children])
    have fields : FindsAttributes .quiet twoFields := by
      refine .of_children (by simp [twoFields]) ?_
      rw [twoFields, Expr.children, List.map_cons, List.map_singleton, List.forall_mem_cons,
        List.forall_mem_singleton]
      exact ⟨.of_children (by simp) (by simp [Expr.children, number]),
        .of_children (by simp) (by simp [Expr.children])⟩
    have doubled : FindsAttributes .quiet
        (.binary .mul (.access twoFields "n" ⟨1, 22⟩) (.integer 2 ⟨1, 27⟩) ⟨1, 25⟩) := by
      refine .of_children (by simp) ?_
      simpa [Expr.children, number] using fields.access evaluates_twoFields rfl _
    have difference : FindsAttributes .quiet
        (.binary .sub (.integer 9 ⟨1, 33⟩) (.integer 2 ⟨1, 37⟩) ⟨1, 35⟩) :=
      .of_children (by simp) (by simp [Expr.children, number])
    refine .of_children (by simp [comparedLists]) ?_
    rw [comparedLists, Expr.children, List.forall_mem_cons, List.forall_mem_singleton]
    exact ⟨doubled, .of_children (by simp) (by simp [Expr.children, difference, number])⟩
  refine ⟨by decide +kernel, expression_means_value read_comparedLists
    ⟨_, .head _, .expression (.self _)⟩ (.inr ⟨_, _, _, rfl, ?_, ?_⟩) finds
    evaluates_comparedLists⟩
  · refine .binary (.inr (.inr rfl)) (.access (.record ?_)) .integer
    simp [Expr.IsData.list, Expr.IsData.text, Expr.IsData.integer]
  · apply Expr.IsData.list
    simp [Expr.IsData.binary, Expr.IsData.integer]

end WindowScript.Python
