import Mathlib.Data.List.Forall2
import Mathlib.Data.Option.Basic
import WindowScript.Value.Equality

/-!
# Reading bindings

A name is found in bindings with the value that was bound to it last. Bindings in order of
their names have each name once, so that two of them agree entry by entry as soon as every
name is found alike in both, and two records are equal.
-/

set_option autoImplicit false

namespace WindowScript.Bindings

variable {α β : Type}

theorem find?_cons_self (name : String) (value : α) (rest : List (String × α)) :
    find? name ((name, value) :: rest) = some value :=
  if_pos rfl

theorem find?_cons_of_ne {name key : String} (other : key ≠ name) (value : α)
    (rest : List (String × α)) : find? name ((key, value) :: rest) = find? name rest :=
  if_neg other

theorem find?_eq_none_iff {name : String} {bindings : List (String × α)} :
    find? name bindings = none ↔ name ∉ bindings.map Prod.fst := by
  induction bindings with
  | nil => simp [find?]
  | cons entry rest ih =>
      obtain ⟨key, value⟩ := entry
      by_cases same : key = name
      · simp [find?, same]
      · simp [find?_cons_of_ne same, ih, Ne.symm same]

theorem mem_of_find? {name : String} {value : α} {bindings : List (String × α)}
    (found : find? name bindings = some value) : (name, value) ∈ bindings := by
  induction bindings with
  | nil => cases found
  | cons entry rest ih =>
      obtain ⟨key, held⟩ := entry
      by_cases same : key = name
      · subst same
        rw [find?_cons_self] at found
        cases found
        exact .head _
      · rw [find?_cons_of_ne same] at found
        exact .tail _ (ih found)

theorem find?_of_mem {name : String} {value : α} {bindings : List (String × α)}
    (distinct : (bindings.map Prod.fst).Nodup) (member : (name, value) ∈ bindings) :
    find? name bindings = some value := by
  induction bindings with
  | nil => cases member
  | cons entry rest ih =>
      obtain ⟨key, held⟩ := entry
      obtain ⟨fresh, later⟩ := List.nodup_cons.mp distinct
      rcases List.mem_cons.mp member with first | inside
      · cases first
        exact find?_cons_self name value rest
      · have other : key ≠ name := by
          rintro rfl
          exact fresh (List.mem_map.mpr ⟨_, inside, rfl⟩)
        rw [find?_cons_of_ne other, ih later inside]

theorem find?_insert (name key : String) (value : α) (bindings : List (String × α)) :
    find? key (insert name value bindings) =
      if key = name then some value else find? key bindings := by
  induction bindings with
  | nil => simp [insert, find?, eq_comm]
  | cons entry rest ih =>
      obtain ⟨held, bound⟩ := entry
      unfold insert
      split
      · next same =>
          subst same
          by_cases sought : key = name
          · simp [find?, sought]
          · simp [find?, sought, Ne.symm sought]
      · next other =>
          split
          · simp [find?, eq_comm]
          · by_cases sought : key = name
            · subst sought
              rw [find?_cons_of_ne (Ne.symm other), ih, if_pos rfl, if_pos rfl]
            · simp [find?, ih, sought]

theorem find?_insertAll_of_not_mem {name : String} {entries : List (String × α)}
    (absent : name ∉ entries.map Prod.fst) (bindings : List (String × α)) :
    find? name (insertAll entries bindings) = find? name bindings := by
  unfold insertAll
  induction entries generalizing bindings with
  | nil => rfl
  | cons entry rest ih =>
      rw [List.map_cons, List.mem_cons, not_or] at absent
      rw [List.foldl_cons, ih absent.2, find?_insert, if_neg absent.1]

theorem find?_insertAll_of_mem {name : String} {value : α} {entries : List (String × α)}
    (distinct : (entries.map Prod.fst).Nodup) (member : (name, value) ∈ entries)
    (bindings : List (String × α)) :
    find? name (insertAll entries bindings) = some value := by
  induction entries generalizing bindings with
  | nil => cases member
  | cons entry rest ih =>
      obtain ⟨fresh, later⟩ := List.nodup_cons.mp distinct
      have step : insertAll (entry :: rest) bindings =
          insertAll rest (insert entry.1 entry.2 bindings) := rfl
      rw [step]
      rcases List.mem_cons.mp member with rfl | inside
      · rw [find?_insertAll_of_not_mem fresh, find?_insert, if_pos rfl]
      · exact ih later inside _

theorem find?_erase_of_ne {name key : String} (other : name ≠ key) (bindings : List (String × α)) :
    find? key (erase name bindings) = find? key bindings := by
  induction bindings with
  | nil => rfl
  | cons entry rest ih =>
      obtain ⟨held, bound⟩ := entry
      unfold erase
      split
      · next same =>
          subst same
          rw [ih, find?_cons_of_ne other]
      · simp only [find?, ih]

theorem mem_of_mem_insert {name : String} {value : α} {bindings : List (String × α)}
    {entry : String × α} (member : entry ∈ insert name value bindings) :
    entry = (name, value) ∨ entry ∈ bindings := by
  induction bindings with
  | nil => exact .inl (List.mem_singleton.mp member)
  | cons first rest ih =>
      obtain ⟨key, held⟩ := first
      unfold insert at member
      split at member
      · rcases List.mem_cons.mp member with new | old
        · exact .inl new
        · exact .inr (.tail _ old)
      · split at member
        · exact List.mem_cons.mp member
        · rcases List.mem_cons.mp member with head | later
          · exact .inr (head ▸ .head _)
          · exact (ih later).imp_right (.tail _)

theorem forall_mem_insert {property : α → Prop} {value : α} (holds : property value)
    (name : String) {bindings : List (String × α)} (each : ∀ entry ∈ bindings, property entry.2) :
    ∀ entry ∈ insert name value bindings, property entry.2 := by
  intro entry member
  rcases mem_of_mem_insert member with rfl | old
  · exact holds
  · exact each entry old

theorem forall_mem_insertAll {property : α → Prop} {entries bindings : List (String × α)}
    (added : ∀ entry ∈ entries, property entry.2) (each : ∀ entry ∈ bindings, property entry.2) :
    ∀ entry ∈ insertAll entries bindings, property entry.2 := by
  unfold insertAll
  refine List.foldlRecOn
    (motive := fun bound : List (String × α) => ∀ entry ∈ bound, property entry.2)
    entries _ each ?_
  intro bound before entry member
  exact forall_mem_insert (added entry member) entry.1 before

theorem of_find? {property : α → Prop} {name : String} {value : α}
    {bindings : List (String × α)} (each : ∀ entry ∈ bindings, property entry.2)
    (found : find? name bindings = some value) : property value :=
  each _ (mem_of_find? found)

theorem Sorted.insert {bindings : List (String × α)} (sorted : Sorted bindings) (name : String)
    (value : α) : Sorted (Bindings.insert name value bindings) := by
  induction bindings with
  | nil => exact List.pairwise_singleton _ _
  | cons first rest ih =>
      obtain ⟨key, held⟩ := first
      obtain ⟨least, later⟩ := List.pairwise_cons.mp sorted
      unfold Bindings.insert
      split
      · next same =>
          subst same
          exact List.pairwise_cons.mpr ⟨least, later⟩
      · next other =>
          split
          · next before =>
              refine List.pairwise_cons.mpr ⟨?_, sorted⟩
              rw [List.forall_mem_cons]
              exact ⟨before, fun entry member => String.lt_trans before (least entry member)⟩
          · next notBefore =>
              refine List.pairwise_cons.mpr ⟨?_, ih later⟩
              intro entry member
              rcases mem_of_mem_insert member with rfl | old
              · rcases Std.lt_trichotomy key name with behind | same | before
                · exact behind
                · exact absurd same.symm other
                · exact absurd before notBefore
              · exact least entry old

theorem Sorted.insertAll (entries : List (String × α)) {bindings : List (String × α)}
    (sorted : Sorted bindings) : Sorted (Bindings.insertAll entries bindings) := by
  unfold Bindings.insertAll
  exact List.foldlRecOn (motive := Sorted) entries _ sorted fun bound before entry _ =>
    before.insert entry.1 entry.2

/-- A new name is put among the others, wherever that is. -/
theorem insert_perm {name : String} {bindings : List (String × α)}
    (fresh : name ∉ bindings.map Prod.fst) (value : α) :
    (insert name value bindings).Perm ((name, value) :: bindings) := by
  induction bindings with
  | nil => exact .refl _
  | cons entry rest ih =>
      obtain ⟨key, held⟩ := entry
      rw [List.map_cons, List.mem_cons, not_or] at fresh
      unfold insert
      rw [if_neg fresh.1]
      split
      · exact .refl _
      · exact ((ih fresh.2).cons _).trans (.swap _ _ _)

theorem insertAll_perm {entries bindings : List (String × α)}
    (distinct : ((entries ++ bindings).map Prod.fst).Nodup) :
    (insertAll entries bindings).Perm (entries ++ bindings) := by
  induction entries generalizing bindings with
  | nil => exact .refl _
  | cons entry rest ih =>
      have moved : (rest ++ entry :: bindings).Perm (entry :: rest ++ bindings) := List.perm_middle
      have ordered := (moved.map Prod.fst).nodup_iff.mpr distinct
      have fresh : entry.1 ∉ bindings.map Prod.fst := by
        rw [List.map_append] at ordered
        exact (List.nodup_cons.mp (List.nodup_append.mp ordered).2.1).1
      have inserted : (rest ++ insert entry.1 entry.2 bindings).Perm (rest ++ entry :: bindings) :=
        (insert_perm fresh entry.2).append_left rest
      exact (ih ((inserted.map Prod.fst).nodup_iff.mpr ordered)).trans (inserted.trans moved)

theorem insertAll_nil_perm {entries : List (String × α)}
    (distinct : (entries.map Prod.fst).Nodup) : (insertAll entries []).Perm entries := by
  have whole := @insertAll_perm _ entries [] (by simpa using distinct)
  rwa [List.append_nil] at whole

/-- Which of some entries with different names is inserted first makes no difference. -/
theorem insertAll_eq_of_perm {entries permuted : List (String × α)}
    (distinct : (entries.map Prod.fst).Nodup) (permutation : permuted.Perm entries) :
    insertAll permuted [] = insertAll entries [] := by
  have same : (insertAll permuted []).Perm (insertAll entries []) :=
    calc
      (insertAll permuted []).Perm permuted :=
        insertAll_nil_perm ((permutation.map Prod.fst).nodup_iff.mpr distinct)
      permuted.Perm entries := permutation
      entries.Perm (insertAll entries []) := (insertAll_nil_perm distinct).symm
  refine same.eq_of_pairwise ?_ (Sorted.insertAll permuted .nil) (Sorted.insertAll entries .nil)
  intro left right _ _ before after
  exact absurd after (String.lt_asymm before)

theorem find?_of_forall_lt {name : String} {bindings : List (String × α)}
    (least : ∀ entry ∈ bindings, name < entry.1) : find? name bindings = none := by
  rw [find?_eq_none_iff, List.mem_map]
  rintro ⟨entry, member, rfl⟩
  exact String.lt_irrefl _ (least entry member)

theorem find?_cons_of_lt {name key : String} (before : name < key) {value : α}
    {rest : List (String × α)} (least : ∀ entry ∈ rest, key < entry.1) :
    find? name ((key, value) :: rest) = none := by
  apply find?_of_forall_lt
  rw [List.forall_mem_cons]
  exact ⟨before, fun entry member => String.lt_trans before (least entry member)⟩

/-- Bindings in order agree entry by entry when every name is missing from both or bound in
both to related values. -/
theorem forall₂_iff_rel (related : α → β → Prop) {left : List (String × α)}
    {right : List (String × β)} (leftSorted : Sorted left) (rightSorted : Sorted right) :
    List.Forall₂ (fun one other => one.1 = other.1 ∧ related one.2 other.2) left right ↔
      ∀ name, Option.Rel related (find? name left) (find? name right) := by
  induction left generalizing right with
  | nil =>
      cases right with
      | nil => exact ⟨fun _ _ => .none, fun _ => .nil⟩
      | cons second right =>
          refine ⟨fun all => (nomatch all), fun all => ?_⟩
          have here := all second.1
          rw [find?_cons_self] at here
          cases here
  | cons first left ih =>
      obtain ⟨leastLeft, laterLeft⟩ := List.pairwise_cons.mp leftSorted
      cases right with
      | nil =>
          refine ⟨fun all => (nomatch all), fun all => ?_⟩
          have here := all first.1
          rw [find?_cons_self] at here
          cases here
      | cons second right =>
          obtain ⟨leastRight, laterRight⟩ := List.pairwise_cons.mp rightSorted
          obtain ⟨key, value⟩ := first
          obtain ⟨otherKey, otherValue⟩ := second
          rw [List.forall₂_cons, ih laterLeft laterRight]
          constructor
          · rintro ⟨⟨rfl, here⟩, later⟩ name
            by_cases same : key = name
            · subst same
              rw [find?_cons_self, find?_cons_self]
              exact .some here
            · rw [find?_cons_of_ne same, find?_cons_of_ne same]
              exact later name
          · intro all
            -- A least name on one side only would be found on that side only.
            obtain rfl : key = otherKey := by
              rcases Std.lt_trichotomy key otherKey with before | same | before
              · have here := all key
                rw [find?_cons_self, find?_cons_of_lt before leastRight] at here
                cases here
              · exact same
              · have here := all otherKey
                rw [find?_cons_self, find?_cons_of_lt before leastLeft] at here
                cases here
            refine ⟨⟨rfl, ?_⟩, ?_⟩
            · have here := all key
              rw [find?_cons_self, find?_cons_self] at here
              cases here
              assumption
            · intro name
              by_cases same : key = name
              · subst same
                rw [find?_of_forall_lt leastLeft, find?_of_forall_lt leastRight]
                exact .none
              · have here := all name
                rwa [find?_cons_of_ne same, find?_cons_of_ne same] at here

end WindowScript.Bindings

namespace WindowScript

theorem Value.equalEntries_iff {left right : List (String × Value)} :
    Value.equalEntries left right = true ↔
      List.Forall₂ (fun one other => one.1 = other.1 ∧ one.2.equals other.2 = true) left right := by
  induction left generalizing right with
  | nil => cases right <;> simp [Value.equalEntries]
  | cons first left ih => cases right <;> simp [Value.equalEntries, ih]

/-- Equal records have the same keys, with equal values. -/
theorem Value.equals_record_iff {left right : List (String × Value)}
    (leftSorted : Bindings.Sorted left) (rightSorted : Bindings.Sorted right) :
    Value.equals (.record left) (.record right) = true ↔
      ∀ name, Option.Rel (fun one other => Value.equals one other = true)
        (Bindings.find? name left) (Bindings.find? name right) := by
  rw [Value.equals, Value.equalEntries_iff]
  exact Bindings.forall₂_iff_rel (fun one other => one.equals other = true) leftSorted rightSorted

end WindowScript
