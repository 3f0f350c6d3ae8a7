import Mathlib.Data.List.Induction
import WindowScript.Program.Attributes
import WindowScript.Proofs.Value.Bindings

/-!
# What insertions leave

An insertion replaces the expression of a name in its place, or adds the name behind the others.
Whatever is inserted, each name therefore stands where it was inserted first, once, with the
expression that it was given last.
-/

set_option autoImplicit false

namespace WindowScript.Attributes

theorem find?_eq (name : String) (attributes : Attributes) :
    attributes.find? name = Bindings.find? name attributes := by
  induction attributes with
  | nil => rfl
  | cons entry rest ih => simp only [find?, Bindings.find?, ih]

theorem map_fst_insert (name : String) (value : Expr) (attributes : Attributes) :
    (attributes.insert name value).map Prod.fst =
      if name ∈ attributes.map Prod.fst then attributes.map Prod.fst
      else attributes.map Prod.fst ++ [name] := by
  induction attributes with
  | nil => rfl
  | cons entry rest ih =>
      obtain ⟨key, held⟩ := entry
      by_cases same : key = name
      · simp [insert, same]
      · have other : name ≠ key := Ne.symm same
        by_cases later : name ∈ rest.map Prod.fst <;> simp_all [insert]

theorem find?_insert (name key : String) (value : Expr) (attributes : Attributes) :
    (attributes.insert name value).find? key =
      if key = name then some value else attributes.find? key := by
  induction attributes with
  | nil => simp [insert, find?, eq_comm]
  | cons entry rest ih =>
      obtain ⟨held, bound⟩ := entry
      unfold insert
      split
      · next same =>
          subst same
          by_cases sought : key = held <;> simp [find?, sought, eq_comm]
      · next other =>
          by_cases sought : key = name
          · subst sought
            simp [find?, other, ih]
          · simp [find?, ih, sought]

theorem ofEntries_concat (entries : List (String × Expr)) (entry : String × Expr) :
    ofEntries (entries ++ [entry]) = (ofEntries entries).insert entry.1 entry.2 :=
  List.foldl_concat ..

section

variable (entries : List (String × Expr))

theorem find?_ofEntries (name : String) :
    (ofEntries entries).find? name = entries.reverse.lookup name := by
  induction entries using List.reverseRecOn with
  | nil => rfl
  | append_singleton entries entry ih =>
      obtain ⟨key, value⟩ := entry
      rw [ofEntries_concat, find?_insert, ih, List.reverse_concat, List.lookup_cons]
      by_cases same : name = key
      · simp [same]
      · rw [if_neg same, beq_eq_false_iff_ne.mpr same]

theorem mem_map_fst_ofEntries {name : String} :
    name ∈ (ofEntries entries).map Prod.fst ↔ name ∈ entries.map Prod.fst := by
  induction entries using List.reverseRecOn with
  | nil => rfl
  | append_singleton entries entry ih =>
      rw [ofEntries_concat, map_fst_insert, List.map_append, List.mem_append, ← ih]
      split
      · next present =>
          simp only [List.map_cons, List.map_nil, List.mem_singleton]
          refine ⟨.inl, ?_⟩
          rintro (old | rfl)
          · exact old
          · exact present
      · simp

/-- A name stands in front of those that were first inserted after it. -/
theorem pairwise_ofEntries :
    ((ofEntries entries).map Prod.fst).Pairwise fun one other =>
      (entries.map Prod.fst).idxOf one < (entries.map Prod.fst).idxOf other := by
  induction entries using List.reverseRecOn with
  | nil => exact .nil
  | append_singleton entries entry ih =>
      have unmoved {name : String} (member : name ∈ (ofEntries entries).map Prod.fst) :
          ((entries ++ [entry]).map Prod.fst).idxOf name = (entries.map Prod.fst).idxOf name := by
        rw [List.map_append,
          List.idxOf_append_of_mem ((mem_map_fst_ofEntries entries).mp member)]
      have kept : ((ofEntries entries).map Prod.fst).Pairwise fun one other =>
          ((entries ++ [entry]).map Prod.fst).idxOf one <
            ((entries ++ [entry]).map Prod.fst).idxOf other :=
        ih.imp_of_mem fun one other before => by rwa [unmoved one, unmoved other]
      rw [ofEntries_concat, map_fst_insert]
      split
      · exact kept
      · next absent =>
          refine List.pairwise_append.mpr ⟨kept, List.pairwise_singleton _ _, ?_⟩
          intro one member other last
          obtain rfl := List.mem_singleton.mp last
          have earlier := List.idxOf_lt_length_iff.mpr ((mem_map_fst_ofEntries entries).mp member)
          have fresh : entry.1 ∉ entries.map Prod.fst := by rwa [← mem_map_fst_ofEntries]
          rw [unmoved member, List.map_append, List.idxOf_append_of_notMem fresh]
          omega

theorem nodup_ofEntries : ((ofEntries entries).map Prod.fst).Nodup := by
  refine (pairwise_ofEntries entries).imp ?_
  rintro one _ before rfl
  exact Nat.lt_irrefl _ before

end

end WindowScript.Attributes
