import Mathlib.Tactic.Choose
import WindowScript.Proofs.Evaluation.Order
import WindowScript.Proofs.Program.Attributes
import WindowScript.Proofs.Value.Equality

/-!
# Evaluating records

The expressions of a record are evaluated one behind the other, in the order of their names in the
source. The record itself has its names in an order of its own: where evaluation leaves the host
alone, the order in the source cannot be told from it.
-/

set_option autoImplicit false

namespace WindowScript

/-!
## One behind the other
-/

/-- The two parts of a sequence that succeeds do so one behind the other. -/
theorem Fallible.run_bind_eq_ok_iff {σ α β : Type} {first : Fallible σ α}
    {next : α → Fallible σ β} {before after : σ} {result : β} :
    (first >>= next).run before = (.ok result, after) ↔
      ∃ value turn, first.run before = (.ok value, turn) ∧
        (next value).run turn = (.ok result, after) := by
  rw [run_bind]
  rcases first.run before with ⟨outcome, turn⟩
  cases outcome with
  | ok value =>
      refine ⟨fun ran => ⟨value, turn, rfl, ran⟩, ?_⟩
      rintro ⟨_, _, same, ran⟩
      cases same
      exact ran
  | error failure => exact ⟨nofun, nofun⟩

/-- An evaluation is one step of evaluation, which is counted while it lasts. -/
theorem evaluate_run (host : Host) (item : Expr) (scope : Scope) (progress : Progress) :
    (evaluate host item scope).run progress =
      (Evaluation.nested item.position ((evaluate host).step host item scope)).run progress := by
  obtain ⟨history, depth⟩ := progress
  have deeper (room : depth < maxDepth) :
      AlikeAt (depth + 1) ((evaluateWithin host maxDepth).step host item scope)
        ((evaluate host).step host item scope) := by
    refine (AlikeAt.correspondence (depth + 1) host).step (fun _ => evaluateWithin host maxDepth)
      (evaluate host) (fun child inner => ?_) item scope
    rw [evaluateWithin_eq_budgeted]
    exact evaluateBudgeted_alikeAt_evaluate host _ room (by omega) child inner
  exact (AlikeAt.nested deeper item.position).same history

namespace Evaluator

/-- Evaluates the expression of an entry and keeps its name. -/
def entry (evaluate : Evaluator) (scope : Scope) (entry : String × Expr) :
    Evaluation (String × Value) := do
  let value ← evaluate entry.2 scope
  pure (entry.1, value)

variable (evaluate : Evaluator) (scope : Scope)

private theorem fields_eq (entries : List (String × Expr)) (bound : List (String × Value)) :
    evaluate.fields scope bound entries = (do
      let made ← entries.mapM (evaluate.entry scope)
      pure (Bindings.insertAll made bound)) := by
  induction entries generalizing bound with
  | nil => simp [fields, Bindings.insertAll]
  | cons first rest ih =>
      simp only [fields, List.mapM_cons, entry, bind_assoc, pure_bind, ih]
      rfl

variable {evaluate scope}

private theorem run_entry_eq_ok_iff {item : String × Expr} {before after : Progress}
    {made : String × Value} :
    (evaluate.entry scope item).run before = (.ok made, after) ↔
      made.1 = item.1 ∧ (evaluate item.2 scope).run before = (.ok made.2, after) := by
  obtain ⟨name, value⟩ := made
  rw [entry, Fallible.run_bind_eq_ok_iff]
  constructor
  · rintro ⟨held, turn, ran, finished⟩
    cases finished
    exact ⟨rfl, ran⟩
  · rintro ⟨rfl, ran⟩
    exact ⟨value, after, ran, rfl⟩

/-- Entries keep their names, and each one is evaluated when those in front of it have been. -/
theorem entries_in_turn {entries : List (String × Expr)} {before after : Progress}
    {made : List (String × Value)}
    (ran : (entries.mapM (evaluate.entry scope)).run before = (.ok made, after)) :
    made.map Prod.fst = entries.map Prod.fst ∧
      ∀ front name item back, entries = front ++ (name, item) :: back →
        ∃ earlier turn value next,
          (front.mapM (evaluate.entry scope)).run before = (.ok earlier, turn) ∧
          (evaluate item scope).run turn = (.ok value, next) ∧ (name, value) ∈ made := by
  induction entries generalizing before made with
  | nil =>
      cases ran
      exact ⟨rfl, by simp⟩
  | cons first rest ih =>
      rw [List.mapM_cons, Fallible.run_bind_eq_ok_iff] at ran
      obtain ⟨head, turn, headRan, ran⟩ := ran
      obtain ⟨tail, _, tailRan, finished⟩ := Fallible.run_bind_eq_ok_iff.mp ran
      cases finished
      obtain ⟨names, inTurn⟩ := ih tailRan
      obtain ⟨headName, valueRan⟩ := run_entry_eq_ok_iff.mp headRan
      refine ⟨by rw [List.map_cons, List.map_cons, names, headName], ?_⟩
      intro front name item back split
      cases front with
      | nil =>
          cases split
          have made : (name, head.2) = head := Prod.ext headName.symm rfl
          exact ⟨[], before, head.2, turn, rfl, valueRan, made ▸ .head _⟩
      | cons opening front =>
          cases split
          obtain ⟨earlier, reached, value, next, earlierRan, itemRan, member⟩ :=
            inTurn front name item back rfl
          refine ⟨head :: earlier, reached, value, next, ?_, itemRan, .tail _ member⟩
          rw [List.mapM_cons, Fallible.run_bind_eq_ok_iff]
          refine ⟨head, turn, headRan, ?_⟩
          rw [Fallible.run_bind_eq_ok_iff]
          exact ⟨earlier, reached, earlierRan, rfl⟩

/-- What entries come to that have values and change nothing. -/
theorem run_fields {entries : List (String × Expr)} {value : String × Expr → Value}
    {progress : Progress}
    (quiet : ∀ entry ∈ entries,
      (evaluate entry.2 scope).run progress = (.ok (value entry), progress))
    (bound : List (String × Value)) :
    (evaluate.fields scope bound entries).run progress =
      (.ok (Bindings.insertAll (entries.map fun entry => (entry.1, value entry)) bound),
        progress) := by
  induction entries generalizing bound with
  | nil => rfl
  | cons entry rest ih =>
      obtain ⟨here, later⟩ := List.forall_mem_cons.mp quiet
      rw [fields, Fallible.run_bind, here]
      exact ih later _

end Evaluator

/-!
## Insertions and their values
-/

/-- Insertions leave each name where it was inserted first, with the expression that was inserted
for it last. A record of them is evaluated one expression behind the other, each once and in this
order, and has under each name the value that its expression has in its turn. -/
theorem attributes_in_order_of_insertion (entries : List (String × Expr)) :
    let attributes := Attributes.ofEntries entries
    (attributes.map Prod.fst).Nodup ∧
    ((attributes.map Prod.fst).Pairwise fun one other =>
      (entries.map Prod.fst).idxOf one < (entries.map Prod.fst).idxOf other) ∧
    (∀ name, attributes.find? name = entries.reverse.lookup name ∧
      (attributes.find? name = none ↔ name ∉ entries.map Prod.fst)) ∧
    ∀ (host : Host) (scope : Scope) (position : Position),
      (∀ progress, (evaluate host (.record attributes position) scope).run progress =
        (Evaluation.nested position do
          let made ← attributes.mapM ((evaluate host).entry scope)
          pure (.record (Bindings.insertAll made []))).run progress) ∧
      ∀ before made after,
        (attributes.mapM ((evaluate host).entry scope)).run before = (.ok made, after) →
        (∀ name, name ∉ entries.map Prod.fst →
          Bindings.find? name (Bindings.insertAll made []) = none) ∧
        ∀ name item, entries.reverse.lookup name = some item →
          ∃ front back earlier turn value next, attributes = front ++ (name, item) :: back ∧
            (front.mapM ((evaluate host).entry scope)).run before = (.ok earlier, turn) ∧
            (evaluate host item scope).run turn = (.ok value, next) ∧
            Bindings.find? name (Bindings.insertAll made []) = some value := by
  intro attributes
  have distinct := Attributes.nodup_ofEntries entries
  have found (name : String) : attributes.find? name = entries.reverse.lookup name :=
    Attributes.find?_ofEntries entries name
  refine ⟨distinct, Attributes.pairwise_ofEntries entries, fun name => ⟨found name, ?_⟩, ?_⟩
  · rw [Attributes.find?_eq, Bindings.find?_eq_none_iff, Attributes.mem_map_fst_ofEntries]
  · intro host scope position
    constructor
    · intro progress
      rw [evaluate_run]
      simp only [Evaluator.step, Evaluator.fields_eq, bind_assoc, pure_bind, Expr.position]
    · intro before made after ran
      obtain ⟨names, inTurn⟩ := Evaluator.entries_in_turn ran
      constructor
      · intro name absent
        have unmade : name ∉ made.map Prod.fst := by
          rwa [names, Attributes.mem_map_fst_ofEntries]
        exact Bindings.find?_insertAll_of_not_mem unmade []
      · intro name item last
        rw [← found, Attributes.find?_eq] at last
        obtain ⟨front, back, split⟩ := List.append_of_mem (Bindings.mem_of_find? last)
        obtain ⟨earlier, turn, value, next, earlierRan, itemRan, member⟩ :=
          inTurn front name item back split
        refine ⟨front, back, earlier, turn, value, next, split, earlierRan, itemRan, ?_⟩
        exact Bindings.find?_insertAll_of_mem (names ▸ distinct) member []

/-- The entries of `{ b = echo("x"); a = 1; b = len("two"); c = echo("y"); }`. -/
def repeatedNames : List (String × Expr) :=
  [("b", .call "echo" [.text "x" ⟨1, 12⟩] ⟨1, 7⟩), ("a", .integer 1 ⟨1, 22⟩),
    ("b", .call "len" [.text "two" ⟨1, 33⟩] ⟨1, 29⟩),
    ("c", .call "echo" [.text "y" ⟨1, 50⟩] ⟨1, 45⟩)]

/-- The expression that another one has taken the place of is not evaluated. -/
theorem attributes_in_order_of_insertion_repeatedNames :
    let attributes := Attributes.ofEntries repeatedNames
    let made : List (String × Value) := [("b", .integer 3), ("a", .integer 1), ("c", .absent)]
    attributes.map Prod.fst = ["b", "a", "c"] ∧ (attributes.map Prod.fst).Nodup ∧
      attributes.find? "b" = some (.call "len" [.text "two" ⟨1, 33⟩] ⟨1, 29⟩) ∧
      attributes.find? "d" = none ∧
      (evaluate .quiet (.record attributes ⟨1, 1⟩) .initial).run ⟨[], 0⟩ =
        (.ok (.record [("a", .integer 1), ("b", .integer 3), ("c", .absent)]),
          ⟨[.wrote "y\n"], 0⟩) ∧
      (attributes.mapM ((evaluate .quiet).entry .initial)).run ⟨[], 1⟩ =
        (.ok made, ⟨[.wrote "y\n"], 1⟩) ∧
      ∃ turn value next,
        (evaluate .quiet (.call "len" [.text "two" ⟨1, 33⟩] ⟨1, 29⟩) .initial).run turn =
          (.ok value, next) ∧
        Bindings.find? "b" (Bindings.insertAll made []) = some value := by
  intro attributes made
  obtain ⟨distinct, _, found, evaluated⟩ := attributes_in_order_of_insertion repeatedNames
  obtain ⟨counted, values⟩ := evaluated .quiet .initial ⟨1, 1⟩
  have ran : (attributes.mapM ((evaluate .quiet).entry .initial)).run ⟨[], 1⟩ =
      (.ok made, ⟨[.wrote "y\n"], 1⟩) := by rfl
  have last : repeatedNames.reverse.lookup "b" =
      some (.call "len" [.text "two" ⟨1, 33⟩] ⟨1, 29⟩) := by rfl
  obtain ⟨_, _, _, turn, value, next, _, _, itemRan, bound⟩ := (values _ _ _ ran).2 _ _ last
  exact ⟨by rfl, distinct, (found "b").1.trans last, (found "d").2.mpr (by decide),
    (counted ⟨[], 0⟩).trans rfl, ran, turn, value, next, itemRan, bound⟩

/-!
## Records from entries in any order
-/

/-- The entries of the record that attributes are evaluated to, from the values of theirs. -/
def Attributes.valued (value : String × Expr → Value) (attributes : Attributes) :
    List (String × Value) :=
  Bindings.insertAll (attributes.map fun entry => (entry.1, value entry)) []

section

variable {attributes : Attributes} {value : String × Expr → Value}

private theorem Attributes.inByteOrder_valued : Bindings.InByteOrder (attributes.valued value) :=
  Bindings.inByteOrder_iff.mpr (Bindings.Sorted.insertAll _ .nil)

private theorem Attributes.map_fst_values :
    (attributes.map fun entry => (entry.1, value entry)).map Prod.fst =
      attributes.map Prod.fst := by
  simp [Function.comp_def]

private theorem Attributes.find?_valued_of_not_mem {name : String}
    (absent : name ∉ attributes.map Prod.fst) :
    Bindings.find? name (attributes.valued value) = none :=
  Bindings.find?_insertAll_of_not_mem (map_fst_values ▸ absent) []

variable (distinct : (attributes.map Prod.fst).Nodup)

include distinct

private theorem Attributes.find?_valued_of_mem {entry : String × Expr}
    (member : entry ∈ attributes) :
    Bindings.find? entry.1 (attributes.valued value) = some (value entry) :=
  Bindings.find?_insertAll_of_mem (map_fst_values ▸ distinct)
    (List.mem_map_of_mem (f := fun entry => (entry.1, value entry)) member) []

private theorem Attributes.length_valued :
    (attributes.valued value).length = attributes.length := by
  rw [valued, (Bindings.insertAll_nil_perm (map_fst_values ▸ distinct)).length_eq, List.length_map]

private theorem Attributes.valued_eq_of_perm {permuted : Attributes}
    (permutation : permuted.Perm attributes) :
    permuted.valued value = attributes.valued value :=
  Bindings.insertAll_eq_of_perm (map_fst_values ▸ distinct) (permutation.map _)

end

/-- Attributes come to a record, and the host keeps its history. The count of evaluations is one
above the depth while their expressions are evaluated. The evaluation of the whole begins at the
depth itself, where the limit can be met only by attributes that have no expression to meet it. -/
def Attributes.ComesTo (host : Host) (scope : Scope) (history : History) (depth : Nat)
    (attributes : Attributes) (fields : List (String × Value)) : Prop :=
  ∀ position,
    ((evaluate host).step host (.record attributes position) scope).run ⟨history, depth + 1⟩ =
      (.ok (.record fields), ⟨history, depth + 1⟩) ∧
    (depth < maxDepth ∨ attributes ≠ [] →
      (evaluate host (.record attributes position) scope).run ⟨history, depth⟩ =
        (.ok (.record fields), ⟨history, depth⟩))

section

variable {host : Host} {scope : Scope} {history : History} {depth : Nat} {item : Expr}
  {value : Value}

private theorem lt_maxDepth_of_evaluate {after : Progress}
    (ran : (evaluate host item scope).run ⟨history, depth⟩ = (.ok value, after)) :
    depth < maxDepth := by
  rcases Nat.lt_or_ge depth maxDepth with room | full
  · exact room
  · rw [evaluate_run, Evaluation.run_nested_of_le full] at ran
    cases ran

/-- The count of evaluations is what it was, so that only the history can tell of one. -/
theorem eq_of_evaluate {after : Progress}
    (ran : (evaluate host item scope).run ⟨history, depth⟩ = (.ok value, after))
    (silent : after.history = history) : after = ⟨history, depth⟩ := by
  have kept := (evaluateWithin_orderly host (maxDepth + 1) item scope).depth ⟨history, depth⟩
  change ((evaluate host item scope).run ⟨history, depth⟩).2.depth = depth at kept
  rw [ran] at kept
  cases after
  cases silent
  cases kept
  rfl

private theorem Attributes.comesTo_of_quiet {attributes : Attributes}
    {value : String × Expr → Value}
    (quiet : ∀ entry ∈ attributes, (evaluate host entry.2 scope).run ⟨history, depth + 1⟩ =
      (.ok (value entry), ⟨history, depth + 1⟩)) :
    attributes.ComesTo host scope history depth (attributes.valued value) := by
  intro position
  have stepped : ((evaluate host).step host (.record attributes position) scope).run
      ⟨history, depth + 1⟩ = (.ok (.record (attributes.valued value)), ⟨history, depth + 1⟩) := by
    dsimp only [Evaluator.step]
    rw [Fallible.run_bind, Evaluator.run_fields quiet]
    rfl
  refine ⟨stepped, fun begins => ?_⟩
  have room : depth < maxDepth := by
    rcases begins with room | nonempty
    · exact room
    · obtain ⟨entry, rest, rfl⟩ := List.exists_cons_of_ne_nil nonempty
      have deeper := lt_maxDepth_of_evaluate (quiet entry (.head _))
      omega
  rw [evaluate_run, Evaluation.run_nested_of_lt room, stepped]
  rfl

end

/-- Attributes with different names come to the same record in whatever order they stand, if their
expressions have values and leave the host alone. The record has its names in the order of their
bytes, and holds the value of each expression under its name and nothing else. It equals itself just
when nothing undefined is in it. From globals in which every record is in order, a run evaluates
nothing in a scope where one is not, and comes to no value in which one is not: it would do the same
whatever it would do there. -/
theorem records_forget_order (host : Host) :
    (∀ (scope : Scope) (history : History) (depth : Nat) (entries permuted : Attributes),
      (entries.map Prod.fst).Nodup → permuted.Perm entries →
      (∀ entry ∈ entries, ∃ value after,
        (evaluate host entry.2 scope).run ⟨history, depth + 1⟩ = (.ok value, after) ∧
          after.history = history) →
      ∃ one other, entries.ComesTo host scope history depth one ∧
        permuted.ComesTo host scope history depth other ∧ one = other ∧
        Bindings.InByteOrder one ∧
        (∀ inside, (Value.record one).display inside = (Value.record other).display inside) ∧
        (Builtin.length (.record one) = Builtin.integerOfCount entries.length ∧
          Builtin.length (.record other) = Builtin.integerOfCount entries.length) ∧
        (∀ entry ∈ entries, ∃ value after,
          (evaluate host entry.2 scope).run ⟨history, depth + 1⟩ = (.ok value, after) ∧
            Evaluator.readAttribute entry.1 (.record one) = .ok value ∧
            Evaluator.readAttribute entry.1 (.record other) = .ok value) ∧
        (∀ key ∉ entries.map Prod.fst,
          Evaluator.readAttribute key (.record one) = .ok .absent ∧
            Evaluator.readAttribute key (.record other) = .ok .absent) ∧
        ((Value.record one).equals (.record other) = true ↔ (Value.record one).Defined)) ∧
    (∀ entry ∈ Session.fresh.globals, entry.2.Ordered) ∧
    ∀ (session : Session) (program : Program), (∀ entry ∈ session.globals, entry.2.Ordered) →
      (∀ alarm, Session.runFromBy (evaluateWatched Value.Ordered alarm host (maxDepth + 1))
        .absent session program = session.run host program) ∧
      (∀ value, (session.run host program).1 = .ok value → value.Ordered) ∧
      ∀ entry ∈ (session.run host program).2.globals, entry.2.Ordered := by
  refine ⟨?_, Scope.initial_ordered, ?_⟩
  · intro scope history depth entries permuted distinct permutation quiet
    have inhabited : Nonempty Value := ⟨.absent⟩
    have started : Nonempty Progress := ⟨⟨[], 0⟩⟩
    choose! value after ran silent using quiet
    have unmoved (entry : String × Expr) (member : entry ∈ entries) :
        (evaluate host entry.2 scope).run ⟨history, depth + 1⟩ =
          (.ok (value entry), ⟨history, depth + 1⟩) := by
      have finished := ran entry member
      rwa [eq_of_evaluate finished (silent entry member)] at finished
    let fields := entries.valued value
    have comes : entries.ComesTo host scope history depth fields :=
      Attributes.comesTo_of_quiet unmoved
    have permutedComes : permuted.ComesTo host scope history depth fields := by
      have same : permuted.valued value = fields :=
        Attributes.valued_eq_of_perm distinct permutation
      rw [← same]
      exact Attributes.comesTo_of_quiet fun entry member =>
        unmoved entry (permutation.mem_iff.mp member)
    have length : Builtin.length (.record fields) = Builtin.integerOfCount entries.length := by
      rw [Builtin.length, Attributes.length_valued distinct]
    refine ⟨fields, fields, comes, permutedComes, rfl, Attributes.inByteOrder_valued, fun _ => rfl,
      ⟨length, length⟩, ?_, ?_, ?_⟩
    · intro entry member
      have read : Evaluator.readAttribute entry.1 (.record fields) = .ok (value entry) := by
        rw [Evaluator.readAttribute, Attributes.find?_valued_of_mem distinct member,
          Option.getD_some]
      exact ⟨value entry, after entry, ran entry member, read, read⟩
    · intro key absent
      have read : Evaluator.readAttribute key (.record fields) = .ok .absent := by
        rw [Evaluator.readAttribute, Attributes.find?_valued_of_not_mem absent, Option.getD_none]
      exact ⟨read, read⟩
    · rw [Value.equals_agree]
      exact ⟨And.left, fun defined => ⟨defined, defined, rfl⟩⟩
  · intro session program bound
    have steady {scope : Scope} {item : Expr} {value : Value}
        (yields : (Invariant.order host).Yields scope item value) :
        (Invariant.order host).Holds value := yields
    have fit : ∀ next ∈ program, (Invariant.order host).FitsStatement next := fun _ _ => trivial
    have kept := Invariant.run_keeps steady fit bound
    exact ⟨fun alarm => Invariant.runFromBy_evaluateWatched steady alarm fit bound, kept.1, kept.2⟩

/-- The entries of `{ é = { z = 1; y = true; }; b = len("xyz"); a = "b"; }`. -/
def unordered : Attributes :=
  [("é", .record [("z", .integer 1 ⟨1, 13⟩), ("y", .boolean true ⟨1, 20⟩)] ⟨1, 7⟩),
    ("b", .call "len" [.text "xyz" ⟨1, 37⟩] ⟨1, 33⟩), ("a", .text "b" ⟨1, 49⟩)]

/-- The program of `let r = { b = 1; a = 2; }; func f() { r }; f()`. -/
def returnsRecord : Program :=
  [.binding "r" (.record [("b", .integer 1 ⟨1, 15⟩), ("a", .integer 2 ⟨1, 22⟩)] ⟨1, 9⟩) ⟨1, 1⟩,
    .function "f" [] [.expression (.name "r" ⟨1, 39⟩) ⟨1, 39⟩] ⟨1, 28⟩,
    .expression (.call "f" [] ⟨1, 44⟩) ⟨1, 44⟩]

theorem records_forget_order_unordered :
    let fields : List (String × Value) := [("a", .text "b"), ("b", .integer 3),
      ("é", .record [("y", .boolean true), ("z", .integer 1)])]
    let history : History := [.wrote "x\n"]
    (unordered.map Prod.fst).Nodup ∧ unordered.reverse.Perm unordered ∧
      (∀ entry ∈ unordered, ∃ value after,
        (evaluate .quiet entry.2 .initial).run ⟨history, 4⟩ = (.ok value, after) ∧
          after.history = history) ∧
      (evaluate .quiet (.record unordered ⟨1, 1⟩) .initial).run ⟨history, 3⟩ =
        (.ok (.record fields), ⟨history, 3⟩) ∧
      (evaluate .quiet (.record unordered.reverse ⟨1, 1⟩) .initial).run ⟨history, 3⟩ =
        (.ok (.record fields), ⟨history, 3⟩) ∧
      Bindings.InByteOrder fields ∧ Builtin.length (.record fields) = .ok (.integer 3) ∧
      (Value.record fields).Defined ∧ (Value.record fields).equals (.record fields) = true ∧
      (∀ entry ∈ Session.fresh.globals, entry.2.Ordered) ∧
      (∀ alarm, Session.runFromBy (evaluateWatched Value.Ordered alarm .quiet (maxDepth + 1))
        .absent .fresh returnsRecord = Session.run .quiet .fresh returnsRecord) ∧
      (Session.run .quiet .fresh returnsRecord).1 =
        .ok (.record [("a", .integer 2), ("b", .integer 1)]) ∧
      (Value.record [("a", .integer 2), ("b", .integer 1)]).Ordered := by
  intro fields history
  have distinct : (unordered.map Prod.fst).Nodup := by decide
  have quiet : ∀ entry ∈ unordered, ∃ value after,
      (evaluate .quiet entry.2 .initial).run ⟨history, 4⟩ = (.ok value, after) ∧
        after.history = history := by
    simp only [unordered, List.forall_mem_cons, List.not_mem_nil, false_implies, implies_true,
      and_true]
    exact ⟨⟨_, _, rfl, rfl⟩, ⟨_, _, rfl, rfl⟩, ⟨_, _, rfl, rfl⟩⟩
  obtain ⟨orders, initial, runs⟩ := records_forget_order .quiet
  obtain ⟨one, _, comes, permutedComes, rfl, inOrder, _, ⟨length, _⟩, _, _, equal⟩ :=
    orders .initial history 3 unordered unordered.reverse distinct (List.reverse_perm _) quiet
  have ran : (evaluate .quiet (.record unordered ⟨1, 1⟩) .initial).run ⟨history, 3⟩ =
      (.ok (.record fields), ⟨history, 3⟩) := by rfl
  have room : 3 < maxDepth ∨ unordered ≠ [] := .inl (by decide)
  have found : fields = one := by
    have both := ran.symm.trans ((comes ⟨1, 1⟩).2 room)
    cases both
    rfl
  subst found
  have permutedRan := (permutedComes ⟨1, 1⟩).2 (.inl (by decide))
  have defined : (Value.record fields).Defined := by simp [fields]
  obtain ⟨watched, ordered, _⟩ := runs .fresh returnsRecord initial
  have returned : (Session.run .quiet .fresh returnsRecord).1 =
      .ok (.record [("a", .integer 2), ("b", .integer 1)]) := by rfl
  exact ⟨distinct, List.reverse_perm _, quiet, ran, permutedRan, inOrder, length.trans rfl,
    defined, equal.mpr defined, initial, watched, returned, ordered _ returned⟩

end WindowScript
