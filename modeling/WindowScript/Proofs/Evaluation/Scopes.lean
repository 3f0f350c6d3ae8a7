import WindowScript.Proofs.Evaluation.Frames
import WindowScript.Proofs.Program.Names

/-!
# What evaluation reads of its scope

An expression is evaluated in its scope only as far as it looks up names itself. What it calls
is evaluated in the scope that the function captured, so that the names in the body of a
function are not sought among those of the caller.
-/

set_option autoImplicit false

namespace WindowScript

/-!
## Scopes that agree
-/

namespace Scope

/-- Two scopes that bind the chosen names to the same values, and leave the same of them
unbound. -/
def Agree (one other : Scope) (chosen : String → Prop) : Prop :=
  ∀ label, chosen label → Bindings.find? label one = Bindings.find? label other

/-- A change of a scope at one name. -/
inductive Change where
  | bind (label : String) (value : Value)
  | remove (label : String)

def Change.label : Change → String
  | .bind label _ | .remove label => label

def change (scope : Scope) : Change → Scope
  | .bind label value => Bindings.insert label value scope
  | .remove label => Bindings.erase label scope

def changed (scope : Scope) (changes : List Change) : Scope := changes.foldl change scope

private theorem Agree.part {one other : Scope} {part whole : Expr}
    (agree : one.Agree other whole.Reads) (inside : part.Part whole) : one.Agree other part.Reads :=
  fun label reads => agree label (reads.part inside)

private theorem find?_change {label : String} {difference : Change}
    (apart : difference.label ≠ label) (scope : Scope) :
    Bindings.find? label (scope.change difference) = Bindings.find? label scope := by
  cases difference with
  | bind bound value =>
      exact (Bindings.find?_insert bound label value scope).trans (if_neg apart.symm)
  | remove gone => exact Bindings.find?_erase_of_ne apart scope

private theorem agree_changed {chosen : String → Prop} {changes : List Change}
    (untouched : ∀ difference ∈ changes, ¬ chosen difference.label) (scope : Scope) :
    (scope.changed changes).Agree scope chosen := by
  intro label among
  unfold changed
  induction changes generalizing scope with
  | nil => rfl
  | cons difference rest ih =>
      obtain ⟨here, later⟩ := List.forall_mem_cons.mp untouched
      have apart : difference.label ≠ label := by
        rintro rfl
        exact here among
      rw [List.foldl_cons, ih later, find?_change apart]

end Scope

/-!
## Evaluation in two scopes
-/

namespace Evaluator

variable {evaluate : Evaluator} {one other : Scope}

private theorem all_congr {items : List Expr}
    (same : ∀ item ∈ items, evaluate item one = evaluate item other) (values : List Value) :
    evaluate.all one values items = evaluate.all other values items := by
  induction items generalizing values with
  | nil => rfl
  | cons item rest ih =>
      obtain ⟨first, later⟩ := List.forall_mem_cons.mp same
      simp only [all, first, ih later]

private theorem fields_congr {entries : List (String × Expr)}
    (same : ∀ entry ∈ entries, evaluate entry.2 one = evaluate entry.2 other)
    (bound : List (String × Value)) :
    evaluate.fields one bound entries = evaluate.fields other bound entries := by
  induction entries generalizing bound with
  | nil => rfl
  | cons entry rest ih =>
      obtain ⟨name, item⟩ := entry
      obtain ⟨first, later⟩ := List.forall_mem_cons.mp same
      simp only [fields, first, ih later]

private theorem call_congr (host : Host) {name : String} {arguments : List Expr}
    (found : Bindings.find? name one = Bindings.find? name other)
    (same : ∀ argument ∈ arguments, evaluate argument one = evaluate argument other)
    (leading : List Value) (position : Position) :
    evaluate.call host name leading arguments position one =
      evaluate.call host name leading arguments position other := by
  simp only [call, resolve, found, all_congr same]

/-- One step of evaluation looks up names of the expression itself and passes the scope on to
parts of it, and to nothing else. -/
theorem step_congr (host : Host) {item : Expr} (agree : one.Agree other item.Reads)
    (parts : ∀ part : Expr, one.Agree other part.Reads → evaluate part one = evaluate part other) :
    evaluate.step host item one = evaluate.step host item other := by
  have same (part : Expr) (inside : part.Part item) : evaluate part one = evaluate part other :=
    parts part (agree.part inside)
  cases item with
  | integer | real | text | boolean => rfl
  | name name position => simp only [step, agree name (.self rfl)]
  | binary operator left right position =>
      simp only [step, same left (.child (by simp [Expr.children])),
        same right (.child (by simp [Expr.children]))]
  | record entries position =>
      have each : ∀ entry ∈ entries, evaluate entry.2 one = evaluate entry.2 other :=
        fun entry member => same _ (.child (List.mem_map.mpr ⟨entry, member, rfl⟩))
      simp only [step, fields_congr each]
  | access object key position =>
      simp only [step, same object (.child (by simp [Expr.children]))]
  | list items position =>
      have each : ∀ item ∈ items, evaluate item one = evaluate item other :=
        fun item member => same item (.child member)
      simp only [step, all_congr each]
  | call name arguments position =>
      have each : ∀ argument ∈ arguments, evaluate argument one = evaluate argument other :=
        fun argument member => same argument (.child member)
      exact call_congr host (agree name (.self rfl)) each [] position
  | pipe left right position =>
      have rightInside : right.Part (.pipe left right position) := .child (by simp [Expr.children])
      have passed (value : Value) : evaluate.pipeInto host value right position one =
          evaluate.pipeInto host value right position other := by
        have found {label : String} (looksUp : right.looksUp? = some label) :
            Bindings.find? label one = Bindings.find? label other :=
          agree label (Expr.Reads.part (.self looksUp) rightInside)
        cases right with
        | call name arguments origin =>
            refine call_congr host (found rfl) (fun argument member => ?_) [value] origin
            have inCall : argument.Part (.call name arguments origin) := .child member
            exact same argument (inCall.trans rightInside)
        | name name origin => exact call_congr host (found rfl) (by simp) [value] position
        | _ => rfl
      simp only [step, same left (.child (by simp [Expr.children])), passed]

end Evaluator

private theorem evaluateWithin_congr (host : Host) (levels : Nat) {item : Expr} {one other : Scope}
    (agree : one.Agree other item.Reads) :
    evaluateWithin host levels item one = evaluateWithin host levels item other := by
  induction levels generalizing item with
  | zero => rfl
  | succ levels ih =>
      rw [evaluateWithin, evaluateWithin, Evaluator.step_congr host agree fun _ within => ih within]

private theorem evaluate_congr (host : Host) {item : Expr} {one other : Scope}
    (agree : one.Agree other item.Reads) : evaluate host item one = evaluate host item other :=
  evaluateWithin_congr host (maxDepth + 1) agree

/-- Evaluation comes to the same, whatever the history and the depth it begins with, in scopes
that agree on the names that the expression reads itself. So it stays the same when any other
names are bound anew or removed, and when a program has run that binds none of these names. -/
theorem evaluate_reads_only_its_names (host : Host) (item : Expr) (progress : Progress) :
    (∀ one other : Scope, one.Agree other item.Reads →
      (evaluate host item one).run progress = (evaluate host item other).run progress) ∧
    (∀ (scope : Scope) (changes : List Scope.Change),
      (∀ difference ∈ changes, ¬ item.Reads difference.label) →
      (evaluate host item (scope.changed changes)).run progress =
        (evaluate host item scope).run progress) ∧
    ∀ (session : Session) (program : Program),
      (∀ label, item.Reads label → ¬ program.Rebinds label) →
      (evaluate host item (session.run host program).2.globals).run progress =
        (evaluate host item session.globals).run progress := by
  refine ⟨?_, ?_, ?_⟩
  · intro one other agree
    rw [evaluate_congr host agree]
  · intro scope changes untouched
    rw [evaluate_congr host (Scope.agree_changed untouched scope)]
  · intro session program untouched
    have agree : (session.run host program).2.globals.Agree session.globals item.Reads :=
      fun label reads => Session.find?_runFrom (untouched label reads) .absent session
    rw [evaluate_congr host agree]

/-- The program of the source `func size(text) { len(text) }`. -/
def definesSize : Program :=
  [.function "size" ["text"] [.expression (.call "len" [.name "text" ⟨1, 23⟩] ⟨1, 19⟩) ⟨1, 19⟩]
    ⟨1, 1⟩]

/-- The program of the source `let len = 5; let text = 6`. -/
def rebindsLen : Program :=
  [.binding "len" (.integer 5 ⟨1, 11⟩) ⟨1, 1⟩, .binding "text" (.integer 6 ⟨1, 25⟩) ⟨1, 14⟩]

/-- The expression `size("abc")`. -/
def callsSize : Expr := .call "size" [.text "abc" ⟨1, 6⟩] ⟨1, 1⟩

private theorem callsSize_reads {label : String} (reads : callsSize.Reads label) :
    label = "size" := by
  obtain ⟨part, inside, looksUp⟩ := reads
  cases inside with
  | self => cases looksUp; rfl
  | inside member deeper =>
      obtain rfl := List.mem_singleton.mp member
      cases deeper with
      | self => cases looksUp
      | inside member _ => cases member

theorem evaluate_reads_only_its_names_callsSize :
    let defined := (Session.fresh.run .quiet definesSize).2
    let rebound := (defined.run .quiet rebindsLen).2
    let changed := defined.globals.changed [.remove "len", .bind "text" .absent]
    Bindings.find? "len" rebound.globals = some (.integer 5) ∧
      Bindings.find? "len" changed = none ∧
      (evaluate .quiet callsSize rebound.globals).run ⟨[], 7⟩ = (.ok (.integer 3), ⟨[], 7⟩) ∧
      (evaluate .quiet callsSize changed).run ⟨[], 7⟩ = (.ok (.integer 3), ⟨[], 7⟩) ∧
      (evaluate .quiet callsSize (rebound.globals.change (.remove "text"))).run ⟨[], 7⟩ =
        (evaluate .quiet callsSize changed).run ⟨[], 7⟩ := by
  intro defined rebound changed
  have before : (evaluate .quiet callsSize defined.globals).run ⟨[], 7⟩ =
      (.ok (.integer 3), ⟨[], 7⟩) := by rfl
  obtain ⟨agreeing, changing, running⟩ := evaluate_reads_only_its_names .quiet callsSize ⟨[], 7⟩
  have unread : ∀ difference ∈ [Scope.Change.remove "len", .bind "text" .absent],
      ¬ callsSize.Reads difference.label := by
    intro difference member reads
    have read := callsSize_reads reads
    rcases List.mem_pair.mp member with rfl | rfl <;> exact absurd read (by decide)
  have unbound : ∀ label, callsSize.Reads label → ¬ Program.Rebinds rebindsLen label := by
    intro label reads
    simp [callsSize_reads reads, Program.Rebinds, rebindsLen, Statement.target?]
  have both : Scope.Agree (rebound.globals.change (.remove "text")) changed callsSize.Reads := by
    intro label reads
    rw [callsSize_reads reads]
    rfl
  exact ⟨by rfl, by rfl, (running defined rebindsLen unbound).trans before,
    (changing defined.globals _ unread).trans before, agreeing _ _ both⟩

end WindowScript
