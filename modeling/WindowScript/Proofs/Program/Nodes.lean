import WindowScript.Proofs.Parser.Grammar

/-!
# The nodes of a program

The expressions that the evaluation of a program can come to. In a program that is derived
from tokens, each of them stands at the position of one of the tokens.
-/

set_option autoImplicit false

namespace WindowScript

/-- An expression whose nodes all stand at allowed positions. -/
inductive Expr.At (allowed : Position → Prop) : Expr → Prop where
  | integer {value position} : allowed position → At allowed (.integer value position)
  | real {value position} : allowed position → At allowed (.real value position)
  | text {value position} : allowed position → At allowed (.text value position)
  | boolean {value position} : allowed position → At allowed (.boolean value position)
  | name {label position} : allowed position → At allowed (.name label position)
  | binary {operator left right position} :
      allowed position → At allowed left → At allowed right →
      At allowed (.binary operator left right position)
  | record {entries position} :
      allowed position → (∀ entry ∈ entries, At allowed entry.2) →
      At allowed (.record entries position)
  | access {object key position} :
      allowed position → At allowed object → At allowed (.access object key position)
  | list {items position} :
      allowed position → (∀ item ∈ items, At allowed item) → At allowed (.list items position)
  | call {callee arguments position} :
      allowed position → (∀ argument ∈ arguments, At allowed argument) →
      At allowed (.call callee arguments position)
  | pipe {left right position} :
      allowed position → At allowed left → At allowed right → At allowed (.pipe left right position)

/-- A statement whose expressions stand at allowed positions, those in the bodies of functions
included. The expressions of an interface are never evaluated. -/
inductive Statement.At (allowed : Position → Prop) : Statement → Prop where
  | binding {name value position} : value.At allowed → At allowed (.binding name value position)
  | function {name parameters body position} :
      (∀ statement ∈ body, At allowed statement) →
      At allowed (.function name parameters body position)
  | returning {value position} : value.At allowed → At allowed (.returning value position)
  | gui {described} : At allowed (.gui described)
  | expression {value position} : value.At allowed → At allowed (.expression value position)

theorem Expr.At.position {allowed : Position → Prop} {expr : Expr} (placed : expr.At allowed) :
    allowed expr.position := by
  cases placed <;> assumption

/-!
## Nodes of what is derived
-/

private theorem Attributes.forall_mem_insert {property : Expr → Prop} {name : String} {value : Expr}
    (holds : property value) {attributes : Attributes}
    (each : ∀ entry ∈ attributes, property entry.2) :
    ∀ entry ∈ attributes.insert name value, property entry.2 := by
  induction attributes with
  | nil => simpa [Attributes.insert] using holds
  | cons first rest ih =>
      obtain ⟨key, held⟩ := first
      obtain ⟨head, tail⟩ := List.forall_mem_cons.mp each
      unfold Attributes.insert
      split
      · exact List.forall_mem_cons.mpr ⟨holds, tail⟩
      · exact List.forall_mem_cons.mpr ⟨head, ih tail⟩

namespace Grammar

/-- Insertion adds no expression that is not among the entries. -/
theorem forall_mem_collected {property : Expr → Prop} {entries : List (String × Expr)}
    (each : ∀ entry ∈ entries, property entry.2) :
    ∀ entry ∈ collected entries, property entry.2 := by
  unfold collected
  refine List.foldlRecOn
    (motive := fun attributes : Attributes => ∀ entry ∈ attributes, property entry.2)
    entries _ (by simp) ?_
  intro attributes before entry member
  exact Attributes.forall_mem_insert (each entry member) before

/-- All of the tokens stand at allowed positions. -/
def AllAt (allowed : Position → Prop) (tokens : List PlacedToken) : Prop :=
  ∀ token ∈ tokens, allowed token.2

section

variable {allowed : Position → Prop}

@[simp] theorem allAt_cons (token : PlacedToken) (rest : List PlacedToken) :
    AllAt allowed (token :: rest) ↔ allowed token.2 ∧ AllAt allowed rest := List.forall_mem_cons

@[simp] theorem allAt_append (left right : List PlacedToken) :
    AllAt allowed (left ++ right) ↔ AllAt allowed left ∧ AllAt allowed right :=
  List.forall_mem_append

/-- Every node stands at the position of one of the tokens of its derivation. -/
theorem Derives.expr_at {kind : Nonterminal} {tokens : List PlacedToken} {expr : Expr}
    (derived : Derives kind tokens expr) (placed : AllAt allowed tokens) : expr.At allowed := by
  revert placed
  refine @Derives.rec
    (fun _ tokens expr _ => AllAt allowed tokens → expr.At allowed)
    (fun tokens items _ => AllAt allowed tokens → ∀ item ∈ items, item.At allowed)
    (fun tokens entries _ => AllAt allowed tokens → ∀ entry ∈ entries, entry.2.At allowed)
    (fun tokens entry _ => AllAt allowed tokens → entry.2.At allowed)
    ?operand ?joined ?access ?call ?integer ?real ?text ?yes ?no ?name ?group ?record ?list
    ?noItem ?lastItem ?moreItems ?noEntry ?moreEntries ?entry kind tokens expr derived
  case operand => exact fun _ _ ih => ih
  case joined =>
    intro _ _ _ join _ _ left right position joins _ _ leftIH rightIH placed
    simp only [allAt_append, allAt_cons] at placed
    obtain ⟨before, here, behind⟩ := placed
    cases joins with
    | pipe => exact .pipe here (leftIH before) (rightIH behind)
    | _ => exact .binary here (leftIH before) (rightIH behind)
  case access =>
    intro _ _ _ _ _ _ _ _ objectIH placed
    simp only [allAt_append, allAt_cons] at placed
    exact .access placed.2.1 (objectIH placed.1)
  case call =>
    intro _ _ _ _ _ _ _ _ _ calleeIH argumentsIH placed
    simp only [allAt_append, allAt_cons] at placed
    exact .call (calleeIH placed.1.1).position (argumentsIH placed.1.2.2)
  case integer => exact fun _ _ placed => .integer ((allAt_cons _ _).mp placed).1
  case real => exact fun _ _ placed => .real ((allAt_cons _ _).mp placed).1
  case text => exact fun _ _ placed => .text ((allAt_cons _ _).mp placed).1
  case yes => exact fun _ placed => .boolean ((allAt_cons _ _).mp placed).1
  case no => exact fun _ placed => .boolean ((allAt_cons _ _).mp placed).1
  case name => exact fun _ _ placed => .name ((allAt_cons _ _).mp placed).1
  case group =>
    intro _ _ _ _ _ innerIH placed
    simp only [List.cons_append, allAt_append, allAt_cons] at placed
    exact innerIH placed.2.1
  case record =>
    intro _ _ _ _ _ entriesIH placed
    simp only [List.cons_append, allAt_append, allAt_cons] at placed
    exact .record placed.1 (forall_mem_collected (entriesIH placed.2.1))
  case list =>
    intro _ _ _ _ _ itemsIH placed
    simp only [List.cons_append, allAt_append, allAt_cons] at placed
    exact .list placed.1 (itemsIH placed.2.1)
  case noItem => simp
  case lastItem =>
    intro _ _ _ itemIH placed
    simpa using itemIH placed
  case moreItems =>
    intro _ _ _ _ _ _ _ itemIH itemsIH placed
    simp only [allAt_append, allAt_cons] at placed
    exact List.forall_mem_cons.mpr ⟨itemIH placed.1, itemsIH placed.2.2⟩
  case noEntry => simp
  case moreEntries =>
    intro _ _ _ _ _ _ entryIH entriesIH placed
    rw [allAt_append] at placed
    exact List.forall_mem_cons.mpr ⟨entryIH placed.1, entriesIH placed.2⟩
  case entry =>
    intro _ _ _ _ _ _ _ _ _ _ valueIH placed
    simp only [List.cons_append, allAt_append, allAt_cons] at placed
    exact valueIH placed.2.2.1

private theorem DerivesStatement.statement_at {tokens : List PlacedToken} {statement : Statement}
    (derived : DerivesStatement tokens statement) (placed : AllAt allowed tokens) :
    statement.At allowed := by
  revert placed
  refine @DerivesStatement.rec
    (fun tokens statement _ => AllAt allowed tokens → statement.At allowed)
    (fun tokens statements _ => AllAt allowed tokens → ∀ statement ∈ statements,
      statement.At allowed)
    ?binding ?function ?gui ?returning ?expression ?none ?more tokens statement derived
  case binding =>
    intro _ _ _ _ _ _ _ value _ placed
    simp only [List.cons_append, allAt_append, allAt_cons] at placed
    exact .binding (value.expr_at placed.2.2.2.1)
  case function =>
    intro _ _ _ _ _ _ _ _ _ _ _ _ _ _ _ bodyIH placed
    simp only [List.cons_append, allAt_append, allAt_cons] at placed
    exact .function (bodyIH placed.2.2.2.1.1.2.2.2)
  case gui => exact fun _ _ _ => .gui
  case returning =>
    intro _ _ _ _ value _ placed
    simp only [List.cons_append, allAt_append, allAt_cons] at placed
    exact .returning (value.expr_at placed.2.1)
  case expression =>
    intro _ _ _ _ _ value _ placed
    rw [allAt_append] at placed
    exact .expression (value.expr_at placed.1)
  case none => simp
  case more =>
    intro _ _ _ _ _ _ statementIH statementsIH placed
    rw [allAt_append] at placed
    exact List.forall_mem_cons.mpr ⟨statementIH placed.1, statementsIH placed.2⟩

theorem Repeated.statements_at {tokens : List PlacedToken} {program : Program}
    (derived : Repeated DerivesStatement tokens program) (placed : AllAt allowed tokens) :
    ∀ statement ∈ program, statement.At allowed := by
  induction derived with
  | none => simp
  | more first _ ih =>
      rw [allAt_append] at placed
      exact List.forall_mem_cons.mpr ⟨first.statement_at placed.1, ih placed.2⟩

end

end Grammar

end WindowScript
