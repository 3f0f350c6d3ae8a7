import WindowScript.Proofs.Parser.Rendering
import WindowScript.Proofs.Parser.Soundness
import WindowScript.Proofs.Token.Tokenize
import WindowScript.Script

/-!
# The vocabulary of a program

Every name, number and text of a program that is read from a source comes from one of the
tokens of the source. So all names are words, integers are not negative and reals are finite,
wherever in the program they stand.
-/

set_option autoImplicit false

namespace WindowScript

/-- A run of characters that spells a word. -/
def IsWord (characters : List Char) : Prop :=
  ∃ first rest, characters = first :: rest ∧ Lexer.startsWord first = true ∧
    ∀ character ∈ rest, Lexer.continuesWord character = true

/-- A token that some lexeme stands for. -/
def Token.Spelled (token : Token) : Prop :=
  ∃ characters, Lexer.Spells characters (.ok token)

theorem Token.Spelled.isWord {token : Token} (spelled : token.Spelled) {name : String}
    (word : token.word? = some name) : IsWord name.toList := by
  obtain ⟨characters, spells⟩ := spelled
  cases spells with
  | @word first rest begins goesOn =>
      rw [Token.word?_ofWord] at word
      cases word
      exact ⟨first, rest, String.toList_ofList, begins, goesOn⟩
  | real | integer | symbol | quoted => cases word

theorem Token.Spelled.isFinite {value : Float} (spelled : (Token.real value).Spelled) :
    Real.isFinite value = true := by
  obtain ⟨characters, spells⟩ := spelled
  generalize token : Token.real value = spelt at spells
  cases spells with
  | real _ _ _ finite => cases token; exact finite
  | word => exact absurd token.symm (Token.ofWord_ne rfl _)
  | integer | symbol | quoted => cases token

theorem Token.Spelled.nonnegative {value : Integer} (spelled : (Token.integer value).Spelled) :
    0 ≤ value.toInt := by
  obtain ⟨characters, spells⟩ := spelled
  generalize token : Token.integer value = spelt at spells
  cases spells with
  | integer _ _ exact => cases token; omega
  | word => exact absurd token.symm (Token.ofWord_ne rfl _)
  | real | symbol | quoted => cases token

/-!
## What programs are made of
-/

section

variable (allowed : Token → Prop)

/-- A name that an allowed token spells. -/
def Named (name : String) : Prop := ∃ token, allowed token ∧ token.word? = some name

/-- An expression all of whose literals and names are those of allowed tokens. -/
inductive Expr.MadeOf : Expr → Prop where
  | integer {value position} : allowed (.integer value) → MadeOf (.integer value position)
  | real {value position} : allowed (.real value) → MadeOf (.real value position)
  | text {value position} : allowed (.text value) → MadeOf (.text value position)
  | boolean {value position} : MadeOf (.boolean value position)
  | name {label position} : allowed (.identifier label) → MadeOf (.name label position)
  | binary {operator left right position} :
      MadeOf left → MadeOf right → MadeOf (.binary operator left right position)
  | record {entries position} :
      (∀ entry ∈ entries, Named allowed entry.1) → (∀ entry ∈ entries, MadeOf entry.2) →
      MadeOf (.record entries position)
  | access {object key position} :
      MadeOf object → Named allowed key → MadeOf (.access object key position)
  | list {items position} : (∀ item ∈ items, MadeOf item) → MadeOf (.list items position)
  | call {callee arguments position} :
      allowed (.identifier callee) → (∀ argument ∈ arguments, MadeOf argument) →
      MadeOf (.call callee arguments position)
  | pipe {left right position} : MadeOf left → MadeOf right → MadeOf (.pipe left right position)

def Attributes.MadeOf (attributes : Attributes) : Prop :=
  ∀ entry ∈ attributes, Named allowed entry.1 ∧ entry.2.MadeOf allowed

def Widget.MadeOf (widget : Widget) : Prop :=
  allowed (.widget widget.kind) ∧ widget.attributes.MadeOf allowed

inductive Element.MadeOf : Element → Prop where
  | window {described : Window} :
      described.attributes.MadeOf allowed → (∀ widget ∈ described.children, widget.MadeOf allowed) →
      MadeOf (.window described)
  | widget {described : Widget} : described.MadeOf allowed → MadeOf (.widget described)

/-- A statement all of whose literals and names are those of allowed tokens, throughout the
bodies of functions and the parts of interfaces. -/
inductive Statement.MadeOf : Statement → Prop where
  | binding {name value position} :
      allowed (.identifier name) → value.MadeOf allowed → MadeOf (.binding name value position)
  | function {name parameters body position} :
      allowed (.identifier name) → (∀ parameter ∈ parameters, allowed (.identifier parameter)) →
      (∀ statement ∈ body, MadeOf statement) →
      MadeOf (.function name parameters body position)
  | returning {value position} : value.MadeOf allowed → MadeOf (.returning value position)
  | gui {described : Gui} :
      allowed (.identifier described.name) → (∀ part ∈ described.elements, part.MadeOf allowed) →
      MadeOf (.gui described)
  | expression {value position} : value.MadeOf allowed → MadeOf (.expression value position)

end

/-!
## Programs are made of their tokens
-/

private theorem Attributes.mem_of_mem_insert {name : String} {value : Expr}
    {attributes : Attributes} {entry : String × Expr}
    (member : entry ∈ attributes.insert name value) :
    entry = (name, value) ∨ entry ∈ attributes := by
  induction attributes with
  | nil => exact .inl (List.mem_singleton.mp member)
  | cons first rest ih =>
      obtain ⟨key, held⟩ := first
      unfold Attributes.insert at member
      split at member
      · next same =>
          subst same
          rcases List.mem_cons.mp member with found | later
          · exact .inl found
          · exact .inr (List.mem_cons_of_mem _ later)
      · rcases List.mem_cons.mp member with found | later
        · exact .inr (List.mem_cons.mpr (.inl found))
        · exact (ih later).imp_right (List.mem_cons_of_mem _)

namespace Grammar

theorem mem_of_mem_collected {entries : List (String × Expr)} {entry : String × Expr}
    (member : entry ∈ collected entries) : entry ∈ entries := by
  suffices kept : ∀ entry ∈ collected entries, entry ∈ entries from kept entry member
  unfold collected
  refine List.foldlRecOn
    (motive := fun attributes : Attributes => ∀ entry ∈ attributes, entry ∈ entries)
    entries _ (by simp) ?_
  intro attributes before inserted among entry member
  rcases Attributes.mem_of_mem_insert member with rfl | held
  · exact among
  · exact before entry held

/-- All of the tokens are allowed. -/
def AllOf (allowed : Token → Prop) (tokens : List PlacedToken) : Prop :=
  ∀ token ∈ tokens, allowed token.1

section

variable {allowed : Token → Prop}

@[simp] theorem allOf_cons (token : PlacedToken) (rest : List PlacedToken) :
    AllOf allowed (token :: rest) ↔ allowed token.1 ∧ AllOf allowed rest := List.forall_mem_cons

@[simp] theorem allOf_append (left right : List PlacedToken) :
    AllOf allowed (left ++ right) ↔ AllOf allowed left ∧ AllOf allowed right :=
  List.forall_mem_append

theorem Derives.madeOf {kind : Nonterminal} {tokens : List PlacedToken} {expr : Expr}
    (derived : Derives kind tokens expr) (all : AllOf allowed tokens) : expr.MadeOf allowed := by
  revert all
  refine @Derives.rec
    (fun _ tokens expr _ => AllOf allowed tokens → expr.MadeOf allowed)
    (fun tokens items _ => AllOf allowed tokens → ∀ item ∈ items, item.MadeOf allowed)
    (fun tokens entries _ => AllOf allowed tokens → Attributes.MadeOf allowed entries)
    (fun tokens entry _ => AllOf allowed tokens →
      Named allowed entry.1 ∧ entry.2.MadeOf allowed)
    ?operand ?joined ?access ?call ?integer ?real ?text ?yes ?no ?name ?group ?record ?list
    ?noItem ?lastItem ?moreItems ?noEntry ?moreEntries ?entry kind tokens expr derived
  case operand => exact fun _ _ ih => ih
  case joined =>
    intro _ _ _ join _ _ left right position joins _ _ leftIH rightIH all
    simp only [allOf_append, allOf_cons] at all
    obtain ⟨before, _, behind⟩ := all
    cases joins with
    | pipe => exact .pipe (leftIH before) (rightIH behind)
    | _ => exact .binary (leftIH before) (rightIH behind)
  case access =>
    intro _ _ word _ _ _ _ spells objectIH all
    simp only [allOf_append, allOf_cons] at all
    exact .access (objectIH all.1) ⟨word, all.2.2.1, spells⟩
  case call =>
    intro _ _ _ _ _ _ _ _ _ calleeIH argumentsIH all
    simp only [allOf_append, allOf_cons] at all
    cases calleeIH all.1.1 with
    | name callee => exact .call callee (argumentsIH all.1.2.2)
  case integer => exact fun _ _ all => .integer ((allOf_cons _ _).mp all).1
  case real => exact fun _ _ all => .real ((allOf_cons _ _).mp all).1
  case text => exact fun _ _ all => .text ((allOf_cons _ _).mp all).1
  case yes => exact fun _ _ => .boolean
  case no => exact fun _ _ => .boolean
  case name => exact fun _ _ all => .name ((allOf_cons _ _).mp all).1
  case group =>
    intro _ _ _ _ _ innerIH all
    simp only [List.cons_append, allOf_append, allOf_cons] at all
    exact innerIH all.2.1
  case record =>
    intro _ _ _ _ _ entriesIH all
    simp only [List.cons_append, allOf_append, allOf_cons] at all
    have each := entriesIH all.2.1
    exact .record (fun entry member => (each entry (mem_of_mem_collected member)).1)
      (fun entry member => (each entry (mem_of_mem_collected member)).2)
  case list =>
    intro _ _ _ _ _ itemsIH all
    simp only [List.cons_append, allOf_append, allOf_cons] at all
    exact .list (itemsIH all.2.1)
  case noItem => simp
  case lastItem =>
    intro _ _ _ itemIH all
    simpa using itemIH all
  case moreItems =>
    intro _ _ _ _ _ _ _ itemIH itemsIH all
    simp only [allOf_append, allOf_cons] at all
    exact List.forall_mem_cons.mpr ⟨itemIH all.1, itemsIH all.2.2⟩
  case noEntry => simp [Attributes.MadeOf]
  case moreEntries =>
    intro _ _ _ _ _ _ entryIH entriesIH all
    rw [allOf_append] at all
    exact List.forall_mem_cons.mpr ⟨entryIH all.1, entriesIH all.2⟩
  case entry =>
    intro word _ _ _ _ _ _ spells _ _ valueIH all
    simp only [List.cons_append, allOf_append, allOf_cons] at all
    exact ⟨⟨word, all.1, spells⟩, valueIH all.2.2.1⟩

/-- What holds of each phrase holds of every phrase of a sequence. -/
theorem Repeated.forall_mem {α : Type} {Item : List PlacedToken → α → Prop} {property : α → Prop}
    {tokens : List PlacedToken} {items : List α} (derived : Repeated Item tokens items)
    (each : ∀ {tokens item}, Item tokens item → AllOf allowed tokens → property item)
    (all : AllOf allowed tokens) : ∀ item ∈ items, property item := by
  induction derived with
  | none => simp
  | more first _ ih =>
      rw [allOf_append] at all
      exact List.forall_mem_cons.mpr ⟨each first all.1, ih all.2⟩

private theorem Separated.forall_mem {α : Type} {Item : List PlacedToken → α → Prop}
    {property : α → Prop} {tokens : List PlacedToken} {items : List α}
    (derived : Separated Item tokens items)
    (each : ∀ {tokens item}, Item tokens item → AllOf allowed tokens → property item)
    (all : AllOf allowed tokens) : ∀ item ∈ items, property item := by
  induction derived with
  | none => simp
  | last only => exact List.forall_mem_singleton.mpr (each only all)
  | more first _ ih =>
      simp only [allOf_append, allOf_cons] at all
      exact List.forall_mem_cons.mpr ⟨each first all.1, ih all.2.2⟩

private theorem AttributeList.madeOf {tokens : List PlacedToken} {attributes : Attributes}
    (derived : AttributeList tokens attributes) (all : AllOf allowed tokens) :
    attributes.MadeOf allowed := by
  cases derived with
  | @attributes inner entries _ _ separated =>
      simp only [List.cons_append, allOf_append, allOf_cons] at all
      have each : ∀ entry ∈ entries, Named allowed entry.1 ∧ entry.2.MadeOf allowed := by
        refine separated.forall_mem ?_ all.2.1
        intro tokens entry one within
        obtain ⟨spells, value⟩ := one
        simp only [allOf_cons] at within
        exact ⟨⟨_, within.1, spells⟩, value.madeOf within.2.2⟩
      exact fun entry member => each entry (mem_of_mem_collected member)

private theorem DerivesWidget.madeOf {tokens : List PlacedToken} {widget : Widget}
    (derived : DerivesWidget tokens widget) (all : AllOf allowed tokens) :
    widget.MadeOf allowed := by
  obtain ⟨attributes, _⟩ := derived
  simp only [List.cons_append, allOf_append, allOf_cons] at all
  exact ⟨all.1, attributes.madeOf all.2.1⟩

private theorem DerivesElement.madeOf {tokens : List PlacedToken} {element : Element}
    (derived : DerivesElement tokens element) (all : AllOf allowed tokens) :
    element.MadeOf allowed := by
  cases derived with
  | window attributes children =>
      simp only [List.cons_append, allOf_append, allOf_cons] at all
      exact .window (attributes.madeOf all.2.1.1) (children.forall_mem DerivesWidget.madeOf all.2.1.2.2)
  | widget described => exact .widget (described.madeOf all)

private theorem DerivesStatement.madeOf {tokens : List PlacedToken} {statement : Statement}
    (derived : DerivesStatement tokens statement) (all : AllOf allowed tokens) :
    statement.MadeOf allowed := by
  revert all
  refine @DerivesStatement.rec
    (fun tokens statement _ => AllOf allowed tokens → statement.MadeOf allowed)
    (fun tokens statements _ => AllOf allowed tokens → ∀ statement ∈ statements,
      statement.MadeOf allowed)
    ?binding ?function ?gui ?returning ?expression ?none ?more tokens statement derived
  case binding =>
    intro _ _ _ _ _ _ _ value _ all
    simp only [List.cons_append, allOf_append, allOf_cons] at all
    exact .binding all.2.1 (value.madeOf all.2.2.2.1)
  case function =>
    intro _ _ _ _ _ _ _ _ _ _ _ _ parameters _ _ bodyIH all
    simp only [List.cons_append, allOf_append, allOf_cons] at all
    refine .function all.2.1 ?_ (bodyIH all.2.2.2.1.1.2.2.2)
    refine parameters.forall_mem ?_ all.2.2.2.1.1.1
    intro tokens parameter one within
    cases one
    exact ((allOf_cons _ _).mp within).1
  case gui =>
    intro _ _ _ _ _ _ _ _ elements _ all
    simp only [List.cons_append, allOf_append, allOf_cons] at all
    exact .gui all.2.1 (elements.forall_mem DerivesElement.madeOf all.2.2.2.1.1)
  case returning =>
    intro _ _ _ _ value _ all
    simp only [List.cons_append, allOf_append, allOf_cons] at all
    exact .returning (value.madeOf all.2.1)
  case expression =>
    intro _ _ _ _ _ value _ all
    rw [allOf_append] at all
    exact .expression (value.madeOf all.1)
  case none => simp
  case more =>
    intro _ _ _ _ _ _ statementIH statementsIH all
    rw [allOf_append] at all
    exact List.forall_mem_cons.mpr ⟨statementIH all.1, statementsIH all.2⟩

end

end Grammar

theorem Lexer.Tiling.spells {before text reached rest : List Char} {found : List Lexeme}
    (tiling : Tiling before text found reached rest) :
    ∀ lexeme ∈ found, Spells lexeme.characters (.ok lexeme.token) := by
  induction tiling with
  | stop => simp
  | gap _ _ _ ih => exact ih
  | lexeme _ _ spells _ ih => exact List.forall_mem_cons.mpr ⟨spells, ih⟩

theorem Lexer.Tiling.spelled {before text reached rest : List Char} {found : List Lexeme}
    (tiling : Tiling before text found reached rest) :
    ∀ lexeme ∈ found, lexeme.token.Spelled :=
  fun lexeme held => ⟨_, tiling.spells lexeme held⟩

/-- A program that is read from a source is derived from the lexemes of the source. No lexeme is
the end of input, so that all of them are read. -/
theorem Script.read_derived {source : String} {program : Program}
    (accepted : Script.read source = .ok program) :
    ∃ found, Lexer.Tiling [] source.toList found source.toList [] ∧
      Grammar.Repeated Grammar.DerivesStatement (found.map Lexer.Lexeme.placed) program := by
  unfold Script.read at accepted
  cases tokenized : tokenize source with
  | error failure => rw [tokenized] at accepted; cases accepted
  | ok tokens =>
      cases parsed : parse tokens with
      | error failure => simp only [tokenized, parsed] at accepted; cases accepted
      | ok found =>
          simp only [tokenized, parsed] at accepted
          cases accepted
          unfold parse Parser.programWithin at parsed
          obtain ⟨_, _, read⟩ := Parser.bind_eq_ok parsed
          obtain ⟨body, position, rest, statements, split, endless, derived, rfl⟩ :=
            Parser.statements_sound (Parser.statement_sound _) read
          obtain ⟨lexemes, tiling, placed⟩ := tokenize_eq_ok_iff.mp tokenized
          refine ⟨lexemes, tiling, ?_⟩
          rcases List.append_eq_append_iff.mp (placed.symm.trans split) with
            ⟨more, longer, final⟩ | ⟨more, shorter, final⟩
          · cases more with
            | nil => exact (longer.trans (List.append_nil _)) ▸ derived
            | cons head tail =>
                obtain ⟨rfl, _⟩ := List.cons.inj final
                exact absurd rfl (endless _ (longer ▸ List.mem_append_right _ List.mem_cons_self))
          · cases more with
            | nil => exact (shorter.trans (List.append_nil _)) ▸ derived
            | cons head tail =>
                obtain ⟨rfl, _⟩ := List.cons.inj final
                have among := shorter ▸ List.mem_append_right body List.mem_cons_self
                obtain ⟨lexeme, held, same⟩ := List.mem_map.mp among
                exact absurd (congrArg Prod.fst same) (tiling.token_cases lexeme held).2.2.2

/-- A program that is read from a source is made of lexemes of the source. -/
theorem Script.read_madeOf {source : String} {program : Program}
    (accepted : Script.read source = .ok program) :
    ∀ statement ∈ program, statement.MadeOf Token.Spelled := by
  obtain ⟨found, tiling, derived⟩ := read_derived accepted
  refine derived.forall_mem Grammar.DerivesStatement.madeOf fun token member => ?_
  obtain ⟨lexeme, held, rfl⟩ := List.mem_map.mp member
  exact tiling.spelled lexeme held

/-!
## The expressions of a program
-/

/-- The expressions directly inside an expression. -/
def Expr.children : Expr → List Expr
  | .binary _ left right _ | .pipe left right _ => [left, right]
  | .record entries _ => entries.map Prod.snd
  | .access object _ _ => [object]
  | .list items _ | .call _ items _ => items
  | .integer _ _ | .real _ _ | .text _ _ | .boolean _ _ | .name _ _ => []

/-- An expression at whatever place inside another, or the other itself. -/
inductive Expr.Part : Expr → Expr → Prop where
  | self (whole : Expr) : Part whole whole
  | inside {part child whole : Expr} : child ∈ whole.children → Part part child → Part part whole

/-- An expression at whatever place of a statement: in what it evaluates, in the body of a
function or in an attribute of an interface. -/
inductive Statement.Mentions (item : Expr) : Statement → Prop where
  | binding {name value position} : item.Part value → Mentions item (.binding name value position)
  | returning {value position} : item.Part value → Mentions item (.returning value position)
  | expression {value position} : item.Part value → Mentions item (.expression value position)
  | function {name parameters body position statement} :
      statement ∈ body → Mentions item statement →
      Mentions item (.function name parameters body position)
  | window {gui : Gui} {window : Window} {entry : String × Expr} :
      .window window ∈ gui.elements → entry ∈ window.attributes → item.Part entry.2 →
      Mentions item (.gui gui)
  | child {gui : Gui} {window : Window} {widget : Widget} {entry : String × Expr} :
      .window window ∈ gui.elements → widget ∈ window.children → entry ∈ widget.attributes →
      item.Part entry.2 → Mentions item (.gui gui)
  | widget {gui : Gui} {widget : Widget} {entry : String × Expr} :
      .widget widget ∈ gui.elements → entry ∈ widget.attributes → item.Part entry.2 →
      Mentions item (.gui gui)

def Program.Mentions (program : Program) (item : Expr) : Prop :=
  ∃ statement ∈ program, Statement.Mentions item statement

section

variable {allowed : Token → Prop}

theorem Expr.MadeOf.children {expr : Expr} (made : expr.MadeOf allowed) :
    ∀ child ∈ expr.children, child.MadeOf allowed := by
  cases made with
  | binary left right | pipe left right => simpa [Expr.children] using ⟨left, right⟩
  | record names values => simpa [Expr.children] using fun value name member => values _ member
  | access object key => simpa [Expr.children] using object
  | list items => exact items
  | call callee arguments => exact arguments
  | integer | real | text | boolean | name => simp [Expr.children]

theorem Expr.MadeOf.part {part whole : Expr} (inside : part.Part whole)
    (made : whole.MadeOf allowed) : part.MadeOf allowed := by
  induction inside with
  | self => exact made
  | inside member _ ih => exact ih (made.children _ member)

private theorem Statement.MadeOf.mentions {item : Expr} {statement : Statement}
    (mentions : Statement.Mentions item statement) (made : statement.MadeOf allowed) :
    item.MadeOf allowed := by
  induction mentions with
  | binding part => cases made with | binding _ value => exact value.part part
  | returning part => cases made with | returning value => exact value.part part
  | expression part => cases made with | expression value => exact value.part part
  | function member _ ih => cases made with | function _ _ body => exact ih (body _ member)
  | window element entry part =>
      cases made with
      | gui _ elements =>
          cases elements _ element with
          | window attributes _ => exact (attributes _ entry).2.part part
  | child element widget entry part =>
      cases made with
      | gui _ elements =>
          cases elements _ element with
          | window _ children => exact ((children _ widget).2 _ entry).2.part part
  | widget element entry part =>
      cases made with
      | gui _ elements =>
          cases elements _ element with
          | widget described => exact (described.2 _ entry).2.part part

end

theorem Script.read_mentions {source : String} {program : Program}
    (accepted : Script.read source = .ok program) {item : Expr}
    (mentions : Program.Mentions program item) : item.MadeOf Token.Spelled := by
  obtain ⟨statement, member, within⟩ := mentions
  exact (read_madeOf accepted statement member).mentions within

end WindowScript
