import WindowScript.Parser.Program
import WindowScript.Proofs.Program.Relocation

/-!
# Writing programs as tokens

Every program can be written as a sequence of tokens. Parentheses stand only where an
operand binds looser than its place asks for. Every statement, every entry of a record
and every widget is followed by a semicolon, and the end of input comes last.
-/

set_option autoImplicit false

namespace WindowScript

def Operator.symbol : Operator → Symbol
  | .add => .plus
  | .sub => .minus
  | .mul => .star
  | .div => .slash
  | .equal => .equals

namespace Level

def strength : Level → Nat
  | .pipeline => 0
  | .equality => 1
  | .sum => 2
  | .product => 3

/-- The levels that bind tighter, from the loosest. -/
def tighter : Level → List Level
  | .pipeline => [.equality, .sum, .product]
  | .equality => [.sum, .product]
  | .sum => [.product]
  | .product => []

end Level

/-- How tightly anything binds that is not joined by an operator. -/
def atomStrength : Nat := 4

namespace Expr

/-- The level of the operator that joins the two sides of an expression. -/
def level? : Expr → Option Level
  | .pipe _ _ _ => some .pipeline
  | .binary operator _ _ _ => some operator.level
  | _ => none

/-- How tightly an expression binds. -/
def strength (expr : Expr) : Nat :=
  match expr.level? with
  | some level => level.strength
  | none => atomStrength

end Expr

def parenthesized (tokens : List Token) : List Token :=
  .symbol .openRound :: tokens ++ [.symbol .closeRound]

/-- The tokens of an expression at a place that asks for some strength. -/
def placed (needed actual : Nat) (tokens : List Token) : List Token :=
  if actual < needed then parenthesized tokens else tokens

def commaJoined : List (List Token) → List Token
  | [] => []
  | [only] => only
  | first :: second :: rest => first ++ .symbol .comma :: commaJoined (second :: rest)

def entryTokens (key : String) (value : List Token) : List Token :=
  .ofWord key :: .symbol .assign :: value ++ [.symbol .semicolon]

mutual

/-- The tokens of an expression. Operators group to the left, so that a right operand
has to bind tighter than the operator before it. -/
def Expr.render : Expr → List Token
  | .integer value _ => [.integer value]
  | .real value _ => [.real value]
  | .text value _ => [.text value]
  | .boolean value _ => [.keyword (if value then .trueWord else .falseWord)]
  | .name label _ => [.identifier label]
  | .binary operator left right _ =>
      placed operator.level.strength left.strength left.render ++
        .symbol operator.symbol ::
          placed (operator.level.strength + 1) right.strength right.render
  | .record entries _ =>
      .symbol .openCurly :: (Expr.renderEntries entries).flatten ++ [.symbol .closeCurly]
  | .access object key _ =>
      placed atomStrength object.strength object.render ++ [.symbol .dot, .ofWord key]
  | .list items _ =>
      .symbol .openSquare :: commaJoined (Expr.renderItems items) ++ [.symbol .closeSquare]
  | .call callee arguments _ =>
      .identifier callee :: .symbol .openRound :: commaJoined (Expr.renderItems arguments) ++
        [.symbol .closeRound]
  | .pipe left right _ =>
      placed Level.pipeline.strength left.strength left.render ++
        .symbol .pipe :: placed (Level.pipeline.strength + 1) right.strength right.render

def Expr.renderItems : List Expr → List (List Token)
  | [] => []
  | item :: rest => item.render :: Expr.renderItems rest

def Expr.renderEntries : List (String × Expr) → List (List Token)
  | [] => []
  | (key, value) :: rest => entryTokens key value.render :: Expr.renderEntries rest

end

def renderAttribute (entry : String × Expr) : List Token :=
  .ofWord entry.1 :: .symbol .colon :: entry.2.render

def Attributes.render (attributes : Attributes) : List Token :=
  parenthesized (commaJoined (attributes.map renderAttribute))

def Widget.render (widget : Widget) : List Token :=
  .widget widget.kind :: widget.attributes.render ++ [.symbol .semicolon]

def Window.render (window : Window) : List Token :=
  .keyword .window :: window.attributes.render ++
    .symbol .openCurly :: window.children.flatMap Widget.render ++ [.symbol .closeCurly]

def Element.render : Element → List Token
  | .window part => part.render
  | .widget part => part.render

def Gui.render (gui : Gui) : List Token :=
  .keyword .gui :: .identifier gui.name :: .symbol .openCurly ::
    gui.elements.flatMap Element.render ++ [.symbol .closeCurly]

mutual

def Statement.render : Statement → List Token
  | .binding name value _ =>
      .keyword .letWord :: .identifier name :: .symbol .assign :: value.render ++
        [.symbol .semicolon]
  | .function name parameters body _ =>
      .keyword .func :: .identifier name ::
        parenthesized (commaJoined (parameters.map ([Token.identifier ·]))) ++
        .symbol .openCurly :: Statement.renderAll body ++ [.symbol .closeCurly, .symbol .semicolon]
  | .returning value _ => .keyword .returnWord :: value.render ++ [.symbol .semicolon]
  | .gui description => description.render ++ [.symbol .semicolon]
  | .expression value _ => value.render ++ [.symbol .semicolon]

def Statement.renderAll : List Statement → List Token
  | [] => []
  | statement :: rest => statement.render ++ Statement.renderAll rest

end

def Program.render (program : Program) : List Token :=
  program.flatMap Statement.render ++ [.endOfInput]

/-!
## The attribute lists of a program
-/

/-- Whether no two attributes have the same name. -/
def Attributes.Distinct (attributes : Attributes) : Prop := (attributes.map Prod.fst).Nodup

instance (attributes : Attributes) : Decidable attributes.Distinct :=
  inferInstanceAs (Decidable (List.Nodup _))

mutual

/-- Every attribute list of an expression, at any depth. -/
def Expr.attributeLists : Expr → List Attributes
  | .binary _ left right _ => left.attributeLists ++ right.attributeLists
  | .record entries _ => entries :: Expr.attributeListsOfEntries entries
  | .access object _ _ => object.attributeLists
  | .list items _ => Expr.attributeListsOfItems items
  | .call _ arguments _ => Expr.attributeListsOfItems arguments
  | .pipe left right _ => left.attributeLists ++ right.attributeLists
  | _ => []

def Expr.attributeListsOfItems : List Expr → List Attributes
  | [] => []
  | item :: rest => item.attributeLists ++ Expr.attributeListsOfItems rest

def Expr.attributeListsOfEntries : List (String × Expr) → List Attributes
  | [] => []
  | (_, value) :: rest => value.attributeLists ++ Expr.attributeListsOfEntries rest

end

/-- An attribute list itself and those inside its expressions. -/
def Attributes.attributeLists (attributes : Attributes) : List Attributes :=
  attributes :: attributes.flatMap fun entry => entry.2.attributeLists

def Element.attributeLists : Element → List Attributes
  | .window part =>
      part.attributes.attributeLists ++
        part.children.flatMap fun child => child.attributes.attributeLists
  | .widget part => part.attributes.attributeLists

mutual

def Statement.attributeLists : Statement → List Attributes
  | .binding _ value _ => value.attributeLists
  | .function _ _ body _ => Statement.attributeListsOfBody body
  | .returning value _ => value.attributeLists
  | .gui description => description.elements.flatMap Element.attributeLists
  | .expression value _ => value.attributeLists

def Statement.attributeListsOfBody : List Statement → List Attributes
  | [] => []
  | statement :: rest => statement.attributeLists ++ Statement.attributeListsOfBody rest

end

def Program.attributeLists (program : Program) : List Attributes :=
  program.flatMap Statement.attributeLists

/-!
## Lists inside the mutual definitions
-/

@[simp] theorem Expr.renderItems_eq (items : List Expr) :
    Expr.renderItems items = items.map Expr.render := by
  induction items with
  | nil => rfl
  | cons item rest ih => simp only [Expr.renderItems, List.map_cons, ih]

@[simp] theorem Expr.renderEntries_eq (entries : List (String × Expr)) :
    Expr.renderEntries entries = entries.map fun entry => entryTokens entry.1 entry.2.render := by
  induction entries with
  | nil => rfl
  | cons entry rest ih => simp only [Expr.renderEntries, List.map_cons, ih]

def recordTokens (entries : List (String × Expr)) : List Token :=
  entries.flatMap fun entry => entryTokens entry.1 entry.2.render

theorem Expr.render_record (entries : List (String × Expr)) (position : Position) :
    (Expr.record entries position).render =
      .symbol .openCurly :: recordTokens entries ++ [.symbol .closeCurly] := by
  rw [Expr.render, Expr.renderEntries_eq, recordTokens, List.flatMap_def]

@[simp] theorem Statement.renderAll_eq (body : List Statement) :
    Statement.renderAll body = body.flatMap Statement.render := by
  induction body with
  | nil => rfl
  | cons statement rest ih => simp only [Statement.renderAll, List.flatMap_cons, ih]

@[simp] theorem Expr.attributeListsOfItems_eq (items : List Expr) :
    Expr.attributeListsOfItems items = items.flatMap Expr.attributeLists := by
  induction items with
  | nil => rfl
  | cons item rest ih => simp only [Expr.attributeListsOfItems, List.flatMap_cons, ih]

@[simp] theorem Expr.attributeListsOfEntries_eq (entries : List (String × Expr)) :
    Expr.attributeListsOfEntries entries = entries.flatMap fun entry => entry.2.attributeLists := by
  induction entries with
  | nil => rfl
  | cons entry rest ih => simp only [Expr.attributeListsOfEntries, List.flatMap_cons, ih]

@[simp] theorem Statement.attributeListsOfBody_eq (body : List Statement) :
    Statement.attributeListsOfBody body = body.flatMap Statement.attributeLists := by
  induction body with
  | nil => rfl
  | cons statement rest ih => simp only [Statement.attributeListsOfBody, List.flatMap_cons, ih]

/-!
## The first token
-/

/-- Whether an expression may begin with a token. -/
def Token.beginsExpression : Token → Bool
  | .integer _ | .real _ | .text _ | .identifier _ => true
  | .keyword .trueWord | .keyword .falseWord => true
  | .symbol .openRound | .symbol .openCurly | .symbol .openSquare => true
  | _ => false

/-- The token of a word spells that word, reserved or not. -/
theorem Token.word?_ofWord (word : String) : (Token.ofWord word).word? = some word := by
  unfold Token.ofWord
  cases reserved : Keyword.ofSpelling? word with
  | some keyword =>
      have spelled := List.find?_some reserved
      simpa [Token.word?] using spelled
  | none =>
      cases entry : WidgetWord.find? word with
      | some known =>
          have spelled := List.find?_some entry
          simpa [Token.word?] using spelled
      | none => rfl

/-- The token of a word is none of those that spell no word. -/
theorem Token.ofWord_ne {token : Token} (wordless : token.word? = none) (word : String) :
    Token.ofWord word ≠ token := by
  intro same
  rw [← same, Token.word?_ofWord] at wordless
  cases wordless

private theorem exists_cons_placed {tokens : List Token} (needed actual : Nat)
    (begins : ∃ first rest, tokens = first :: rest ∧ first.beginsExpression = true) :
    ∃ first rest, placed needed actual tokens = first :: rest ∧
      first.beginsExpression = true := by
  unfold placed
  split
  · exact ⟨.symbol .openRound, _, rfl, rfl⟩
  · exact begins

theorem Expr.exists_cons_render (expr : Expr) :
    ∃ first rest, expr.render = first :: rest ∧ first.beginsExpression = true := by
  induction expr using Expr.structural with
  | integer value position => exact ⟨_, _, rfl, rfl⟩
  | real value position => exact ⟨_, _, rfl, rfl⟩
  | text value position => exact ⟨_, _, rfl, rfl⟩
  | boolean value position => cases value <;> exact ⟨_, _, rfl, rfl⟩
  | name label position => exact ⟨_, _, rfl, rfl⟩
  | binary operator left right position leftIH rightIH =>
      obtain ⟨first, rest, shape, begins⟩ :=
        exists_cons_placed operator.level.strength left.strength leftIH
      exact ⟨first, _, by rw [Expr.render, shape]; rfl, begins⟩
  | record entries position entriesIH => exact ⟨_, _, rfl, rfl⟩
  | access object key position objectIH =>
      obtain ⟨first, rest, shape, begins⟩ :=
        exists_cons_placed atomStrength object.strength objectIH
      exact ⟨first, _, by rw [Expr.render, shape]; rfl, begins⟩
  | list items position itemsIH => exact ⟨_, _, rfl, rfl⟩
  | call callee arguments position argumentsIH => exact ⟨_, _, rfl, rfl⟩
  | pipe left right position leftIH rightIH =>
      obtain ⟨first, rest, shape, begins⟩ :=
        exists_cons_placed Level.pipeline.strength left.strength leftIH
      exact ⟨first, _, by rw [Expr.render, shape]; rfl, begins⟩

theorem Expr.length_render_pos (expr : Expr) : 0 < expr.render.length := by
  obtain ⟨first, rest, shape, _⟩ := expr.exists_cons_render
  rw [shape]
  exact Nat.succ_pos _

/-- No statement begins with the end of input or with a closing symbol. -/
theorem Statement.exists_cons_render (statement : Statement) :
    ∃ first rest, statement.render = first :: rest ∧ first ≠ .endOfInput ∧
      ∀ mark : Symbol, mark.closes = true → first ≠ .symbol mark := by
  cases statement with
  | expression value position =>
      obtain ⟨first, rest, shape, begins⟩ := value.exists_cons_render
      refine ⟨first, rest ++ [.symbol .semicolon], by rw [Statement.render, shape]; rfl, ?_, ?_⟩
      · rintro rfl
        cases begins
      · rintro mark closes rfl
        cases mark <;> first | exact absurd closes (by decide) | exact absurd begins (by decide)
  | _ => exact ⟨_, _, rfl, by simp, by simp⟩

theorem Statement.length_render_pos (statement : Statement) : 0 < statement.render.length := by
  obtain ⟨first, rest, shape, _⟩ := statement.exists_cons_render
  rw [shape]
  exact Nat.succ_pos _

/-!
## Lengths

A part is no longer than the whole, and a sequence has no more parts than tokens.
-/

@[simp] theorem length_parenthesized (tokens : List Token) :
    (parenthesized tokens).length = tokens.length + 2 := by
  simp [parenthesized]

theorem length_le_placed (needed actual : Nat) (tokens : List Token) :
    tokens.length ≤ (placed needed actual tokens).length := by
  unfold placed
  split
  · rw [length_parenthesized]
    exact Nat.le_add_right _ 2
  · exact Nat.le_refl _

theorem length_le_commaJoined {α : Type} {items : List α} (spell : α → List Token) {item : α}
    (member : item ∈ items) :
    (spell item).length ≤ (commaJoined (items.map spell)).length := by
  induction items with
  | nil => cases member
  | cons first rest ih =>
      cases rest with
      | nil =>
          obtain rfl := List.mem_singleton.mp member
          exact Nat.le_refl _
      | cons second rest =>
          simp only [List.map_cons, commaJoined, List.length_append, List.length_cons] at ih ⊢
          rcases List.mem_cons.mp member with rfl | later
          · omega
          · have bound := ih later
            omega

theorem length_le_length_commaJoined {α : Type} {items : List α} {spell : α → List Token}
    (nonempty : ∀ item ∈ items, 0 < (spell item).length) :
    items.length ≤ (commaJoined (items.map spell)).length := by
  induction items with
  | nil => exact Nat.le_refl _
  | cons first rest ih =>
      obtain ⟨head, tail⟩ := List.forall_mem_cons.mp nonempty
      cases rest with
      | nil => exact head
      | cons second rest =>
          have bound := ih tail
          simp only [List.map_cons, commaJoined, List.length_append, List.length_cons] at bound ⊢
          omega

theorem length_le_flatMap {α : Type} {items : List α} (spell : α → List Token) {item : α}
    (member : item ∈ items) : (spell item).length ≤ (items.flatMap spell).length := by
  induction items with
  | nil => cases member
  | cons first rest ih =>
      rw [List.flatMap_cons, List.length_append]
      rcases List.mem_cons.mp member with rfl | later
      · omega
      · have bound := ih later
        omega

theorem length_le_length_flatMap {α : Type} {items : List α} {spell : α → List Token}
    (nonempty : ∀ item ∈ items, 0 < (spell item).length) :
    items.length ≤ (items.flatMap spell).length := by
  induction items with
  | nil => exact Nat.le_refl _
  | cons first rest ih =>
      obtain ⟨head, tail⟩ := List.forall_mem_cons.mp nonempty
      have bound := ih tail
      rw [List.flatMap_cons, List.length_append, List.length_cons]
      omega

end WindowScript
