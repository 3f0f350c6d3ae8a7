import WindowScript.Program.Statement

/-!
# Moving the positions of a program

A program keeps its shape when its positions are replaced by their images under a
map. Two programs are the same up to positions when they agree once every position
has been replaced by that of no character.
-/

set_option autoImplicit false

namespace WindowScript

/-- Induction over expressions, with one hypothesis for each expression that a node
holds, at whatever place of a list. -/
theorem Expr.structural {motive : Expr → Prop}
    (integer : ∀ value position, motive (.integer value position))
    (real : ∀ value position, motive (.real value position))
    (text : ∀ value position, motive (.text value position))
    (boolean : ∀ value position, motive (.boolean value position))
    (name : ∀ name position, motive (.name name position))
    (binary : ∀ operator left right position, motive left → motive right →
      motive (.binary operator left right position))
    (record : ∀ entries position, (∀ entry ∈ entries, motive entry.2) →
      motive (.record entries position))
    (access : ∀ object key position, motive object → motive (.access object key position))
    (list : ∀ items position, (∀ item ∈ items, motive item) → motive (.list items position))
    (call : ∀ callee arguments position, (∀ argument ∈ arguments, motive argument) →
      motive (.call callee arguments position))
    (pipe : ∀ left right position, motive left → motive right →
      motive (.pipe left right position)) :
    ∀ expr, motive expr :=
  @Expr.rec motive (fun entries => ∀ entry ∈ entries, motive entry.2)
    (fun items => ∀ item ∈ items, motive item) (fun entry => motive entry.2)
    integer real text boolean name binary record access list call pipe
    (by simp)
    (fun _ _ head tail => List.forall_mem_cons.mpr ⟨head, tail⟩)
    (by simp)
    (fun _ _ head tail => List.forall_mem_cons.mpr ⟨head, tail⟩)
    (fun _ _ value => value)

/-- Induction over statements, with one hypothesis for each statement of a body. -/
theorem Statement.structural {motive : Statement → Prop}
    (binding : ∀ name value position, motive (.binding name value position))
    (function : ∀ name parameters body position, (∀ statement ∈ body, motive statement) →
      motive (.function name parameters body position))
    (returning : ∀ value position, motive (.returning value position))
    (gui : ∀ gui, motive (.gui gui))
    (expression : ∀ value position, motive (.expression value position)) :
    ∀ statement, motive statement :=
  @Statement.rec motive (fun body => ∀ statement ∈ body, motive statement)
    binding function returning gui expression
    (by simp)
    (fun _ _ head tail => List.forall_mem_cons.mpr ⟨head, tail⟩)

/-!
## Relocation
-/

mutual

/-- An expression with every position replaced by its image. -/
def Expr.relocate (move : Position → Position) : Expr → Expr
  | .integer value position => .integer value (move position)
  | .real value position => .real value (move position)
  | .text value position => .text value (move position)
  | .boolean value position => .boolean value (move position)
  | .name label position => .name label (move position)
  | .binary operator left right position =>
      .binary operator (left.relocate move) (right.relocate move) (move position)
  | .record entries position => .record (Expr.relocateEntries move entries) (move position)
  | .access object key position => .access (object.relocate move) key (move position)
  | .list items position => .list (Expr.relocateItems move items) (move position)
  | .call callee arguments position =>
      .call callee (Expr.relocateItems move arguments) (move position)
  | .pipe left right position =>
      .pipe (left.relocate move) (right.relocate move) (move position)

def Expr.relocateItems (move : Position → Position) : List Expr → List Expr
  | [] => []
  | item :: rest => item.relocate move :: Expr.relocateItems move rest

def Expr.relocateEntries (move : Position → Position) :
    List (String × Expr) → List (String × Expr)
  | [] => []
  | (key, value) :: rest => (key, value.relocate move) :: Expr.relocateEntries move rest

end

def Attributes.relocate (move : Position → Position) (attributes : Attributes) : Attributes :=
  attributes.map (Prod.map id (Expr.relocate move))

def Widget.relocate (move : Position → Position) (widget : Widget) : Widget :=
  ⟨widget.kind, widget.attributes.relocate move, move widget.position⟩

def Window.relocate (move : Position → Position) (window : Window) : Window :=
  ⟨window.attributes.relocate move, window.children.map (Widget.relocate move),
    move window.position⟩

def Element.relocate (move : Position → Position) : Element → Element
  | .window part => .window (part.relocate move)
  | .widget part => .widget (part.relocate move)

def Gui.relocate (move : Position → Position) (gui : Gui) : Gui :=
  ⟨gui.name, gui.elements.map (Element.relocate move), move gui.position⟩

mutual

def Statement.relocate (move : Position → Position) : Statement → Statement
  | .binding name value position => .binding name (value.relocate move) (move position)
  | .function name parameters body position =>
      .function name parameters (Statement.relocateAll move body) (move position)
  | .returning value position => .returning (value.relocate move) (move position)
  | .gui description => .gui (description.relocate move)
  | .expression value position => .expression (value.relocate move) (move position)

def Statement.relocateAll (move : Position → Position) : List Statement → List Statement
  | [] => []
  | statement :: rest => statement.relocate move :: Statement.relocateAll move rest

end

def Program.relocate (move : Position → Position) (program : Program) : Program :=
  program.map (Statement.relocate move)

/-- A program without its positions. -/
def Program.unplaced (program : Program) : Program := program.relocate fun _ => .nowhere

@[simp] theorem Expr.relocateItems_eq (move : Position → Position) (items : List Expr) :
    Expr.relocateItems move items = items.map (Expr.relocate move) := by
  induction items with
  | nil => rfl
  | cons item rest ih => simp only [Expr.relocateItems, List.map_cons, ih]

@[simp] theorem Expr.relocateEntries_eq (move : Position → Position)
    (entries : List (String × Expr)) :
    Expr.relocateEntries move entries = Attributes.relocate move entries := by
  induction entries with
  | nil => rfl
  | cons entry rest ih =>
      obtain ⟨name, value⟩ := entry
      simp only [Expr.relocateEntries, ih, Attributes.relocate, List.map_cons, Prod.map_apply,
        id_eq]

@[simp] theorem Statement.relocateAll_eq (move : Position → Position) (body : List Statement) :
    Statement.relocateAll move body = body.map (Statement.relocate move) := by
  induction body with
  | nil => rfl
  | cons statement rest ih => simp only [Statement.relocateAll, List.map_cons, ih]

/-- Insertion looks at names only, so that it does not see the positions. -/
theorem Attributes.relocate_insert (move : Position → Position) (name : String) (value : Expr)
    (attributes : Attributes) :
    Attributes.relocate move (attributes.insert name value) =
      (Attributes.relocate move attributes).insert name (value.relocate move) := by
  induction attributes with
  | nil => rfl
  | cons entry rest ih =>
      obtain ⟨key, held⟩ := entry
      by_cases same : key = name
      · simp [Attributes.insert, Attributes.relocate, same]
      · simpa [Attributes.insert, Attributes.relocate, same] using ih

theorem Attributes.relocate_ofEntries (move : Position → Position)
    (entries : List (String × Expr)) :
    Attributes.relocate move (Attributes.ofEntries entries) =
      Attributes.ofEntries (Attributes.relocate move entries) := by
  -- The fold is followed from an arbitrary list that is already there.
  suffices folded : ∀ held : Attributes,
      Attributes.relocate move
          (entries.foldl (fun attributes entry => attributes.insert entry.1 entry.2) held) =
        (Attributes.relocate move entries).foldl
          (fun attributes entry => attributes.insert entry.1 entry.2)
          (Attributes.relocate move held) from folded []
  induction entries with
  | nil => intro held; rfl
  | cons entry rest ih =>
      intro held
      rw [List.foldl_cons, ih, Attributes.relocate_insert]
      rfl

/-!
## Moving twice
-/

section

variable (first second : Position → Position)

theorem Expr.relocate_relocate (item : Expr) :
    (item.relocate first).relocate second = item.relocate (second ∘ first) := by
  induction item using Expr.structural with
  | integer | real | text | boolean | name => rfl
  | binary operator left right position leftIH rightIH =>
      simp only [Expr.relocate, leftIH, rightIH, Function.comp_apply]
  | record entries position entriesIH =>
      simp only [Expr.relocate, Expr.relocateEntries_eq, Attributes.relocate, List.map_map,
        Expr.record.injEq, Function.comp_apply, and_true]
      exact List.map_congr_left fun entry member => Prod.ext rfl (entriesIH entry member)
  | access object key position objectIH =>
      simp only [Expr.relocate, objectIH, Function.comp_apply]
  | list items position itemsIH =>
      simp only [Expr.relocate, Expr.relocateItems_eq, List.map_map, Expr.list.injEq,
        Function.comp_apply, and_true]
      exact List.map_congr_left itemsIH
  | call callee arguments position argumentsIH =>
      simp only [Expr.relocate, Expr.relocateItems_eq, List.map_map, Expr.call.injEq,
        Function.comp_apply, and_true, true_and]
      exact List.map_congr_left argumentsIH
  | pipe left right position leftIH rightIH =>
      simp only [Expr.relocate, leftIH, rightIH, Function.comp_apply]

theorem Attributes.relocate_relocate (attributes : Attributes) :
    (attributes.relocate first).relocate second = attributes.relocate (second ∘ first) := by
  simp only [Attributes.relocate, List.map_map]
  exact List.map_congr_left fun entry _ =>
    Prod.ext rfl (Expr.relocate_relocate first second entry.2)

theorem Widget.relocate_relocate (widget : Widget) :
    (widget.relocate first).relocate second = widget.relocate (second ∘ first) := by
  simp only [Widget.relocate, Attributes.relocate_relocate, Function.comp_apply]

theorem Element.relocate_relocate (part : Element) :
    (part.relocate first).relocate second = part.relocate (second ∘ first) := by
  cases part with
  | widget widget => simp only [Element.relocate, Widget.relocate_relocate]
  | window window =>
      simp only [Element.relocate, Window.relocate, Attributes.relocate_relocate, List.map_map,
        Function.comp_def, Widget.relocate_relocate]

theorem Gui.relocate_relocate (described : Gui) :
    (described.relocate first).relocate second = described.relocate (second ∘ first) := by
  simp only [Gui.relocate, List.map_map, Function.comp_def, Element.relocate_relocate]

theorem Statement.relocate_relocate (statement : Statement) :
    (statement.relocate first).relocate second = statement.relocate (second ∘ first) := by
  induction statement using Statement.structural with
  | binding | returning | expression =>
      simp only [Statement.relocate, Expr.relocate_relocate, Function.comp_apply]
  | function name parameters body position bodyIH =>
      simp only [Statement.relocate, Statement.relocateAll_eq, List.map_map,
        Statement.function.injEq, Function.comp_apply, and_true, true_and]
      exact List.map_congr_left bodyIH
  | gui described => simp only [Statement.relocate, Gui.relocate_relocate]

end

/-!
## Moving nothing
-/

@[simp] theorem Expr.relocate_id (item : Expr) : item.relocate id = item := by
  induction item using Expr.structural with
  | integer | real | text | boolean | name => rfl
  | binary operator left right position leftIH rightIH => rw [relocate, leftIH, rightIH, id]
  | record entries position entriesIH =>
      rw [relocate, relocateEntries_eq, Attributes.relocate, id]
      have same : ∀ entry ∈ entries, Prod.map id (relocate id) entry = entry :=
        fun entry member => Prod.ext rfl (entriesIH entry member)
      rw [List.map_congr_left same, List.map_id']
  | access object key position objectIH => rw [relocate, objectIH, id]
  | list items position itemsIH =>
      rw [relocate, relocateItems_eq, List.map_congr_left itemsIH, List.map_id', id]
  | call callee arguments position argumentsIH =>
      rw [relocate, relocateItems_eq, List.map_congr_left argumentsIH, List.map_id', id]
  | pipe left right position leftIH rightIH => rw [relocate, leftIH, rightIH, id]

@[simp] theorem Attributes.relocate_id (attributes : Attributes) :
    attributes.relocate id = attributes := by
  have same : ∀ entry ∈ attributes, Prod.map id (Expr.relocate id) entry = entry :=
    fun entry _ => Prod.ext rfl entry.2.relocate_id
  rw [relocate, List.map_congr_left same, List.map_id']

@[simp] theorem Widget.relocate_id (widget : Widget) : widget.relocate id = widget := by
  rw [relocate, Attributes.relocate_id, id]

@[simp] theorem Element.relocate_id (part : Element) : part.relocate id = part := by
  cases part with
  | widget widget => rw [relocate, Widget.relocate_id]
  | window window =>
      rw [relocate, Window.relocate, Attributes.relocate_id, id,
        List.map_congr_left fun child _ => child.relocate_id, List.map_id']

@[simp] theorem Gui.relocate_id (described : Gui) : described.relocate id = described := by
  rw [relocate, id, List.map_congr_left fun part _ => part.relocate_id, List.map_id']

@[simp] theorem Statement.relocate_id (statement : Statement) :
    statement.relocate id = statement := by
  induction statement using Statement.structural with
  | binding | returning | expression => rw [relocate, Expr.relocate_id, id]
  | function name parameters body position bodyIH =>
      rw [relocate, relocateAll_eq, List.map_congr_left bodyIH, List.map_id', id]
  | gui described => rw [relocate, Gui.relocate_id]

@[simp] theorem Program.unplaced_relocate (move : Position → Position) (program : Program) :
    (program.relocate move).unplaced = program.unplaced := by
  simp only [Program.unplaced, Program.relocate, List.map_map]
  exact List.map_congr_left fun statement _ => Statement.relocate_relocate move _ statement

end WindowScript
