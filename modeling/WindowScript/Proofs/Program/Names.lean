import WindowScript.Proofs.Program.Vocabulary

/-!
# The names of a program

An expression reads a name where it looks it up, whether as a variable or as what is to be
called. A program uses the names that its expressions read and those that its statements bind.
-/

set_option autoImplicit false

namespace WindowScript

/-- The name that an expression looks up itself. -/
def Expr.looksUp? : Expr → Option String
  | .name label _ | .call label _ _ => some label
  | _ => none

/-- Whether a name is looked up at some place of an expression. -/
def Expr.Reads (whole : Expr) (label : String) : Prop :=
  ∃ part : Expr, part.Part whole ∧ part.looksUp? = some label

/-- Whether a statement binds a name, for itself or in the body of a function. -/
inductive Statement.Binds (label : String) : Statement → Prop where
  | binding {value position} : Binds label (.binding label value position)
  | function {parameters body position} : Binds label (.function label parameters body position)
  | parameter {callee parameters body position} :
      label ∈ parameters → Binds label (.function callee parameters body position)
  | body {callee parameters body position statement} :
      statement ∈ body → Binds label statement →
      Binds label (.function callee parameters body position)
  | gui {described : Gui} : described.name = label → Binds label (.gui described)

namespace Program

def Binds (program : Program) (label : String) : Prop :=
  ∃ statement ∈ program, Statement.Binds label statement

def Reads (program : Program) (label : String) : Prop :=
  ∃ item, program.Mentions item ∧ item.looksUp? = some label

end Program

theorem Expr.Part.child {child whole : Expr} (member : child ∈ whole.children) : child.Part whole :=
  .inside member (.self child)

theorem Expr.Part.trans {part middle whole : Expr} (inner : part.Part middle)
    (outer : middle.Part whole) : part.Part whole := by
  induction outer with
  | self => exact inner
  | inside member _ ih => exact .inside member ih

theorem Expr.Reads.part {part whole : Expr} {label : String} (reads : part.Reads label)
    (inside : part.Part whole) : whole.Reads label := by
  obtain ⟨reader, within, looksUp⟩ := reads
  exact ⟨reader, within.trans inside, looksUp⟩

theorem Expr.Reads.self {item : Expr} {label : String} (looksUp : item.looksUp? = some label) :
    item.Reads label := ⟨item, .self item, looksUp⟩

/-!
## Names are identifiers
-/

private theorem Expr.MadeOf.looksUp {item : Expr} (made : item.MadeOf Token.Spelled)
    {label : String} (looksUp : item.looksUp? = some label) : (Token.identifier label).Spelled := by
  cases made with
  | name spelled => cases looksUp; exact spelled
  | call spelled => cases looksUp; exact spelled
  | _ => cases looksUp

private theorem Statement.MadeOf.binds {statement : Statement} {label : String}
    (binds : Statement.Binds label statement) (made : statement.MadeOf Token.Spelled) :
    (Token.identifier label).Spelled := by
  induction binds with
  | binding => cases made with | binding spelled _ => exact spelled
  | function => cases made with | function spelled _ _ => exact spelled
  | parameter member => cases made with | function _ parameters _ => exact parameters label member
  | body member _ ih => cases made with | function _ _ body => exact ih (body _ member)
  | gui same => cases made with | gui spelled _ => exact same ▸ spelled

end WindowScript
