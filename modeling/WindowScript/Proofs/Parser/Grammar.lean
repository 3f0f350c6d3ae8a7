import WindowScript.Program.Statement
import WindowScript.Token.Basic

/-!
# The grammar

Derivations of programs from placed tokens. A derivation says which tokens a phrase
consists of, in order, and which node of a program it stands for. Every node carries
the position of one of its tokens: literals and names that of their only token, operators,
pipes and attribute reads that of their symbol, calls that of the name they call, records
and lists that of their opening delimiter, statements, windows and widgets that of their
word, and an expression that is a statement that of its first token.
-/

set_option autoImplicit false

namespace WindowScript.Grammar

/-- Phrases of one kind, one behind the other. -/
inductive Repeated {α : Type} (Item : List PlacedToken → α → Prop) :
    List PlacedToken → List α → Prop where
  | none : Repeated Item [] []
  | more {tokens rest : List PlacedToken} {item : α} {items : List α} :
      Item tokens item → Repeated Item rest items → Repeated Item (tokens ++ rest) (item :: items)

/-- Phrases of one kind with commas between them. A comma may stand behind the last. -/
inductive Separated {α : Type} (Item : List PlacedToken → α → Prop) :
    List PlacedToken → List α → Prop where
  | none : Separated Item [] []
  | last {tokens : List PlacedToken} {item : α} :
      Item tokens item → Separated Item tokens [item]
  | more {tokens rest : List PlacedToken} {item : α} {items : List α} {comma : Position} :
      Item tokens item → Separated Item rest items →
      Separated Item (tokens ++ (.symbol .comma, comma) :: rest) (item :: items)

/-- One semicolon or none. -/
inductive Ending : List PlacedToken → Prop where
  | absent : Ending []
  | semicolon (position : Position) : Ending [(.symbol .semicolon, position)]

/-- One entry of a record: `word "=" expression ";"?`. -/
inductive Entry (Value : List PlacedToken → Expr → Prop) :
    List PlacedToken → String × Expr → Prop where
  | entry {word : Token} {name : String} {start sign : Position} {tokens ending : List PlacedToken}
      {value : Expr} :
      word.word? = some name → Value tokens value → Ending ending →
      Entry Value ((word, start) :: (.symbol .assign, sign) :: tokens ++ ending) (name, value)

/-- The kinds of expressions, from the loosest. -/
inductive Nonterminal where
  | pipe | equality | additive | multiplicative | applied | primary
deriving DecidableEq, Repr

/-- An operator of one kind of expression, the kind of its right side, and the node that it
makes of both sides. -/
inductive Joins :
    Nonterminal → Symbol → Nonterminal → (Expr → Expr → Position → Expr) → Prop where
  | pipe : Joins .pipe .pipe .equality .pipe
  | equal : Joins .equality .equals .additive (.binary .equal)
  | add : Joins .additive .plus .multiplicative (.binary .add)
  | sub : Joins .additive .minus .multiplicative (.binary .sub)
  | mul : Joins .multiplicative .star .applied (.binary .mul)
  | div : Joins .multiplicative .slash .applied (.binary .div)

/-- An expression of the tighter kind is one of the looser kind too. -/
inductive Loosens : Nonterminal → Nonterminal → Prop where
  | pipe : Loosens .pipe .equality
  | equality : Loosens .equality .additive
  | additive : Loosens .additive .multiplicative
  | multiplicative : Loosens .multiplicative .applied
  | applied : Loosens .applied .primary

/-- The attributes that a sequence of insertions leaves, from the first to the last. -/
def collected (entries : List (String × Expr)) : Attributes :=
  entries.foldl (fun attributes entry => attributes.insert entry.1 entry.2) []

/-- The expressions of each kind. -/
inductive Derives : Nonterminal → List PlacedToken → Expr → Prop where
  | operand {looser tighter : Nonterminal} {tokens : List PlacedToken} {expr : Expr} :
      Loosens looser tighter → Derives tighter tokens expr → Derives looser tokens expr
  | joined {looser tighter : Nonterminal} {mark : Symbol}
      {join : Expr → Expr → Position → Expr} {leftTokens rightTokens : List PlacedToken}
      {left right : Expr} {position : Position} :
      Joins looser mark tighter join → Derives looser leftTokens left →
      Derives tighter rightTokens right →
      Derives looser (leftTokens ++ (.symbol mark, position) :: rightTokens)
        (join left right position)
  | access {tokens : List PlacedToken} {object : Expr} {word : Token} {key : String}
      {position start : Position} :
      Derives .applied tokens object → word.word? = some key →
      Derives .applied (tokens ++ [(.symbol .dot, position), (word, start)])
        (.access object key position)
  | call {tokens inner : List PlacedToken} {callee : String} {arguments : List Expr}
      {origin opening closing : Position} :
      Derives .applied tokens (.name callee origin) →
      Separated (Derives .pipe) inner arguments →
      Derives .applied
        (tokens ++ (.symbol .openRound, opening) :: inner ++ [(.symbol .closeRound, closing)])
        (.call callee arguments origin)
  | integer (value : Integer) (position : Position) :
      Derives .primary [(.integer value, position)] (.integer value position)
  | real (value : Float) (position : Position) :
      Derives .primary [(.real value, position)] (.real value position)
  | text (value : String) (position : Position) :
      Derives .primary [(.text value, position)] (.text value position)
  | yes (position : Position) :
      Derives .primary [(.keyword .trueWord, position)] (.boolean true position)
  | no (position : Position) :
      Derives .primary [(.keyword .falseWord, position)] (.boolean false position)
  | name (label : String) (position : Position) :
      Derives .primary [(.identifier label, position)] (.name label position)
  | group {inner : List PlacedToken} {expr : Expr} {opening closing : Position} :
      Derives .pipe inner expr →
      Derives .primary
        ((.symbol .openRound, opening) :: inner ++ [(.symbol .closeRound, closing)]) expr
  | record {inner : List PlacedToken} {entries : List (String × Expr)}
      {opening closing : Position} :
      Repeated (Entry (Derives .pipe)) inner entries →
      Derives .primary
        ((.symbol .openCurly, opening) :: inner ++ [(.symbol .closeCurly, closing)])
        (.record (collected entries) opening)
  | list {inner : List PlacedToken} {items : List Expr} {opening closing : Position} :
      Separated (Derives .pipe) inner items →
      Derives .primary
        ((.symbol .openSquare, opening) :: inner ++ [(.symbol .closeSquare, closing)])
        (.list items opening)

/-- Every expression has a first token. -/
theorem Derives.ne_nil {kind : Nonterminal} {tokens : List PlacedToken} {expr : Expr}
    (derived : Derives kind tokens expr) : tokens ≠ [] := by
  -- Nothing is asked of the sequences inside an expression, which stand between delimiters.
  refine @Derives.rec (fun _ tokens _ _ => tokens ≠ []) (fun _ _ _ => True) (fun _ _ _ => True)
    (fun _ _ _ => True) (fun _ _ nonempty => nonempty) ?_ ?_ ?_ ?_ ?_ ?_ ?_ ?_ ?_ ?_ ?_ ?_ ?_ ?_
    ?_ ?_ ?_ ?_ kind tokens expr derived
  all_goals simp

inductive Parameter : List PlacedToken → String → Prop where
  | parameter (name : String) (position : Position) :
      Parameter [(.identifier name, position)] name

/-- One attribute of a window or widget: `word ":" expression`. -/
inductive Attribute : List PlacedToken → String × Expr → Prop where
  | attribute {word : Token} {name : String} {start colon : Position}
      {tokens : List PlacedToken} {value : Expr} :
      word.word? = some name → Derives .pipe tokens value →
      Attribute ((word, start) :: (.symbol .colon, colon) :: tokens) (name, value)

inductive AttributeList : List PlacedToken → Attributes → Prop where
  | attributes {inner : List PlacedToken} {entries : List (String × Expr)}
      {opening closing : Position} :
      Separated Attribute inner entries →
      AttributeList ((.symbol .openRound, opening) :: inner ++ [(.symbol .closeRound, closing)])
        (collected entries)

inductive DerivesWidget : List PlacedToken → Widget → Prop where
  | widget {kind : String} {position : Position} {tokens ending : List PlacedToken}
      {attributes : Attributes} :
      AttributeList tokens attributes → Ending ending →
      DerivesWidget ((.widget kind, position) :: tokens ++ ending) ⟨kind, attributes, position⟩

inductive DerivesElement : List PlacedToken → Element → Prop where
  | window {position opening closing : Position} {tokens inner : List PlacedToken}
      {attributes : Attributes} {children : List Widget} :
      AttributeList tokens attributes → Repeated DerivesWidget inner children →
      DerivesElement
        ((.keyword .window, position) :: tokens ++ (.symbol .openCurly, opening) :: inner ++
          [(.symbol .closeCurly, closing)])
        (.window ⟨attributes, children, position⟩)
  | widget {tokens : List PlacedToken} {widget : Widget} :
      DerivesWidget tokens widget → DerivesElement tokens (.widget widget)

/-- The statements, each with the semicolon that may end it. -/
inductive DerivesStatement : List PlacedToken → Statement → Prop where
  | binding {name : String} {position start sign : Position} {tokens ending : List PlacedToken}
      {value : Expr} :
      Derives .pipe tokens value → Ending ending →
      DerivesStatement
        ((.keyword .letWord, position) :: (.identifier name, start) :: (.symbol .assign, sign) ::
          tokens ++ ending)
        (.binding name value position)
  | function {name : String} {parameters : List String} {body : List Statement}
      {position start opening closing bodyOpening bodyClosing : Position}
      {heading inner ending : List PlacedToken} :
      Separated Parameter heading parameters → Repeated DerivesStatement inner body →
      Ending ending →
      DerivesStatement
        ((.keyword .func, position) :: (.identifier name, start) :: (.symbol .openRound, opening) ::
          heading ++ (.symbol .closeRound, closing) :: (.symbol .openCurly, bodyOpening) ::
          inner ++ [(.symbol .closeCurly, bodyClosing)] ++ ending)
        (.function name parameters body position)
  | gui {name : String} {elements : List Element} {position start opening closing : Position}
      {inner ending : List PlacedToken} :
      Repeated DerivesElement inner elements → Ending ending →
      DerivesStatement
        ((.keyword .gui, position) :: (.identifier name, start) :: (.symbol .openCurly, opening) ::
          inner ++ [(.symbol .closeCurly, closing)] ++ ending)
        (.gui ⟨name, elements, position⟩)
  | returning {position : Position} {tokens ending : List PlacedToken} {value : Expr} :
      Derives .pipe tokens value → Ending ending →
      DerivesStatement ((.keyword .returnWord, position) :: tokens ++ ending)
        (.returning value position)
  | expression {first : Token} {position : Position} {tokens ending : List PlacedToken}
      {value : Expr} :
      Derives .pipe ((first, position) :: tokens) value → Ending ending →
      DerivesStatement ((first, position) :: tokens ++ ending) (.expression value position)

theorem DerivesStatement.ne_nil {tokens : List PlacedToken} {statement : Statement}
    (derived : DerivesStatement tokens statement) : tokens ≠ [] := by
  cases derived <;> simp

end WindowScript.Grammar
