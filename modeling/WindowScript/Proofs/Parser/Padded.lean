import WindowScript.Proofs.Parser.Grammar

/-!
# The grammar with further separators

A semicolon may stand behind a statement, an entry of a record or a widget, and a comma behind
the last item between delimiters. Here the phrases of the grammar are paired with themselves and
any number of these separators added, each where it may stand and does not stand yet. The added
tokens are at any position.
-/

set_option autoImplicit false

namespace WindowScript

namespace Grammar.Padded

/-!
Each relation is between the tokens of a phrase, the same tokens with any number of optional
separators added to them, and the node that both stand for.
-/

inductive Ending : List PlacedToken → List PlacedToken → Prop where
  | same {ending : List PlacedToken} : Grammar.Ending ending → Ending ending ending
  | added (position : Position) : Ending [] [(.symbol .semicolon, position)]

inductive Repeated {α : Type} (Item : List PlacedToken → List PlacedToken → α → Prop) :
    List PlacedToken → List PlacedToken → List α → Prop where
  | none : Repeated Item [] [] []
  | more {tokens padded rest paddedRest : List PlacedToken} {item : α} {items : List α} :
      Item tokens padded item → Repeated Item rest paddedRest items →
      Repeated Item (tokens ++ rest) (padded ++ paddedRest) (item :: items)

inductive Separated {α : Type} (Item : List PlacedToken → List PlacedToken → α → Prop) :
    List PlacedToken → List PlacedToken → List α → Prop where
  | none : Separated Item [] [] []
  | last {tokens padded : List PlacedToken} {item : α} :
      Item tokens padded item → Separated Item tokens padded [item]
  | added {tokens padded : List PlacedToken} {item : α} (comma : Position) :
      Item tokens padded item → Separated Item tokens (padded ++ [(.symbol .comma, comma)]) [item]
  | more {tokens padded rest paddedRest : List PlacedToken} {item : α} {items : List α}
      {comma : Position} :
      Item tokens padded item → Separated Item rest paddedRest items →
      Separated Item (tokens ++ (.symbol .comma, comma) :: rest)
        (padded ++ (.symbol .comma, comma) :: paddedRest) (item :: items)

inductive Entry (Value : List PlacedToken → List PlacedToken → Expr → Prop) :
    List PlacedToken → List PlacedToken → String × Expr → Prop where
  | entry {word : Token} {name : String} {start sign : Position}
      {tokens padded ending paddedEnding : List PlacedToken} {value : Expr} :
      word.word? = some name → Value tokens padded value → Ending ending paddedEnding →
      Entry Value ((word, start) :: (.symbol .assign, sign) :: tokens ++ ending)
        ((word, start) :: (.symbol .assign, sign) :: padded ++ paddedEnding) (name, value)

inductive Derives : Nonterminal → List PlacedToken → List PlacedToken → Expr → Prop where
  | operand {looser tighter : Nonterminal} {tokens padded : List PlacedToken} {expr : Expr} :
      Loosens looser tighter → Derives tighter tokens padded expr →
      Derives looser tokens padded expr
  | joined {looser tighter : Nonterminal} {mark : Symbol}
      {join : Expr → Expr → Position → Expr}
      {leftTokens leftPadded rightTokens rightPadded : List PlacedToken} {left right : Expr}
      {position : Position} :
      Joins looser mark tighter join → Derives looser leftTokens leftPadded left →
      Derives tighter rightTokens rightPadded right →
      Derives looser (leftTokens ++ (.symbol mark, position) :: rightTokens)
        (leftPadded ++ (.symbol mark, position) :: rightPadded) (join left right position)
  | access {tokens padded : List PlacedToken} {object : Expr} {word : Token} {key : String}
      {position start : Position} :
      Derives .applied tokens padded object → word.word? = some key →
      Derives .applied (tokens ++ [(.symbol .dot, position), (word, start)])
        (padded ++ [(.symbol .dot, position), (word, start)]) (.access object key position)
  | call {tokens padded inner paddedInner : List PlacedToken} {callee : String}
      {arguments : List Expr} {origin opening closing : Position} :
      Derives .applied tokens padded (.name callee origin) →
      Separated (Derives .pipe) inner paddedInner arguments →
      Derives .applied
        (tokens ++ (.symbol .openRound, opening) :: inner ++ [(.symbol .closeRound, closing)])
        (padded ++ (.symbol .openRound, opening) :: paddedInner ++ [(.symbol .closeRound, closing)])
        (.call callee arguments origin)
  | integer (value : Integer) (position : Position) :
      Derives .primary [(.integer value, position)] [(.integer value, position)]
        (.integer value position)
  | real (value : Float) (position : Position) :
      Derives .primary [(.real value, position)] [(.real value, position)] (.real value position)
  | text (value : String) (position : Position) :
      Derives .primary [(.text value, position)] [(.text value, position)] (.text value position)
  | yes (position : Position) :
      Derives .primary [(.keyword .trueWord, position)] [(.keyword .trueWord, position)]
        (.boolean true position)
  | no (position : Position) :
      Derives .primary [(.keyword .falseWord, position)] [(.keyword .falseWord, position)]
        (.boolean false position)
  | name (label : String) (position : Position) :
      Derives .primary [(.identifier label, position)] [(.identifier label, position)]
        (.name label position)
  | group {inner paddedInner : List PlacedToken} {expr : Expr} {opening closing : Position} :
      Derives .pipe inner paddedInner expr →
      Derives .primary
        ((.symbol .openRound, opening) :: inner ++ [(.symbol .closeRound, closing)])
        ((.symbol .openRound, opening) :: paddedInner ++ [(.symbol .closeRound, closing)]) expr
  | record {inner paddedInner : List PlacedToken} {entries : List (String × Expr)}
      {opening closing : Position} :
      Repeated (Entry (Derives .pipe)) inner paddedInner entries →
      Derives .primary
        ((.symbol .openCurly, opening) :: inner ++ [(.symbol .closeCurly, closing)])
        ((.symbol .openCurly, opening) :: paddedInner ++ [(.symbol .closeCurly, closing)])
        (.record (collected entries) opening)
  | list {inner paddedInner : List PlacedToken} {items : List Expr} {opening closing : Position} :
      Separated (Derives .pipe) inner paddedInner items →
      Derives .primary
        ((.symbol .openSquare, opening) :: inner ++ [(.symbol .closeSquare, closing)])
        ((.symbol .openSquare, opening) :: paddedInner ++ [(.symbol .closeSquare, closing)])
        (.list items opening)

inductive Parameter : List PlacedToken → List PlacedToken → String → Prop where
  | parameter (name : String) (position : Position) :
      Parameter [(.identifier name, position)] [(.identifier name, position)] name

inductive Attribute : List PlacedToken → List PlacedToken → String × Expr → Prop where
  | attribute {word : Token} {name : String} {start colon : Position}
      {tokens padded : List PlacedToken} {value : Expr} :
      word.word? = some name → Derives .pipe tokens padded value →
      Attribute ((word, start) :: (.symbol .colon, colon) :: tokens)
        ((word, start) :: (.symbol .colon, colon) :: padded) (name, value)

inductive AttributeList : List PlacedToken → List PlacedToken → Attributes → Prop where
  | attributes {inner paddedInner : List PlacedToken} {entries : List (String × Expr)}
      {opening closing : Position} :
      Separated Attribute inner paddedInner entries →
      AttributeList ((.symbol .openRound, opening) :: inner ++ [(.symbol .closeRound, closing)])
        ((.symbol .openRound, opening) :: paddedInner ++ [(.symbol .closeRound, closing)])
        (collected entries)

inductive DerivesWidget : List PlacedToken → List PlacedToken → Widget → Prop where
  | widget {kind : String} {position : Position}
      {tokens padded ending paddedEnding : List PlacedToken} {attributes : Attributes} :
      AttributeList tokens padded attributes → Ending ending paddedEnding →
      DerivesWidget ((.widget kind, position) :: tokens ++ ending)
        ((.widget kind, position) :: padded ++ paddedEnding) ⟨kind, attributes, position⟩

inductive DerivesElement : List PlacedToken → List PlacedToken → Element → Prop where
  | window {position opening closing : Position}
      {tokens padded inner paddedInner : List PlacedToken} {attributes : Attributes}
      {children : List Widget} :
      AttributeList tokens padded attributes → Repeated DerivesWidget inner paddedInner children →
      DerivesElement
        ((.keyword .window, position) :: tokens ++ (.symbol .openCurly, opening) :: inner ++
          [(.symbol .closeCurly, closing)])
        ((.keyword .window, position) :: padded ++ (.symbol .openCurly, opening) :: paddedInner ++
          [(.symbol .closeCurly, closing)])
        (.window ⟨attributes, children, position⟩)
  | widget {tokens padded : List PlacedToken} {widget : Widget} :
      DerivesWidget tokens padded widget → DerivesElement tokens padded (.widget widget)

inductive DerivesStatement : List PlacedToken → List PlacedToken → Statement → Prop where
  | binding {name : String} {position start sign : Position}
      {tokens padded ending paddedEnding : List PlacedToken} {value : Expr} :
      Derives .pipe tokens padded value → Ending ending paddedEnding →
      DerivesStatement
        ((.keyword .letWord, position) :: (.identifier name, start) :: (.symbol .assign, sign) ::
          tokens ++ ending)
        ((.keyword .letWord, position) :: (.identifier name, start) :: (.symbol .assign, sign) ::
          padded ++ paddedEnding)
        (.binding name value position)
  | function {name : String} {parameters : List String} {body : List Statement}
      {position start opening closing bodyOpening bodyClosing : Position}
      {heading paddedHeading inner paddedInner ending paddedEnding : List PlacedToken} :
      Separated Parameter heading paddedHeading parameters →
      Repeated DerivesStatement inner paddedInner body → Ending ending paddedEnding →
      DerivesStatement
        ((.keyword .func, position) :: (.identifier name, start) :: (.symbol .openRound, opening) ::
          heading ++ (.symbol .closeRound, closing) :: (.symbol .openCurly, bodyOpening) ::
          inner ++ [(.symbol .closeCurly, bodyClosing)] ++ ending)
        ((.keyword .func, position) :: (.identifier name, start) :: (.symbol .openRound, opening) ::
          paddedHeading ++ (.symbol .closeRound, closing) :: (.symbol .openCurly, bodyOpening) ::
          paddedInner ++ [(.symbol .closeCurly, bodyClosing)] ++ paddedEnding)
        (.function name parameters body position)
  | gui {name : String} {elements : List Element} {position start opening closing : Position}
      {inner paddedInner ending paddedEnding : List PlacedToken} :
      Repeated DerivesElement inner paddedInner elements → Ending ending paddedEnding →
      DerivesStatement
        ((.keyword .gui, position) :: (.identifier name, start) :: (.symbol .openCurly, opening) ::
          inner ++ [(.symbol .closeCurly, closing)] ++ ending)
        ((.keyword .gui, position) :: (.identifier name, start) :: (.symbol .openCurly, opening) ::
          paddedInner ++ [(.symbol .closeCurly, closing)] ++ paddedEnding)
        (.gui ⟨name, elements, position⟩)
  | returning {position : Position} {tokens padded ending paddedEnding : List PlacedToken}
      {value : Expr} :
      Derives .pipe tokens padded value → Ending ending paddedEnding →
      DerivesStatement ((.keyword .returnWord, position) :: tokens ++ ending)
        ((.keyword .returnWord, position) :: padded ++ paddedEnding) (.returning value position)
  | expression {first : Token} {position : Position}
      {tokens padded ending paddedEnding : List PlacedToken} {value : Expr} :
      Derives .pipe ((first, position) :: tokens) ((first, position) :: padded) value →
      Ending ending paddedEnding →
      DerivesStatement ((first, position) :: tokens ++ ending)
        ((first, position) :: padded ++ paddedEnding) (.expression value position)

/-- Induction over statements, with one hypothesis for each statement of a body. -/
@[elab_as_elim]
theorem DerivesStatement.structural
    {motive : List PlacedToken → List PlacedToken → Statement → Prop}
    {tokens padded : List PlacedToken} {statement : Statement}
    (derived : DerivesStatement tokens padded statement)
    (binding : ∀ {name tokens padded ending paddedEnding value} position start sign,
      Derives .pipe tokens padded value → Ending ending paddedEnding →
      motive
        ((.keyword .letWord, position) :: (.identifier name, start) :: (.symbol .assign, sign) ::
          tokens ++ ending)
        ((.keyword .letWord, position) :: (.identifier name, start) :: (.symbol .assign, sign) ::
          padded ++ paddedEnding)
        (.binding name value position))
    (function : ∀ {name parameters body heading paddedHeading inner paddedInner ending paddedEnding}
      position start opening closing bodyOpening bodyClosing,
      Separated Parameter heading paddedHeading parameters →
      Repeated (fun tokens padded one => DerivesStatement tokens padded one ∧
        motive tokens padded one) inner paddedInner body →
      Ending ending paddedEnding →
      motive
        ((.keyword .func, position) :: (.identifier name, start) :: (.symbol .openRound, opening) ::
          heading ++ (.symbol .closeRound, closing) :: (.symbol .openCurly, bodyOpening) ::
          inner ++ [(.symbol .closeCurly, bodyClosing)] ++ ending)
        ((.keyword .func, position) :: (.identifier name, start) :: (.symbol .openRound, opening) ::
          paddedHeading ++ (.symbol .closeRound, closing) :: (.symbol .openCurly, bodyOpening) ::
          paddedInner ++ [(.symbol .closeCurly, bodyClosing)] ++ paddedEnding)
        (.function name parameters body position))
    (gui : ∀ {name elements inner paddedInner ending paddedEnding} position start opening closing,
      Repeated DerivesElement inner paddedInner elements → Ending ending paddedEnding →
      motive
        ((.keyword .gui, position) :: (.identifier name, start) :: (.symbol .openCurly, opening) ::
          inner ++ [(.symbol .closeCurly, closing)] ++ ending)
        ((.keyword .gui, position) :: (.identifier name, start) :: (.symbol .openCurly, opening) ::
          paddedInner ++ [(.symbol .closeCurly, closing)] ++ paddedEnding)
        (.gui ⟨name, elements, position⟩))
    (returning : ∀ {tokens padded ending paddedEnding value} position,
      Derives .pipe tokens padded value → Ending ending paddedEnding →
      motive ((.keyword .returnWord, position) :: tokens ++ ending)
        ((.keyword .returnWord, position) :: padded ++ paddedEnding) (.returning value position))
    (expression : ∀ {first position tokens padded ending paddedEnding value},
      Derives .pipe ((first, position) :: tokens) ((first, position) :: padded) value →
      Ending ending paddedEnding →
      motive ((first, position) :: tokens ++ ending) ((first, position) :: padded ++ paddedEnding)
        (.expression value position)) :
    motive tokens padded statement :=
  @DerivesStatement.rec (fun tokens padded statement _ => motive tokens padded statement)
    (fun inner paddedInner body _ => Repeated (fun tokens padded one =>
      DerivesStatement tokens padded one ∧ motive tokens padded one) inner paddedInner body)
    (binding _ _ _) (fun heading _ ended body => function _ _ _ _ _ _ heading body ended)
    (gui _ _ _ _) (returning _) expression
    .none (fun derived _ one others => .more ⟨derived, one⟩ others) tokens padded statement derived

/-!
## Both sides
-/

def separates : Token → Bool
  | .symbol .comma | .symbol .semicolon => true
  | _ => false

/-- The tokens that are no separators. -/
def essential (tokens : List PlacedToken) : List PlacedToken :=
  tokens.filter fun token => !separates token.1

private theorem essential_cons (token : PlacedToken) {tokens padded : List PlacedToken}
    (same : essential tokens = essential padded) :
    essential (token :: tokens) = essential (token :: padded) := by
  unfold essential at same ⊢
  rw [List.filter_cons, List.filter_cons, same]

theorem essential_append {left paddedLeft right paddedRight : List PlacedToken}
    (leftSame : essential left = essential paddedLeft)
    (rightSame : essential right = essential paddedRight) :
    essential (left ++ right) = essential (paddedLeft ++ paddedRight) := by
  unfold essential at leftSame rightSame ⊢
  rw [List.filter_append, List.filter_append, leftSame, rightSame]

/-- Both sides are phrases for the node, and they differ in separators only. -/
structure Alike {α : Type} (Phrase : List PlacedToken → α → Prop)
    (tokens padded : List PlacedToken) (node : α) : Prop where
  phrase : Phrase tokens node
  paddedPhrase : Phrase padded node
  same : essential tokens = essential padded

theorem Ending.alike {ending padded : List PlacedToken} (ended : Ending ending padded) :
    Alike (fun tokens (_ : Unit) => Grammar.Ending tokens) ending padded () := by
  cases ended with
  | same ended => exact ⟨ended, ended, rfl⟩
  | added position => exact ⟨.absent, .semicolon position, rfl⟩

section

variable {α : Type} {Item : List PlacedToken → List PlacedToken → α → Prop}
  {Phrase : List PlacedToken → α → Prop} {tokens padded rest paddedRest : List PlacedToken}
  {item : α} {items : List α}

/-- No item has more tokens than all of them together. -/
theorem Repeated.mono {Other : List PlacedToken → List PlacedToken → α → Prop}
    {size paddedSize : Nat}
    (each : ∀ {tokens padded item}, tokens.length ≤ size → padded.length ≤ paddedSize →
      Item tokens padded item → Other tokens padded item)
    (phrases : Repeated Item tokens padded items) (short : tokens.length ≤ size)
    (paddedShort : padded.length ≤ paddedSize) : Repeated Other tokens padded items := by
  induction phrases with
  | none => exact .none
  | more one _ ih =>
      rw [List.length_append] at short paddedShort
      exact .more (each (by omega) (by omega) one) (ih (by omega) (by omega))

namespace Alike

private theorem consRepeated (one : Alike Phrase tokens padded item)
    (others : Alike (Grammar.Repeated Phrase) rest paddedRest items) :
    Alike (Grammar.Repeated Phrase) (tokens ++ rest) (padded ++ paddedRest) (item :: items) :=
  ⟨.more one.phrase others.phrase, .more one.paddedPhrase others.paddedPhrase,
    essential_append one.same others.same⟩

private theorem lastSeparated (one : Alike Phrase tokens padded item) :
    Alike (Grammar.Separated Phrase) tokens padded [item] :=
  ⟨.last one.phrase, .last one.paddedPhrase, one.same⟩

private theorem addedSeparated (comma : Position) (one : Alike Phrase tokens padded item) :
    Alike (Grammar.Separated Phrase) tokens (padded ++ [(.symbol .comma, comma)]) [item] := by
  refine ⟨.last one.phrase, .more one.paddedPhrase .none, ?_⟩
  have whole : essential (tokens ++ []) = essential (padded ++ [(.symbol .comma, comma)]) :=
    essential_append one.same rfl
  rwa [List.append_nil] at whole

private theorem consSeparated (comma : Position) (one : Alike Phrase tokens padded item)
    (others : Alike (Grammar.Separated Phrase) rest paddedRest items) :
    Alike (Grammar.Separated Phrase) (tokens ++ (.symbol .comma, comma) :: rest)
      (padded ++ (.symbol .comma, comma) :: paddedRest) (item :: items) :=
  ⟨.more one.phrase others.phrase, .more one.paddedPhrase others.paddedPhrase,
    essential_append one.same (essential_cons _ others.same)⟩

end Alike

theorem Repeated.alike
    (each : ∀ {tokens padded item}, Item tokens padded item → Alike Phrase tokens padded item)
    (phrases : Repeated Item tokens padded items) :
    Alike (Grammar.Repeated Phrase) tokens padded items := by
  induction phrases with
  | none => exact ⟨.none, .none, rfl⟩
  | more one _ ih => exact (each one).consRepeated ih

theorem Separated.alike
    (each : ∀ {tokens padded item}, Item tokens padded item → Alike Phrase tokens padded item)
    (phrases : Separated Item tokens padded items) :
    Alike (Grammar.Separated Phrase) tokens padded items := by
  induction phrases with
  | none => exact ⟨.none, .none, rfl⟩
  | last one => exact (each one).lastSeparated
  | added comma one => exact (each one).addedSeparated comma
  | more one _ ih => exact (each one).consSeparated _ ih

end

theorem Derives.alike {kind : Nonterminal} {tokens padded : List PlacedToken} {expr : Expr}
    (derived : Derives kind tokens padded expr) :
    Alike (Grammar.Derives kind) tokens padded expr := by
  refine @Derives.rec
    (fun kind tokens padded expr _ => Alike (Grammar.Derives kind) tokens padded expr)
    (fun tokens padded items _ =>
      Alike (Grammar.Separated (Grammar.Derives .pipe)) tokens padded items)
    (fun tokens padded entries _ =>
      Alike (Grammar.Repeated (Grammar.Entry (Grammar.Derives .pipe))) tokens padded entries)
    (fun tokens padded entry _ =>
      Alike (Grammar.Entry (Grammar.Derives .pipe)) tokens padded entry)
    ?operand ?joined ?access ?call ?integer ?real ?text ?yes ?no ?name ?group ?record ?list
    ?noItem ?lastItem ?addedComma ?moreItems ?noEntry ?moreEntries ?entry
    kind tokens padded expr derived
  case operand =>
    exact fun loosens _ ih =>
      ⟨.operand loosens ih.phrase, .operand loosens ih.paddedPhrase, ih.same⟩
  case joined =>
    exact fun joins _ _ left right =>
      ⟨.joined joins left.phrase right.phrase, .joined joins left.paddedPhrase right.paddedPhrase,
        essential_append left.same (essential_cons _ right.same)⟩
  case access =>
    exact fun _ spelled object =>
      ⟨.access object.phrase spelled, .access object.paddedPhrase spelled,
        essential_append object.same rfl⟩
  case call =>
    exact fun _ _ callee arguments =>
      ⟨.call callee.phrase arguments.phrase, .call callee.paddedPhrase arguments.paddedPhrase,
        essential_append (essential_append callee.same (essential_cons _ arguments.same)) rfl⟩
  case integer =>
    exact fun value position => ⟨.integer value position, .integer value position, rfl⟩
  case real => exact fun value position => ⟨.real value position, .real value position, rfl⟩
  case text => exact fun value position => ⟨.text value position, .text value position, rfl⟩
  case yes => exact fun position => ⟨.yes position, .yes position, rfl⟩
  case no => exact fun position => ⟨.no position, .no position, rfl⟩
  case name => exact fun label position => ⟨.name label position, .name label position, rfl⟩
  case group =>
    exact fun _ inner =>
      ⟨.group inner.phrase, .group inner.paddedPhrase,
        essential_append (essential_cons _ inner.same) rfl⟩
  case record =>
    exact fun _ entries =>
      ⟨.record entries.phrase, .record entries.paddedPhrase,
        essential_append (essential_cons _ entries.same) rfl⟩
  case list =>
    exact fun _ items =>
      ⟨.list items.phrase, .list items.paddedPhrase,
        essential_append (essential_cons _ items.same) rfl⟩
  case noItem => exact ⟨.none, .none, rfl⟩
  case lastItem => exact fun _ one => one.lastSeparated
  case addedComma => exact fun comma _ one => one.addedSeparated comma
  case moreItems => exact fun _ _ one others => one.consSeparated _ others
  case noEntry => exact ⟨.none, .none, rfl⟩
  case moreEntries => exact fun _ _ one others => one.consRepeated others
  case entry =>
    exact fun spelled _ ended value =>
      ⟨.entry spelled value.phrase ended.alike.phrase,
        .entry spelled value.paddedPhrase ended.alike.paddedPhrase,
        essential_append (essential_cons _ (essential_cons _ value.same)) ended.alike.same⟩

theorem Parameter.alike {tokens padded : List PlacedToken} {parameter : String}
    (phrase : Parameter tokens padded parameter) :
    Alike Grammar.Parameter tokens padded parameter := by
  cases phrase
  exact ⟨.parameter _ _, .parameter _ _, rfl⟩

private theorem Attribute.alike {tokens padded : List PlacedToken} {entry : String × Expr}
    (phrase : Attribute tokens padded entry) : Alike Grammar.Attribute tokens padded entry := by
  obtain ⟨spelled, value⟩ := phrase
  exact ⟨.attribute spelled value.alike.phrase, .attribute spelled value.alike.paddedPhrase,
    essential_cons _ (essential_cons _ value.alike.same)⟩

private theorem AttributeList.alike {tokens padded : List PlacedToken} {attributes : Attributes}
    (phrase : AttributeList tokens padded attributes) :
    Alike Grammar.AttributeList tokens padded attributes := by
  obtain ⟨entries⟩ := phrase
  have inner := entries.alike Attribute.alike
  exact ⟨.attributes inner.phrase, .attributes inner.paddedPhrase,
    essential_append (essential_cons _ inner.same) rfl⟩

private theorem DerivesWidget.alike {tokens padded : List PlacedToken} {part : Widget}
    (phrase : DerivesWidget tokens padded part) :
    Alike Grammar.DerivesWidget tokens padded part := by
  obtain ⟨list, ended⟩ := phrase
  exact ⟨.widget list.alike.phrase ended.alike.phrase,
    .widget list.alike.paddedPhrase ended.alike.paddedPhrase,
    essential_append (essential_cons _ list.alike.same) ended.alike.same⟩

theorem DerivesElement.alike {tokens padded : List PlacedToken} {part : Element}
    (phrase : DerivesElement tokens padded part) :
    Alike Grammar.DerivesElement tokens padded part := by
  cases phrase with
  | window list children =>
      have inner := children.alike DerivesWidget.alike
      exact ⟨.window list.alike.phrase inner.phrase,
        .window list.alike.paddedPhrase inner.paddedPhrase,
        essential_append (essential_append (essential_cons _ list.alike.same)
          (essential_cons _ inner.same)) rfl⟩
  | widget phrase =>
      exact ⟨.widget phrase.alike.phrase, .widget phrase.alike.paddedPhrase, phrase.alike.same⟩

theorem DerivesStatement.alike {tokens padded : List PlacedToken} {statement : Statement}
    (phrase : DerivesStatement tokens padded statement) :
    Alike Grammar.DerivesStatement tokens padded statement := by
  refine phrase.structural ?binding ?function ?gui ?returning ?expression
  case binding =>
    intro name tokens padded ending paddedEnding value position start sign derived ended
    exact ⟨.binding derived.alike.phrase ended.alike.phrase,
      .binding derived.alike.paddedPhrase ended.alike.paddedPhrase,
      essential_append (essential_cons _ (essential_cons _ (essential_cons _ derived.alike.same)))
        ended.alike.same⟩
  case function =>
    intro name parameters body heading paddedHeading inner paddedInner ending paddedEnding position
      start opening closing bodyOpening bodyClosing names block ended
    have names := names.alike Parameter.alike
    have block := block.alike fun phrase => phrase.2
    refine ⟨.function names.phrase block.phrase ended.alike.phrase,
      .function names.paddedPhrase block.paddedPhrase ended.alike.paddedPhrase, ?_⟩
    have front := essential_cons (.keyword .func, position)
      (essential_cons (.identifier name, start)
        (essential_cons (.symbol .openRound, opening) names.same))
    have behind := essential_cons (.symbol .closeRound, closing)
      (essential_cons (.symbol .openCurly, bodyOpening) block.same)
    exact essential_append (essential_append (essential_append front behind) rfl) ended.alike.same
  case gui =>
    intro name elements inner paddedInner ending paddedEnding position start opening closing parts
      ended
    have parts := parts.alike DerivesElement.alike
    exact ⟨.gui parts.phrase ended.alike.phrase, .gui parts.paddedPhrase ended.alike.paddedPhrase,
      essential_append (essential_append (essential_cons _ (essential_cons _ (essential_cons _
        parts.same))) rfl) ended.alike.same⟩
  case returning =>
    intro tokens padded ending paddedEnding value position derived ended
    exact ⟨.returning derived.alike.phrase ended.alike.phrase,
      .returning derived.alike.paddedPhrase ended.alike.paddedPhrase,
      essential_append (essential_cons _ derived.alike.same) ended.alike.same⟩
  case expression =>
    intro first position tokens padded ending paddedEnding value derived ended
    exact ⟨.expression derived.alike.phrase ended.alike.phrase,
      .expression derived.alike.paddedPhrase ended.alike.paddedPhrase,
      essential_append derived.alike.same ended.alike.same⟩

/-!
## Nothing added
-/

theorem repeated_self {α : Type} {Item : List PlacedToken → List PlacedToken → α → Prop}
    {Phrase : List PlacedToken → α → Prop} {tokens : List PlacedToken} {items : List α}
    (each : ∀ {tokens item}, Phrase tokens item → Item tokens tokens item)
    (phrases : Grammar.Repeated Phrase tokens items) : Repeated Item tokens tokens items := by
  induction phrases with
  | none => exact .none
  | more one _ ih => exact .more (each one) ih

private theorem separated_self {α : Type} {Item : List PlacedToken → List PlacedToken → α → Prop}
    {Phrase : List PlacedToken → α → Prop} {tokens : List PlacedToken} {items : List α}
    (each : ∀ {tokens item}, Phrase tokens item → Item tokens tokens item)
    (phrases : Grammar.Separated Phrase tokens items) : Separated Item tokens tokens items := by
  induction phrases with
  | none => exact .none
  | last one => exact .last (each one)
  | more one _ ih => exact .more (each one) ih

private theorem derives_self {kind : Nonterminal} {tokens : List PlacedToken} {expr : Expr}
    (derived : Grammar.Derives kind tokens expr) : Derives kind tokens tokens expr :=
  @Grammar.Derives.rec (fun kind tokens expr _ => Derives kind tokens tokens expr)
    (fun tokens items _ => Separated (Derives .pipe) tokens tokens items)
    (fun tokens entries _ => Repeated (Entry (Derives .pipe)) tokens tokens entries)
    (fun tokens entry _ => Entry (Derives .pipe) tokens tokens entry)
    (fun loosens _ ih => .operand loosens ih)
    (fun joins _ _ left right => .joined joins left right)
    (fun _ spelled object => .access object spelled)
    (fun _ _ callee arguments => .call callee arguments)
    .integer .real .text .yes .no .name
    (fun _ inner => .group inner) (fun _ entries => .record entries) (fun _ items => .list items)
    .none (fun _ one => .last one) (fun _ _ one others => .more one others)
    .none (fun _ _ one others => .more one others)
    (fun spelled _ ended value => .entry spelled value (.same ended))
    kind tokens expr derived

private theorem parameter_self {tokens : List PlacedToken} {name : String}
    (phrase : Grammar.Parameter tokens name) : Parameter tokens tokens name := by
  cases phrase
  exact .parameter _ _

private theorem attributeList_self {tokens : List PlacedToken} {attributes : Attributes}
    (list : Grammar.AttributeList tokens attributes) : AttributeList tokens tokens attributes := by
  obtain ⟨entries⟩ := list
  refine .attributes (separated_self ?_ entries)
  rintro _ _ ⟨spelled, value⟩
  exact .attribute spelled (derives_self value)

private theorem derivesWidget_self {tokens : List PlacedToken} {part : Widget}
    (phrase : Grammar.DerivesWidget tokens part) : DerivesWidget tokens tokens part := by
  obtain ⟨list, ended⟩ := phrase
  exact .widget (attributeList_self list) (.same ended)

private theorem derivesElement_self {tokens : List PlacedToken} {part : Element}
    (phrase : Grammar.DerivesElement tokens part) : DerivesElement tokens tokens part := by
  cases phrase with
  | window list children =>
      exact .window (attributeList_self list) (repeated_self derivesWidget_self children)
  | widget phrase => exact .widget (derivesWidget_self phrase)

theorem derivesStatement_self {tokens : List PlacedToken} {statement : Statement}
    (derived : Grammar.DerivesStatement tokens statement) :
    DerivesStatement tokens tokens statement :=
  @Grammar.DerivesStatement.rec
    (fun tokens statement _ => DerivesStatement tokens tokens statement)
    (fun inner body _ => Repeated DerivesStatement inner inner body)
    (fun value ended => .binding (derives_self value) (.same ended))
    (fun heading _ ended body =>
      .function (separated_self parameter_self heading) body (.same ended))
    (fun parts ended => .gui (repeated_self derivesElement_self parts) (.same ended))
    (fun value ended => .returning (derives_self value) (.same ended))
    (fun value ended => .expression (derives_self value) (.same ended))
    .none (fun _ _ one others => .more one others) tokens statement derived

end Grammar.Padded

end WindowScript
