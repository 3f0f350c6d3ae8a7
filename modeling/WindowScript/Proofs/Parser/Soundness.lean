import WindowScript.Parser.Program
import WindowScript.Proofs.Parser.Grammar

/-!
# What the parser reads is in the grammar

Each parser that succeeds has read a phrase of the grammar: the tokens it took off the
front are exactly those of a derivation of its result. No token is passed over and none
is read twice. The end of input is no part of any phrase.
-/

set_option autoImplicit false

namespace WindowScript

open Grammar

namespace Parser

/-- No end of input is among the tokens. -/
def Endless (tokens : List PlacedToken) : Prop := ∀ token ∈ tokens, token.1 ≠ .endOfInput

@[simp] theorem endless_nil : Endless [] := by simp [Endless]

@[simp] theorem endless_cons (token : PlacedToken) (rest : List PlacedToken) :
    Endless (token :: rest) ↔ token.1 ≠ .endOfInput ∧ Endless rest := List.forall_mem_cons

@[simp] theorem endless_append (left right : List PlacedToken) :
    Endless (left ++ right) ↔ Endless left ∧ Endless right := List.forall_mem_append

/-- The tokens up to `rest` are a phrase for `result`. -/
def Reads {α : Type} (Phrase : List PlacedToken → α → Prop) (tokens : List PlacedToken)
    (result : α) (rest : List PlacedToken) : Prop :=
  ∃ used, tokens = used ++ rest ∧ Endless used ∧ Phrase used result

/-- Whatever the parser returns, it has read a phrase for it. -/
def Sound {α : Type} (parser : Parser α) (Phrase : List PlacedToken → α → Prop) : Prop :=
  ∀ ⦃tokens result rest⦄, parser tokens = .ok (result, rest) → Reads Phrase tokens result rest

theorem bind_eq_ok {ε α β : Type} {stage : Except ε α} {next : α → Except ε β} {result : β}
    (succeeded : (stage >>= next) = .ok result) :
    ∃ value, stage = .ok value ∧ next value = .ok result := by
  cases stage with
  | error failure => cases succeeded
  | ok value => exact ⟨value, rfl, succeeded⟩

theorem refuse_ne_ok {α : Type} {expected : Expectation} {tokens : List PlacedToken}
    {answer : α × List PlacedToken} : refuse expected tokens ≠ .ok answer := by
  cases tokens <;> rintro ⟨⟩

/-!
## Single tokens
-/

theorem eq_cons_of_startsWith {mark : Symbol} {tokens : List PlacedToken}
    (starts : startsWith mark tokens = true) :
    ∃ position, tokens = (.symbol mark, position) :: tokens.tail := by
  cases tokens with
  | nil => cases starts
  | cons head rest =>
      obtain ⟨token, position⟩ := head
      cases token with
      | symbol found =>
          have same : found = mark := of_decide_eq_true starts
          exact ⟨position, by rw [same]; rfl⟩
      | _ => cases starts

theorem symbol_eq_ok {mark : Symbol} {tokens rest : List PlacedToken} {position : Position}
    (read : symbol mark tokens = .ok (position, rest)) :
    tokens = (.symbol mark, position) :: rest := by
  cases tokens with
  | nil => cases read
  | cons head rest =>
      obtain ⟨token, found⟩ := head
      cases token with
      | symbol other =>
          simp only [symbol] at read
          split at read
          · rename_i same
            cases read
            rw [same]
          · exact absurd read refuse_ne_ok
      | _ => cases read

theorem identifier_eq_ok {tokens rest : List PlacedToken} {name : String}
    (read : identifier tokens = .ok (name, rest)) :
    ∃ position, tokens = (.identifier name, position) :: rest := by
  cases tokens with
  | nil => cases read
  | cons head rest =>
      obtain ⟨token, position⟩ := head
      cases token with
      | identifier found =>
          cases read
          exact ⟨position, rfl⟩
      | _ => cases read

theorem word_eq_ok {expected : Expectation} {tokens rest : List PlacedToken} {name : String}
    (read : word expected tokens = .ok (name, rest)) :
    ∃ token position, tokens = (token, position) :: rest ∧ token.word? = some name ∧
      token ≠ .endOfInput := by
  cases tokens with
  | nil => cases read
  | cons head rest =>
      obtain ⟨token, position⟩ := head
      simp only [word] at read
      cases spelled : token.word? with
      | none =>
          rw [spelled] at read
          exact absurd read refuse_ne_ok
      | some found =>
          rw [spelled] at read
          cases read
          refine ⟨token, position, rfl, spelled, ?_⟩
          rintro rfl
          cases spelled

theorem exists_ending (tokens : List PlacedToken) :
    ∃ ending, tokens = ending ++ skipSemicolon tokens ∧ Endless ending ∧ Ending ending := by
  by_cases starts : startsWith .semicolon tokens = true
  · obtain ⟨position, shape⟩ := eq_cons_of_startsWith starts
    rw [shape]
    exact ⟨[(.symbol .semicolon, position)], rfl, by simp, .semicolon position⟩
  · refine ⟨[], ?_, by simp, .absent⟩
    cases tokens with
    | nil => rfl
    | cons head rest =>
        obtain ⟨token, position⟩ := head
        cases token with
        | symbol mark =>
            cases mark with
            | semicolon => exact absurd rfl starts
            | _ => rfl
        | _ => rfl

/-!
## Sequences
-/

section

variable {α : Type} {item : Parser α} {Phrase : List PlacedToken → α → Prop}

/-- The items read are those in front, in reverse, and those of a comma-separated phrase. -/
theorem separated_eq_ok (sound : Sound item Phrase) {closing : Symbol} {rounds : Nat}
    {read items : List α} {tokens rest : List PlacedToken}
    (parsed : separated item closing rounds read tokens = .ok (items, rest)) :
    ∃ inner position found, tokens = inner ++ (.symbol closing, position) :: rest ∧
      Endless inner ∧ Separated Phrase inner found ∧ items = read.reverse ++ found := by
  induction rounds generalizing read tokens with
  | zero => exact absurd parsed refuse_ne_ok
  | succ rounds ih =>
      simp only [separated] at parsed
      split at parsed
      · rename_i closes
        obtain ⟨position, shape⟩ := eq_cons_of_startsWith closes
        cases parsed
        exact ⟨[], position, [], shape, by simp, .none, by simp⟩
      · obtain ⟨⟨found, behind⟩, first, onward⟩ := bind_eq_ok parsed
        obtain ⟨used, rfl, endless, phrase⟩ := sound first
        dsimp only at onward
        split at onward
        · rename_i comma
          obtain ⟨position, shape⟩ := eq_cons_of_startsWith comma
          obtain ⟨inner, closed, others, split, othersEndless, separated, rfl⟩ := ih onward
          refine ⟨used ++ (.symbol .comma, position) :: inner, closed, found :: others, ?_, ?_,
            .more phrase separated, by simp⟩
          · rw [shape, split]
            simp
          · simp [endless, othersEndless]
        · split at onward
          · rename_i closes
            obtain ⟨position, shape⟩ := eq_cons_of_startsWith closes
            cases onward
            exact ⟨used, position, [found], by rw [← shape], endless, .last phrase, by simp⟩
          · exact absurd onward refuse_ne_ok

theorem delimited_eq_ok (sound : Sound item Phrase) {closing : Symbol} {rounds : Nat}
    {read items : List α} {tokens rest : List PlacedToken}
    (parsed : delimited item closing rounds read tokens = .ok (items, rest)) :
    ∃ inner position found, tokens = inner ++ (.symbol closing, position) :: rest ∧
      Endless inner ∧ Repeated Phrase inner found ∧ items = read.reverse ++ found := by
  induction rounds generalizing read tokens with
  | zero => exact absurd parsed refuse_ne_ok
  | succ rounds ih =>
      simp only [delimited] at parsed
      split at parsed
      · rename_i closes
        obtain ⟨position, shape⟩ := eq_cons_of_startsWith closes
        cases parsed
        exact ⟨[], position, [], shape, by simp, .none, by simp⟩
      · obtain ⟨⟨found, behind⟩, first, onward⟩ := bind_eq_ok parsed
        obtain ⟨used, rfl, endless, phrase⟩ := sound first
        obtain ⟨inner, closed, others, split, othersEndless, repeated, rfl⟩ := ih onward
        dsimp only at split
        refine ⟨used ++ inner, closed, found :: others, ?_, ?_, .more phrase repeated, by simp⟩
        · rw [split, List.append_assoc]
        · simp [endless, othersEndless]

end

/-!
## Expressions
-/

section

variable {rounds : Nat} {nested : Parser Expr}

theorem recordEntry_sound (sound : Sound nested (Derives .pipe)) :
    Sound (recordEntry nested) (Entry (Derives .pipe)) := by
  intro tokens entry rest parsed
  simp only [recordEntry] at parsed
  obtain ⟨⟨name, afterName⟩, nameRead, afterNameRead⟩ := bind_eq_ok parsed
  obtain ⟨⟨sign, afterSign⟩, signRead, afterSignRead⟩ := bind_eq_ok afterNameRead
  obtain ⟨⟨value, afterValue⟩, valueRead, finished⟩ := bind_eq_ok afterSignRead
  obtain ⟨token, position, rfl, spelled, going⟩ := word_eq_ok nameRead
  have signShape := symbol_eq_ok signRead
  obtain ⟨used, valueShape, endless, phrase⟩ := sound valueRead
  obtain ⟨ending, endingShape, endingEndless, ended⟩ := exists_ending afterValue
  cases finished
  refine ⟨(token, position) :: (.symbol .assign, sign) :: used ++ ending, ?_, ?_,
    .entry spelled phrase ended⟩
  · dsimp only at signShape valueShape ⊢
    rw [signShape, valueShape]
    simp only [List.cons_append, List.append_assoc, ← endingShape]
  · simp [going, endless, endingEndless]

theorem primary_sound (sound : Sound nested (Derives .pipe)) :
    Sound (primary rounds nested) (Derives .primary) := by
  intro tokens expr rest parsed
  cases tokens with
  | nil => cases parsed
  | cons head tokens =>
      obtain ⟨token, position⟩ := head
      cases token with
      | integer value =>
          cases parsed
          exact ⟨[(.integer value, position)], rfl, by simp, .integer value position⟩
      | real value =>
          cases parsed
          exact ⟨[(.real value, position)], rfl, by simp, .real value position⟩
      | text value =>
          cases parsed
          exact ⟨[(.text value, position)], rfl, by simp, .text value position⟩
      | identifier label =>
          cases parsed
          exact ⟨[(.identifier label, position)], rfl, by simp, .name label position⟩
      | keyword word =>
          cases word with
          | trueWord =>
              cases parsed
              exact ⟨[(.keyword .trueWord, position)], rfl, by simp, .yes position⟩
          | falseWord =>
              cases parsed
              exact ⟨[(.keyword .falseWord, position)], rfl, by simp, .no position⟩
          | _ => cases parsed
      | symbol mark =>
          cases mark with
          | openRound =>
              simp only [primary] at parsed
              obtain ⟨⟨inner, afterInner⟩, innerRead, closingRead⟩ := bind_eq_ok parsed
              obtain ⟨⟨closing, behind⟩, closed, finished⟩ := bind_eq_ok closingRead
              obtain ⟨used, rfl, endless, phrase⟩ := sound innerRead
              have closingShape := symbol_eq_ok closed
              cases finished
              refine ⟨(.symbol .openRound, position) :: used ++ [(.symbol .closeRound, closing)],
                ?_, by simp [endless], .group phrase⟩
              dsimp only at closingShape
              simp [closingShape]
          | openCurly =>
              simp only [primary] at parsed
              obtain ⟨⟨entries, behind⟩, entriesRead, finished⟩ := bind_eq_ok parsed
              obtain ⟨inner, closing, found, rfl, endless, repeated, shape⟩ :=
                delimited_eq_ok (recordEntry_sound sound) entriesRead
              cases finished
              obtain rfl : entries = found := by simpa using shape
              exact ⟨(.symbol .openCurly, position) :: inner ++ [(.symbol .closeCurly, closing)],
                by simp, by simp [endless], .record repeated⟩
          | openSquare =>
              simp only [primary] at parsed
              obtain ⟨⟨items, behind⟩, itemsRead, finished⟩ := bind_eq_ok parsed
              obtain ⟨inner, closing, found, rfl, endless, separated, shape⟩ :=
                separated_eq_ok sound itemsRead
              cases finished
              obtain rfl : items = found := by simpa using shape
              exact ⟨(.symbol .openSquare, position) :: inner ++ [(.symbol .closeSquare, closing)],
                by simp, by simp [endless], .list separated⟩
          | _ => cases parsed
      | _ => cases parsed

/-- What the loop adds extends the tokens `before` of the node it starts with. -/
theorem suffixes_sound (sound : Sound nested (Derives .pipe)) {more : Nat} {node expr : Expr}
    {before tokens rest : List PlacedToken} (derived : Derives .applied before node)
    (parsed : suffixes rounds nested more node tokens = .ok (expr, rest)) :
    Reads (fun used => Derives .applied (before ++ used)) tokens expr rest := by
  induction more generalizing node before tokens with
  | zero =>
      cases parsed
      exact ⟨[], rfl, by simp, by simpa using derived⟩
  | succ more ih =>
      simp only [suffixes] at parsed
      split at parsed
      · rename_i position behind
        obtain ⟨⟨key, afterKey⟩, keyRead, onward⟩ := bind_eq_ok parsed
        obtain ⟨word, start, rfl, spelled, going⟩ := word_eq_ok keyRead
        obtain ⟨used, split, endless, phrase⟩ := ih (.access derived spelled) onward
        dsimp only at split
        refine ⟨(.symbol .dot, position) :: (word, start) :: used, by simp [split],
          by simp [going, endless], ?_⟩
        simpa using phrase
      · rename_i opening behind
        split at parsed
        · rename_i callee origin
          obtain ⟨⟨arguments, afterArguments⟩, argumentsRead, onward⟩ := bind_eq_ok parsed
          obtain ⟨inner, closing, found, rfl, innerEndless, separated, shape⟩ :=
            separated_eq_ok sound argumentsRead
          obtain rfl : arguments = found := by simpa using shape
          obtain ⟨used, split, endless, phrase⟩ := ih (.call derived separated) onward
          dsimp only at split
          refine ⟨(.symbol .openRound, opening) :: inner ++ (.symbol .closeRound, closing) :: used,
            by simp [split], by simp [innerEndless, endless], ?_⟩
          simpa using phrase
        · cases parsed
      · cases parsed
        exact ⟨[], rfl, by simp, by simpa using derived⟩

theorem applied_sound (sound : Sound nested (Derives .pipe)) :
    Sound (applied rounds nested) (Derives .applied) := by
  intro tokens expr rest parsed
  simp only [applied] at parsed
  obtain ⟨⟨node, behind⟩, nodeRead, onward⟩ := bind_eq_ok parsed
  obtain ⟨first, rfl, firstEndless, primary⟩ := primary_sound sound nodeRead
  obtain ⟨used, split, endless, phrase⟩ :=
    suffixes_sound sound (.operand .applied primary) onward
  dsimp only at split
  exact ⟨first ++ used, by simp [split], by simp [firstEndless, endless], phrase⟩

end

def ofLevel : Level → Nonterminal
  | .pipeline => .pipe
  | .equality => .equality
  | .sum => .additive
  | .product => .multiplicative

def operandOf : Level → Nonterminal
  | .pipeline => .equality
  | .equality => .additive
  | .sum => .multiplicative
  | .product => .applied

theorem loosens_operandOf (level : Level) : Loosens (ofLevel level) (operandOf level) := by
  cases level <;> constructor

theorem joins_of_join? {level : Level} {token : Token} {join : Expr → Expr → Position → Expr}
    (joined : level.join? token = some join) :
    ∃ mark, token = .symbol mark ∧ Joins (ofLevel level) mark (operandOf level) join := by
  cases token with
  | symbol mark =>
      refine ⟨mark, rfl, ?_⟩
      cases mark <;> cases level <;> cases joined <;> constructor
  | _ => cases joined

section

variable {rounds : Nat}

/-- The loop of a level extends the tokens `before` of its leftmost operand. -/
theorem chain_sound {level : Level} {operand : Parser Expr}
    (sound : Sound operand (Derives (operandOf level))) {more : Nat} {left expr : Expr}
    {before tokens rest : List PlacedToken} (derived : Derives (ofLevel level) before left)
    (parsed : chain level operand more left tokens = .ok (expr, rest)) :
    Reads (fun used => Derives (ofLevel level) (before ++ used)) tokens expr rest := by
  induction more generalizing left before tokens with
  | zero =>
      cases parsed
      exact ⟨[], rfl, by simp, by simpa using derived⟩
  | succ more ih =>
      simp only [chain] at parsed
      split at parsed
      · rename_i token position behind
        split at parsed
        · rename_i join joined
          obtain ⟨⟨right, afterRight⟩, rightRead, onward⟩ := bind_eq_ok parsed
          obtain ⟨mark, rfl, joins⟩ := joins_of_join? joined
          obtain ⟨operandTokens, rfl, operandEndless, phrase⟩ := sound rightRead
          obtain ⟨used, split, endless, whole⟩ := ih (.joined joins derived phrase) onward
          dsimp only at split
          refine ⟨(.symbol mark, position) :: operandTokens ++ used, by simp [split],
            by simp [operandEndless, endless], ?_⟩
          simpa using whole
        · cases parsed
          exact ⟨[], rfl, by simp, by simpa using derived⟩
      · cases parsed
        exact ⟨[], rfl, by simp, by simpa using derived⟩

theorem levels_sound {nested : Parser Expr} {level : Level} {tighter : List Level}
    (sound : Sound (levels rounds nested tighter) (Derives (operandOf level))) :
    Sound (levels rounds nested (level :: tighter)) (Derives (ofLevel level)) := by
  intro tokens expr rest parsed
  simp only [levels] at parsed
  obtain ⟨⟨left, behind⟩, leftRead, onward⟩ := bind_eq_ok parsed
  obtain ⟨first, rfl, firstEndless, phrase⟩ := sound leftRead
  obtain ⟨used, split, endless, whole⟩ :=
    chain_sound sound (.operand (loosens_operandOf level) phrase) onward
  dsimp only at split
  exact ⟨first ++ used, by simp [split], by simp [firstEndless, endless], whole⟩

theorem expression_sound (depth : Nat) : Sound (expression rounds depth) (Derives .pipe) := by
  induction depth with
  | zero => intro tokens expr rest parsed; cases parsed
  | succ depth ih =>
      have applied : Sound (levels rounds (expression rounds depth) []) (Derives .applied) :=
        applied_sound ih
      have product : Sound (levels rounds (expression rounds depth) [.product])
          (Derives .multiplicative) := levels_sound applied
      have sum : Sound (levels rounds (expression rounds depth) [.sum, .product])
          (Derives .additive) := levels_sound product
      have equality : Sound (levels rounds (expression rounds depth) [.equality, .sum, .product])
          (Derives .equality) := levels_sound sum
      have pipe : Sound (levels rounds (expression rounds depth) Level.all) (Derives .pipe) :=
        levels_sound equality
      exact pipe

end

/-!
## Statements
-/

section

variable {rounds : Nat} {expression : Parser Expr}

theorem identifier_sound : Sound identifier Parameter := by
  intro tokens name rest parsed
  obtain ⟨position, rfl⟩ := identifier_eq_ok parsed
  exact ⟨[(.identifier name, position)], rfl, by simp, .parameter name position⟩

theorem attributeEntry_sound (sound : Sound expression (Derives .pipe)) :
    Sound (attributeEntry expression) Attribute := by
  intro tokens entry rest parsed
  simp only [attributeEntry] at parsed
  obtain ⟨⟨name, afterName⟩, nameRead, afterNameRead⟩ := bind_eq_ok parsed
  obtain ⟨⟨colon, afterColon⟩, colonRead, afterColonRead⟩ := bind_eq_ok afterNameRead
  obtain ⟨⟨value, afterValue⟩, valueRead, finished⟩ := bind_eq_ok afterColonRead
  obtain ⟨token, position, rfl, spelled, going⟩ := word_eq_ok nameRead
  have colonShape := symbol_eq_ok colonRead
  obtain ⟨used, valueShape, endless, phrase⟩ := sound valueRead
  cases finished
  dsimp only at colonShape valueShape
  exact ⟨(token, position) :: (.symbol .colon, colon) :: used, by simp [colonShape, valueShape],
    by simp [going, endless], .attribute spelled phrase⟩

theorem attributes_sound (sound : Sound expression (Derives .pipe)) :
    Sound (attributes rounds expression) AttributeList := by
  intro tokens found rest parsed
  simp only [attributes] at parsed
  obtain ⟨⟨opening, afterOpening⟩, openingRead, afterOpeningRead⟩ := bind_eq_ok parsed
  obtain ⟨⟨entries, behind⟩, entriesRead, finished⟩ := bind_eq_ok afterOpeningRead
  have openingShape := symbol_eq_ok openingRead
  obtain ⟨inner, closing, read, innerShape, endless, separated, shape⟩ :=
    separated_eq_ok (attributeEntry_sound sound) entriesRead
  obtain rfl : entries = read := by simpa using shape
  cases finished
  dsimp only at innerShape
  exact ⟨(.symbol .openRound, opening) :: inner ++ [(.symbol .closeRound, closing)],
    by simp [openingShape, innerShape], by simp [endless], .attributes separated⟩

theorem widget_sound (sound : Sound expression (Derives .pipe)) :
    Sound (widget rounds expression) DerivesWidget := by
  intro tokens found rest parsed
  cases tokens with
  | nil => cases parsed
  | cons head tokens =>
      obtain ⟨token, position⟩ := head
      cases token with
      | widget kind =>
          simp only [widget] at parsed
          obtain ⟨⟨entries, behind⟩, entriesRead, finished⟩ := bind_eq_ok parsed
          obtain ⟨used, rfl, endless, list⟩ := attributes_sound sound entriesRead
          obtain ⟨ending, endingShape, endingEndless, ended⟩ := exists_ending behind
          cases finished
          refine ⟨(.widget kind, position) :: used ++ ending, ?_, by simp [endless, endingEndless],
            .widget list ended⟩
          simp only [List.cons_append, List.append_assoc, ← endingShape]
      | _ => cases parsed

theorem window_sound (sound : Sound expression (Derives .pipe)) {position : Position}
    {tokens rest : List PlacedToken} {found : Window}
    (parsed : window rounds expression position tokens = .ok (found, rest)) :
    Reads DerivesElement ((.keyword .window, position) :: tokens) (.window found) rest := by
  simp only [window] at parsed
  obtain ⟨⟨entries, afterEntries⟩, entriesRead, afterEntriesRead⟩ := bind_eq_ok parsed
  obtain ⟨⟨opening, afterOpening⟩, openingRead, afterOpeningRead⟩ := bind_eq_ok afterEntriesRead
  obtain ⟨⟨children, behind⟩, childrenRead, finished⟩ := bind_eq_ok afterOpeningRead
  obtain ⟨used, rfl, endless, list⟩ := attributes_sound sound entriesRead
  have openingShape := symbol_eq_ok openingRead
  obtain ⟨inner, closing, read, innerShape, innerEndless, repeated, shape⟩ :=
    delimited_eq_ok (widget_sound sound) childrenRead
  obtain rfl : children = read := by simpa using shape
  cases finished
  dsimp only at openingShape innerShape
  exact ⟨(.keyword .window, position) :: used ++ (.symbol .openCurly, opening) :: inner ++
      [(.symbol .closeCurly, closing)], by simp [openingShape, innerShape],
    by simp [endless, innerEndless], .window list repeated⟩

theorem element_sound (sound : Sound expression (Derives .pipe)) (origin : Position) :
    Sound (element rounds expression origin) DerivesElement := by
  intro tokens found rest parsed
  cases tokens with
  | nil => cases parsed
  | cons head tokens =>
      obtain ⟨token, position⟩ := head
      cases token with
      | keyword word =>
          cases word with
          | window =>
              simp only [element] at parsed
              obtain ⟨⟨part, behind⟩, partRead, finished⟩ := bind_eq_ok parsed
              cases finished
              exact window_sound sound partRead
          | _ => cases parsed
      | widget kind =>
          simp only [element] at parsed
          obtain ⟨⟨part, behind⟩, partRead, finished⟩ := bind_eq_ok parsed
          cases finished
          obtain ⟨used, shape, endless, phrase⟩ := widget_sound sound partRead
          exact ⟨used, shape, endless, .widget phrase⟩
      | _ => cases parsed

/-- A statement that has been read before the semicolon that may end it. -/
def ReadsCore (tokens : List PlacedToken) (found : Statement) (rest : List PlacedToken) : Prop :=
  ∃ used, tokens = used ++ rest ∧ Endless used ∧
    ∀ ending, Ending ending → DerivesStatement (used ++ ending) found

theorem binding_sound (sound : Sound expression (Derives .pipe)) {position : Position}
    {tokens rest : List PlacedToken} {found : Statement}
    (parsed : binding expression position tokens = .ok (found, rest)) :
    ReadsCore ((.keyword .letWord, position) :: tokens) found rest := by
  simp only [binding] at parsed
  obtain ⟨⟨name, afterName⟩, nameRead, afterNameRead⟩ := bind_eq_ok parsed
  obtain ⟨⟨sign, afterSign⟩, signRead, afterSignRead⟩ := bind_eq_ok afterNameRead
  obtain ⟨⟨value, behind⟩, valueRead, finished⟩ := bind_eq_ok afterSignRead
  obtain ⟨start, rfl⟩ := identifier_eq_ok nameRead
  have signShape := symbol_eq_ok signRead
  obtain ⟨used, valueShape, endless, phrase⟩ := sound valueRead
  cases finished
  dsimp only at signShape valueShape
  refine ⟨(.keyword .letWord, position) :: (.identifier name, start) :: (.symbol .assign, sign) ::
    used, by simp [signShape, valueShape], by simp [endless], ?_⟩
  intro ending ended
  exact .binding phrase ended

theorem function_sound {statement : Parser Statement} (sound : Sound statement DerivesStatement)
    {position : Position} {tokens rest : List PlacedToken} {found : Statement}
    (parsed : function rounds statement position tokens = .ok (found, rest)) :
    ReadsCore ((.keyword .func, position) :: tokens) found rest := by
  simp only [function] at parsed
  obtain ⟨⟨name, afterName⟩, nameRead, afterNameRead⟩ := bind_eq_ok parsed
  obtain ⟨⟨opening, afterOpening⟩, openingRead, afterOpeningRead⟩ := bind_eq_ok afterNameRead
  obtain ⟨⟨parameters, afterHeading⟩, headingRead, afterHeadingRead⟩ :=
    bind_eq_ok afterOpeningRead
  obtain ⟨⟨bodyOpening, afterBrace⟩, braceRead, afterBraceRead⟩ := bind_eq_ok afterHeadingRead
  obtain ⟨⟨body, behind⟩, bodyRead, finished⟩ := bind_eq_ok afterBraceRead
  obtain ⟨start, rfl⟩ := identifier_eq_ok nameRead
  have openingShape := symbol_eq_ok openingRead
  obtain ⟨heading, closing, names, headingShape, headingEndless, separated, namesShape⟩ :=
    separated_eq_ok identifier_sound headingRead
  have braceShape := symbol_eq_ok braceRead
  obtain ⟨inner, bodyClosing, inside, innerShape, innerEndless, repeated, insideShape⟩ :=
    delimited_eq_ok sound bodyRead
  obtain rfl : parameters = names := by simpa using namesShape
  obtain rfl : body = inside := by simpa using insideShape
  cases finished
  dsimp only at openingShape headingShape braceShape innerShape
  refine ⟨(.keyword .func, position) :: (.identifier name, start) ::
      (.symbol .openRound, opening) :: heading ++ (.symbol .closeRound, closing) ::
      (.symbol .openCurly, bodyOpening) :: inner ++ [(.symbol .closeCurly, bodyClosing)],
    by simp [openingShape, headingShape, braceShape, innerShape],
    by simp [headingEndless, innerEndless], ?_⟩
  intro ending ended
  exact .function separated repeated ended

theorem gui_sound (sound : Sound expression (Derives .pipe)) {position : Position}
    {tokens rest : List PlacedToken} {found : Statement}
    (parsed : gui rounds expression position tokens = .ok (found, rest)) :
    ReadsCore ((.keyword .gui, position) :: tokens) found rest := by
  simp only [gui] at parsed
  obtain ⟨⟨name, afterName⟩, nameRead, afterNameRead⟩ := bind_eq_ok parsed
  obtain ⟨⟨opening, afterOpening⟩, openingRead, afterOpeningRead⟩ := bind_eq_ok afterNameRead
  obtain ⟨⟨elements, behind⟩, elementsRead, finished⟩ := bind_eq_ok afterOpeningRead
  obtain ⟨start, rfl⟩ := identifier_eq_ok nameRead
  have openingShape := symbol_eq_ok openingRead
  obtain ⟨inner, closing, inside, innerShape, endless, repeated, insideShape⟩ :=
    delimited_eq_ok (element_sound sound position) elementsRead
  obtain rfl : elements = inside := by simpa using insideShape
  cases finished
  dsimp only at openingShape innerShape
  refine ⟨(.keyword .gui, position) :: (.identifier name, start) :: (.symbol .openCurly, opening) ::
      inner ++ [(.symbol .closeCurly, closing)], by simp [openingShape, innerShape],
    by simp [endless], ?_⟩
  intro ending ended
  exact .gui repeated ended

end

theorem expressionStatement_sound {expression : Parser Expr}
    (sound : Sound expression (Derives .pipe)) {tokens rest : List PlacedToken} {value : Expr}
    (parsed : expression tokens = .ok (value, rest)) :
    ReadsCore tokens (.expression value (nextPosition tokens)) rest := by
  obtain ⟨used, rfl, endless, phrase⟩ := sound parsed
  cases used with
  | nil => exact absurd rfl phrase.ne_nil
  | cons head used =>
      obtain ⟨first, position⟩ := head
      refine ⟨(first, position) :: used, rfl, endless, ?_⟩
      intro ending ended
      exact .expression phrase ended

theorem statementCore_sound {rounds : Nat} {expression : Parser Expr}
    {statement : Parser Statement} (expressionSound : Sound expression (Derives .pipe))
    (statementSound : Sound statement DerivesStatement) {tokens rest : List PlacedToken}
    {found : Statement}
    (parsed : statementCore rounds expression statement tokens = .ok (found, rest)) :
    ReadsCore tokens found rest := by
  simp only [statementCore] at parsed
  split at parsed
  · exact binding_sound expressionSound parsed
  · exact function_sound statementSound parsed
  · exact gui_sound expressionSound parsed
  · obtain ⟨⟨value, behind⟩, valueRead, finished⟩ := bind_eq_ok parsed
    rename_i position tokens
    obtain ⟨used, rfl, endless, phrase⟩ := expressionSound valueRead
    cases finished
    refine ⟨(.keyword .returnWord, position) :: used, rfl, by simp [endless], ?_⟩
    intro ending ended
    exact .returning phrase ended
  · obtain ⟨⟨value, behind⟩, valueRead, finished⟩ := bind_eq_ok parsed
    cases finished
    exact expressionStatement_sound expressionSound valueRead

theorem statement_sound {rounds : Nat} (depth : Nat) :
    Sound (statement rounds depth) DerivesStatement := by
  induction depth with
  | zero => intro tokens found rest parsed; cases parsed
  | succ depth ih =>
      intro tokens found rest parsed
      simp only [statement] at parsed
      obtain ⟨⟨core, behind⟩, coreRead, finished⟩ := bind_eq_ok parsed
      obtain ⟨used, rfl, endless, phrase⟩ :=
        statementCore_sound (expression_sound depth) ih coreRead
      obtain ⟨ending, endingShape, endingEndless, ended⟩ := exists_ending behind
      cases finished
      refine ⟨used ++ ending, ?_, by simp [endless, endingEndless], phrase ending ended⟩
      simp only [List.append_assoc, ← endingShape]

/-- The loop over statements stops at the first end of input. -/
theorem statements_sound {one : Parser Statement} (sound : Sound one DerivesStatement)
    {last : Position} {rounds : Nat} {read : List Statement} {tokens : List PlacedToken}
    {program : Program} (parsed : statements one last rounds read tokens = .ok program) :
    ∃ body position rest found, tokens = body ++ (.endOfInput, position) :: rest ∧
      Endless body ∧ Repeated DerivesStatement body found ∧ program = read.reverse ++ found := by
  induction rounds generalizing read tokens with
  | zero =>
      cases tokens with
      | nil => cases parsed
      | cons head rest =>
          obtain ⟨token, position⟩ := head
          cases token with
          | endOfInput =>
              cases parsed
              exact ⟨[], position, rest, [], rfl, by simp, .none, by simp⟩
          | _ => cases parsed
  | succ rounds ih =>
      cases tokens with
      | nil => cases parsed
      | cons head rest =>
          obtain ⟨token, position⟩ := head
          by_cases ended : token = .endOfInput
          · subst ended
            cases parsed
            exact ⟨[], position, rest, [], rfl, by simp, .none, by simp⟩
          · rw [statements_step _ _ _ _ _ _ ended] at parsed
            obtain ⟨⟨found, behind⟩, first, onward⟩ := bind_eq_ok parsed
            obtain ⟨used, shape, endless, phrase⟩ := sound first
            obtain ⟨body, final, unread, others, split, bodyEndless, repeated, rfl⟩ := ih onward
            dsimp only at split
            refine ⟨used ++ body, final, unread, found :: others, ?_, by simp [endless, bodyEndless],
              .more phrase repeated, by simp⟩
            rw [shape, split, List.append_assoc]

end Parser

/-- A program that is read has an end of input, and the tokens before the first one are the
derivations of its statements, one behind the other. -/
theorem parse_sound {tokens : List PlacedToken} {program : Program}
    (parsed : parse tokens = .ok program) :
    ∃ body position rest, tokens = body ++ (.endOfInput, position) :: rest ∧
      (∀ token ∈ body, token.1 ≠ .endOfInput) ∧
      Grammar.Repeated Grammar.DerivesStatement body program := by
  unfold parse Parser.programWithin at parsed
  obtain ⟨_, _, read⟩ := Parser.bind_eq_ok parsed
  obtain ⟨body, position, rest, found, split, endless, repeated, rfl⟩ :=
    Parser.statements_sound (Parser.statement_sound _) read
  exact ⟨body, position, rest, split, endless, by simpa using repeated⟩

/-- The tokens of `f(a,).k == {k = a; k = 1}; }` with the end of input before the last one. -/
def calledTokens : List PlacedToken :=
  [(.identifier "f", ⟨1, 1⟩), (.symbol .openRound, ⟨1, 2⟩), (.identifier "a", ⟨1, 3⟩),
    (.symbol .comma, ⟨1, 4⟩), (.symbol .closeRound, ⟨1, 5⟩), (.symbol .dot, ⟨1, 6⟩),
    (.identifier "k", ⟨1, 7⟩), (.symbol .equals, ⟨1, 9⟩), (.symbol .openCurly, ⟨1, 12⟩),
    (.identifier "k", ⟨1, 13⟩), (.symbol .assign, ⟨1, 15⟩), (.identifier "a", ⟨1, 17⟩),
    (.symbol .semicolon, ⟨1, 18⟩), (.identifier "k", ⟨1, 20⟩), (.symbol .assign, ⟨1, 22⟩),
    (.integer 1, ⟨1, 24⟩), (.symbol .closeCurly, ⟨1, 25⟩), (.symbol .semicolon, ⟨1, 26⟩),
    (.endOfInput, ⟨1, 27⟩), (.symbol .closeCurly, ⟨1, 28⟩)]

/-- The program of these tokens. The second value of `k` has taken the place of the first. -/
def calledProgram : Program :=
  [.expression
    (.binary .equal (.access (.call "f" [.name "a" ⟨1, 3⟩] ⟨1, 1⟩) "k" ⟨1, 6⟩)
      (.record [("k", .integer 1 ⟨1, 24⟩)] ⟨1, 12⟩) ⟨1, 9⟩) ⟨1, 1⟩]

theorem parse_sound_calledTokens :
    ∃ body position rest, calledTokens = body ++ (.endOfInput, position) :: rest ∧
      (∀ token ∈ body, token.1 ≠ .endOfInput) ∧
      Grammar.Repeated Grammar.DerivesStatement body calledProgram :=
  have read : parse calledTokens = .ok calledProgram := by rfl
  parse_sound read

end WindowScript
