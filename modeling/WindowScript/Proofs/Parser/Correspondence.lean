import WindowScript.Parser.Program
import WindowScript.Proofs.Program.Relocation

/-!
# Parsers side by side

The parsers are put together from a few: those of single tokens, sequences, and items between
delimiters. A relation between replies that agrees with these passes from two parsers of nested
expressions and statements to the parsers that are built on them. The tokens of the second parser
may stand elsewhere than those of the first, and what is left of the tokens may be known to keep
some property. Some relations look at one of the replies only.

What is said of every parser in other words, such as the phrases that it reads, is no such
relation and has its own lemma for each of them.
-/

set_option autoImplicit false

namespace WindowScript

/-- Tokens with their positions replaced by their images. -/
def relocateTokens (move : Position → Position) (tokens : List PlacedToken) : List PlacedToken :=
  tokens.map (Prod.map id move)

@[simp] theorem relocateTokens_nil (move : Position → Position) :
    relocateTokens move [] = [] := rfl

@[simp] theorem relocateTokens_cons (move : Position → Position) (token : Token)
    (position : Position) (rest : List PlacedToken) :
    relocateTokens move ((token, position) :: rest) =
      (token, move position) :: relocateTokens move rest := rfl

@[simp] theorem length_relocateTokens (move : Position → Position) (tokens : List PlacedToken) :
    (relocateTokens move tokens).length = tokens.length := List.length_map _

namespace Parser

/-- A relation between the replies of two parsers, the second of which is given the tokens of the
first with their positions moved. The `image` of a result is that result with its positions
moved. -/
structure Correspondence where
  move : Position → Position
  /-- What is known of the tokens that are left. -/
  Keeps : List PlacedToken → Prop
  /-- Where the parts of an interface may miss a token. -/
  Misses : Position → Prop
  Rel : {α β : Type} → (α → β) → Except ParseError (α × List PlacedToken) →
    Except ParseError (β × List PlacedToken) → Prop
  nowhere : move .nowhere = .nowhere
  behind : ∀ {token : Token} {position : Position} {rest : List PlacedToken},
    token ≠ .endOfInput → Keeps ((token, position) :: rest) → Keeps rest
  interface : ∀ {position : Position} {rest : List PlacedToken},
    Keeps ((.keyword .gui, position) :: rest) → Misses position
  ok : ∀ {α β : Type} {rest : List PlacedToken} (image : α → β) (found : α), Keeps rest →
    Rel image (.ok (found, rest)) (.ok (image found, relocateTokens move rest))
  bind : ∀ {α β γ δ : Type} {image : α → β} {result : γ → δ}
      {one : Except ParseError (α × List PlacedToken)}
      {other : Except ParseError (β × List PlacedToken)}
      {next : α × List PlacedToken → Except ParseError (γ × List PlacedToken)}
      {further : β × List PlacedToken → Except ParseError (δ × List PlacedToken)},
    Rel image one other →
    (∀ found rest, Keeps rest →
      Rel result (next (found, rest)) (further (image found, relocateTokens move rest))) →
    Rel result (one >>= next) (other >>= further)
  refuse : ∀ {α β : Type} {tokens : List PlacedToken} (image : α → β) (expected : Expectation),
    Keeps tokens →
    Rel image (Parser.refuse expected tokens) (Parser.refuse expected (relocateTokens move tokens))
  callTarget : ∀ {α β : Type} {token : Token} {position : Position} {rest : List PlacedToken}
      (image : α → β), Keeps ((token, position) :: rest) →
    Rel image (.error ⟨.invalidCallTarget, position⟩) (.error ⟨.invalidCallTarget, move position⟩)
  missing : ∀ {α β : Type} {position : Position} (image : α → β), Misses position → Keeps [] →
    Rel image (.error ⟨.unexpectedEnd, position⟩) (.error ⟨.unexpectedEnd, move position⟩)

namespace Correspondence

variable (alike : Correspondence)

/-- Two parsers reply alike to all tokens of which enough is known. -/
def Follows {α β : Type} (image : α → β) (one : Parser α) (other : Parser β) : Prop :=
  ∀ ⦃tokens⦄, alike.Keeps tokens →
    alike.Rel image (one tokens) (other (relocateTokens alike.move tokens))

/-!
## Single tokens and sequences
-/

theorem nextPosition_relocate (tokens : List PlacedToken) :
    nextPosition (relocateTokens alike.move tokens) = alike.move (nextPosition tokens) := by
  cases tokens with
  | nil => exact alike.nowhere.symm
  | cons head rest => rfl

section

variable {move : Position → Position}

theorem startsWith_relocate (mark : Symbol) (tokens : List PlacedToken) :
    startsWith mark (relocateTokens move tokens) = startsWith mark tokens := by
  cases tokens with
  | nil => rfl
  | cons head rest =>
      obtain ⟨token, position⟩ := head
      cases token <;> rfl

theorem tail_relocate (tokens : List PlacedToken) :
    (relocateTokens move tokens).tail = relocateTokens move tokens.tail := by
  cases tokens with
  | nil => rfl
  | cons head rest => rfl

theorem skipSemicolon_relocate (tokens : List PlacedToken) :
    skipSemicolon (relocateTokens move tokens) = relocateTokens move (skipSemicolon tokens) := by
  cases tokens with
  | nil => rfl
  | cons head rest =>
      obtain ⟨token, position⟩ := head
      cases token with
      | symbol mark => cases mark <;> rfl
      | _ => rfl

end

variable {alike}

theorem keeps_tail {tokens : List PlacedToken} {mark : Symbol}
    (starts : startsWith mark tokens = true) (keeps : alike.Keeps tokens) :
    alike.Keeps tokens.tail := by
  cases tokens with
  | nil => cases starts
  | cons head rest =>
      obtain ⟨token, position⟩ := head
      cases token with
      | symbol found => exact alike.behind (by simp) keeps
      | _ => cases starts

theorem keeps_skipSemicolon {tokens : List PlacedToken} (keeps : alike.Keeps tokens) :
    alike.Keeps (skipSemicolon tokens) := by
  unfold skipSemicolon
  split
  · exact alike.behind (by simp) keeps
  · exact keeps

variable (alike)

theorem skipped {α β : Type} (image : α → β) (found : α) {tokens : List PlacedToken}
    (keeps : alike.Keeps tokens) :
    alike.Rel image (.ok (found, skipSemicolon tokens))
      (.ok (image found, skipSemicolon (relocateTokens alike.move tokens))) := by
  rw [skipSemicolon_relocate]
  exact alike.ok image found (keeps_skipSemicolon keeps)

theorem symbol (mark : Symbol) :
    alike.Follows alike.move (Parser.symbol mark) (Parser.symbol mark) := by
  intro tokens keeps
  have refused := alike.refuse alike.move (.symbol mark) keeps
  cases tokens with
  | nil => exact refused
  | cons head rest =>
      obtain ⟨token, position⟩ := head
      cases token with
      | symbol found =>
          simp only [Parser.symbol, relocateTokens_cons]
          split
          · exact alike.ok alike.move position (alike.behind (by simp) keeps)
          · exact refused
      | _ => exact refused

theorem identifier : alike.Follows id Parser.identifier Parser.identifier := by
  intro tokens keeps
  have refused := alike.refuse (id : String → String) .identifier keeps
  cases tokens with
  | nil => exact refused
  | cons head rest =>
      obtain ⟨token, position⟩ := head
      cases token with
      | identifier name => exact alike.ok id name (alike.behind (by simp) keeps)
      | _ => exact refused

theorem word (expected : Expectation) :
    alike.Follows id (Parser.word expected) (Parser.word expected) := by
  intro tokens keeps
  have refused := alike.refuse (id : String → String) expected keeps
  cases tokens with
  | nil => exact refused
  | cons head rest =>
      obtain ⟨token, position⟩ := head
      simp only [Parser.word, relocateTokens_cons]
      cases spelled : token.word? with
      | none => exact refused
      | some name =>
          have going : token ≠ .endOfInput := by
            rintro rfl
            cases spelled
          exact alike.ok id name (alike.behind going keeps)

section

variable {alike} {α β : Type} {image : α → β} {item : Parser α} {moved : Parser β}

theorem separated (follows : alike.Follows image item moved) (closing : Symbol) (rounds : Nat)
    (items : List α) :
    alike.Follows (List.map image) (Parser.separated item closing rounds items)
      (Parser.separated moved closing rounds (items.map image)) := by
  induction rounds generalizing items with
  | zero => exact fun tokens keeps => alike.refuse _ (.commaOr closing) keeps
  | succ rounds ih =>
      intro tokens keeps
      simp only [Parser.separated, startsWith_relocate, tail_relocate]
      split
      · next closes =>
          rw [← List.map_reverse]
          exact alike.ok _ _ (keeps_tail closes keeps)
      · refine alike.bind (follows keeps) fun found rest keeps => ?_
        simp only [startsWith_relocate, tail_relocate]
        split
        · next comma => exact ih (found :: items) (keeps_tail comma keeps)
        · split
          · next closes =>
              rw [← List.map_cons, ← List.map_reverse]
              exact alike.ok _ _ (keeps_tail closes keeps)
          · exact alike.refuse _ (.commaOr closing) keeps

theorem delimited (follows : alike.Follows image item moved) (closing : Symbol) (rounds : Nat)
    (items : List α) :
    alike.Follows (List.map image) (Parser.delimited item closing rounds items)
      (Parser.delimited moved closing rounds (items.map image)) := by
  induction rounds generalizing items with
  | zero => exact fun tokens keeps => alike.refuse _ (.symbol closing) keeps
  | succ rounds ih =>
      intro tokens keeps
      simp only [Parser.delimited, startsWith_relocate, tail_relocate]
      split
      · next closes =>
          rw [← List.map_reverse]
          exact alike.ok _ _ (keeps_tail closes keeps)
      · exact alike.bind (follows keeps) fun found rest keeps => ih (found :: items) keeps

end

/-!
## Expressions
-/

abbrev entry : String × Expr → String × Expr := Prod.map id (Expr.relocate alike.move)

/-- Joining two expressions keeps the position of the operator apart from its operands. -/
theorem join_relocate {move : Position → Position} {level : Level} {token : Token}
    {join : Expr → Expr → Position → Expr} (joined : level.join? token = some join)
    (left right : Expr) (position : Position) :
    (join left right position).relocate move =
      join (left.relocate move) (right.relocate move) (move position) := by
  unfold Level.join? at joined
  split at joined
  · split at joined
    · cases joined
      rfl
    · cases joined
  · split at joined
    · split at joined
      · cases joined
        rfl
      · cases joined
    · cases joined

section

variable {alike} {one other : Parser Expr}
  (follows : alike.Follows (Expr.relocate alike.move) one other)

include follows

theorem recordEntry : alike.Follows alike.entry (Parser.recordEntry one)
    (Parser.recordEntry other) := by
  intro tokens keeps
  refine alike.bind (alike.word .attributeNameOrEnd keeps) fun name rest keeps => ?_
  refine alike.bind (alike.symbol .assign keeps) fun sign rest keeps => ?_
  refine alike.bind (follows keeps) fun value rest keeps => ?_
  exact alike.skipped alike.entry (name, value) keeps

theorem primary (rounds : Nat) :
    alike.Follows (Expr.relocate alike.move) (Parser.primary rounds one)
      (Parser.primary rounds other) := by
  intro tokens keeps
  have refused := alike.refuse (Expr.relocate alike.move) .expression keeps
  cases tokens with
  | nil => exact refused
  | cons head rest =>
      obtain ⟨token, position⟩ := head
      by_cases going : token = .endOfInput
      · subst going
        exact refused
      have later := alike.behind going keeps
      have single (found : Expr) := alike.ok (Expr.relocate alike.move) found later
      cases token with
      | integer value => exact single (.integer value position)
      | real value => exact single (.real value position)
      | text value => exact single (.text value position)
      | identifier name => exact single (.name name position)
      | keyword word =>
          cases word with
          | trueWord => exact single (.boolean true position)
          | falseWord => exact single (.boolean false position)
          | _ => exact refused
      | symbol mark =>
          cases mark with
          | openRound =>
              refine alike.bind (follows later) fun inner rest keeps => ?_
              refine alike.bind (alike.symbol .closeRound keeps) fun closing rest keeps => ?_
              exact alike.ok _ inner keeps
          | openCurly =>
              refine alike.bind (delimited (recordEntry follows) .closeCurly rounds [] later)
                fun entries rest keeps => ?_
              have read := alike.ok (Expr.relocate alike.move)
                (.record (Attributes.ofEntries entries) position) keeps
              rw [Expr.relocate, Expr.relocateEntries_eq, Attributes.relocate_ofEntries] at read
              exact read
          | openSquare =>
              refine alike.bind (separated follows .closeSquare rounds [] later)
                fun items rest keeps => ?_
              have read := alike.ok (Expr.relocate alike.move) (.list items position) keeps
              rw [Expr.relocate, Expr.relocateItems_eq] at read
              exact read
          | _ => exact refused
      | _ => exact refused

theorem suffixes (rounds more : Nat) (node : Expr) :
    alike.Follows (Expr.relocate alike.move) (Parser.suffixes rounds one more node)
      (Parser.suffixes rounds other more (node.relocate alike.move)) := by
  induction more generalizing node with
  | zero => exact fun tokens keeps => alike.ok _ node keeps
  | succ more ih =>
      intro tokens keeps
      have stopped := alike.ok (Expr.relocate alike.move) node keeps
      cases tokens with
      | nil => exact stopped
      | cons head rest =>
          obtain ⟨token, position⟩ := head
          cases token with
          | symbol mark =>
              have later := alike.behind (by simp) keeps
              cases mark with
              | dot =>
                  refine alike.bind (alike.word .attributeName later) fun key rest keeps => ?_
                  exact ih (.access node key position) keeps
              | openRound =>
                  cases node with
                  | name callee origin =>
                      refine alike.bind (separated follows .closeRound rounds [] later)
                        fun arguments rest keeps => ?_
                      have called := ih (.call callee arguments origin) keeps
                      rw [Expr.relocate, Expr.relocateItems_eq] at called
                      exact called
                  | _ => exact alike.callTarget _ keeps
              | _ => exact stopped
          | _ => exact stopped

theorem applied (rounds : Nat) :
    alike.Follows (Expr.relocate alike.move) (Parser.applied rounds one)
      (Parser.applied rounds other) := by
  intro tokens keeps
  refine alike.bind (primary follows rounds keeps) fun node rest keeps => ?_
  exact suffixes follows rounds rounds node keeps

theorem chain (level : Level) (more : Nat) (left : Expr) :
    alike.Follows (Expr.relocate alike.move) (Parser.chain level one more left)
      (Parser.chain level other more (left.relocate alike.move)) := by
  induction more generalizing left with
  | zero => exact fun tokens keeps => alike.ok _ left keeps
  | succ more ih =>
      intro tokens keeps
      cases tokens with
      | nil => exact alike.ok _ left keeps
      | cons head rest =>
          obtain ⟨token, position⟩ := head
          simp only [relocateTokens_cons, Parser.chain]
          cases joined : level.join? token with
          | none => exact alike.ok _ left keeps
          | some join =>
              have going : token ≠ .endOfInput := by
                rintro rfl
                cases joined
              refine alike.bind (follows (alike.behind going keeps)) fun right rest keeps => ?_
              have grown := ih (join left right position) keeps
              rw [join_relocate joined] at grown
              exact grown

theorem levels (rounds : Nat) (chosen : List Level) :
    alike.Follows (Expr.relocate alike.move) (Parser.levels rounds one chosen)
      (Parser.levels rounds other chosen) := by
  induction chosen with
  | nil => exact applied follows rounds
  | cons level tighter ih =>
      intro tokens keeps
      refine alike.bind (ih keeps) fun left rest keeps => ?_
      exact chain ih level rounds left keeps

/-!
## Statements
-/

theorem attributes (rounds : Nat) :
    alike.Follows (Attributes.relocate alike.move) (Parser.attributes rounds one)
      (Parser.attributes rounds other) := by
  have entry : alike.Follows alike.entry (attributeEntry one) (attributeEntry other) := by
    intro tokens keeps
    refine alike.bind (alike.word .attributeName keeps) fun name rest keeps => ?_
    refine alike.bind (alike.symbol .colon keeps) fun colon rest keeps => ?_
    refine alike.bind (follows keeps) fun value rest keeps => ?_
    exact alike.ok alike.entry (name, value) keeps
  intro tokens keeps
  refine alike.bind (alike.symbol .openRound keeps) fun opening rest keeps => ?_
  refine alike.bind (separated entry .closeRound rounds [] keeps) fun entries rest keeps => ?_
  have read := alike.ok (Attributes.relocate alike.move) (Attributes.ofEntries entries) keeps
  rw [Attributes.relocate_ofEntries] at read
  exact read

theorem widget (rounds : Nat) :
    alike.Follows (Widget.relocate alike.move) (Parser.widget rounds one)
      (Parser.widget rounds other) := by
  intro tokens keeps
  have refused := alike.refuse (Widget.relocate alike.move) .widget keeps
  cases tokens with
  | nil => exact refused
  | cons head rest =>
      obtain ⟨token, position⟩ := head
      cases token with
      | widget kind =>
          refine alike.bind (attributes follows rounds (alike.behind (by simp) keeps))
            fun entries rest keeps => ?_
          exact alike.skipped (Widget.relocate alike.move) ⟨kind, entries, position⟩ keeps
      | _ => exact refused

theorem window (rounds : Nat) (position : Position) :
    alike.Follows (Window.relocate alike.move) (Parser.window rounds one position)
      (Parser.window rounds other (alike.move position)) := by
  intro tokens keeps
  refine alike.bind (attributes follows rounds keeps) fun entries rest keeps => ?_
  refine alike.bind (alike.symbol .openCurly keeps) fun opening rest keeps => ?_
  refine alike.bind (delimited (widget follows rounds) .closeCurly rounds [] keeps)
    fun children rest keeps => ?_
  exact alike.ok (Window.relocate alike.move) ⟨entries, children, position⟩ keeps

theorem element (rounds : Nat) {origin : Position} (misses : alike.Misses origin) :
    alike.Follows (Element.relocate alike.move) (Parser.element rounds one origin)
      (Parser.element rounds other (alike.move origin)) := by
  intro tokens keeps
  have refused := alike.refuse (Element.relocate alike.move) .element keeps
  cases tokens with
  | nil => exact alike.missing _ misses keeps
  | cons head rest =>
      obtain ⟨token, position⟩ := head
      cases token with
      | keyword word =>
          cases word with
          | window =>
              refine alike.bind (window follows rounds position (alike.behind (by simp) keeps))
                fun found rest keeps => ?_
              exact alike.ok (Element.relocate alike.move) (.window found) keeps
          | _ => exact refused
      | widget kind =>
          refine alike.bind (widget follows rounds keeps) fun found rest keeps => ?_
          exact alike.ok (Element.relocate alike.move) (.widget found) keeps
      | _ => exact refused

theorem binding (position : Position) :
    alike.Follows (Statement.relocate alike.move) (Parser.binding one position)
      (Parser.binding other (alike.move position)) := by
  intro tokens keeps
  refine alike.bind (alike.identifier keeps) fun name rest keeps => ?_
  refine alike.bind (alike.symbol .assign keeps) fun sign rest keeps => ?_
  refine alike.bind (follows keeps) fun value rest keeps => ?_
  exact alike.ok (Statement.relocate alike.move) (.binding name value position) keeps

theorem gui (rounds : Nat) {position : Position} (misses : alike.Misses position) :
    alike.Follows (Statement.relocate alike.move) (Parser.gui rounds one position)
      (Parser.gui rounds other (alike.move position)) := by
  intro tokens keeps
  refine alike.bind (alike.identifier keeps) fun name rest keeps => ?_
  refine alike.bind (alike.symbol .openCurly keeps) fun opening rest keeps => ?_
  refine alike.bind (delimited (element follows rounds misses) .closeCurly rounds [] keeps)
    fun elements rest keeps => ?_
  exact alike.ok (Statement.relocate alike.move) (.gui ⟨name, elements, position⟩) keeps

omit follows in
theorem function {one other : Parser Statement}
    (follows : alike.Follows (Statement.relocate alike.move) one other) (rounds : Nat)
    (position : Position) :
    alike.Follows (Statement.relocate alike.move) (Parser.function rounds one position)
      (Parser.function rounds other (alike.move position)) := by
  intro tokens keeps
  refine alike.bind (alike.identifier keeps) fun name rest keeps => ?_
  refine alike.bind (alike.symbol .openRound keeps) fun opening rest keeps => ?_
  refine alike.bind (separated alike.identifier .closeRound rounds [] keeps)
    fun parameters rest keeps => ?_
  refine alike.bind (alike.symbol .openCurly keeps) fun bodyOpening rest keeps => ?_
  refine alike.bind (delimited follows .closeCurly rounds [] keeps) fun body rest keeps => ?_
  have read := alike.ok (Statement.relocate alike.move)
    (.function name parameters body position) keeps
  rw [Statement.relocate, Statement.relocateAll_eq] at read
  rw [List.map_id]
  exact read

/-- Statements are read alike when the expressions and the statements inside of them are. -/
theorem statementCore {inside otherInside : Parser Statement}
    (followsInside : alike.Follows (Statement.relocate alike.move) inside otherInside)
    (rounds : Nat) :
    alike.Follows (Statement.relocate alike.move) (Parser.statementCore rounds one inside)
      (Parser.statementCore rounds other otherInside) := by
  intro tokens keeps
  -- An expression statement takes the position of its first token, which moves with it.
  have plain : alike.Rel (Statement.relocate alike.move)
      (one tokens >>= fun answer =>
        .ok (Statement.expression answer.1 (nextPosition tokens), answer.2))
      (other (relocateTokens alike.move tokens) >>= fun answer =>
        .ok (Statement.expression answer.1 (nextPosition (relocateTokens alike.move tokens)),
          answer.2)) := by
    refine alike.bind (follows keeps) fun value rest keeps => ?_
    rw [alike.nextPosition_relocate]
    exact alike.ok (Statement.relocate alike.move) (.expression value (nextPosition tokens)) keeps
  cases tokens with
  | nil => exact plain
  | cons head rest =>
      obtain ⟨token, position⟩ := head
      cases token with
      | keyword word =>
          have later := alike.behind (by simp) keeps
          cases word with
          | letWord => exact binding follows position later
          | func => exact function followsInside rounds position later
          | gui => exact gui follows rounds (alike.interface keeps) later
          | returnWord =>
              refine alike.bind (follows later) fun value rest keeps => ?_
              exact alike.ok (Statement.relocate alike.move) (.returning value position) keeps
          | _ => exact plain
      | _ => exact plain

end

/-- Parsers with as many levels of nesting reply alike when they do so where they have none. -/
theorem expression
    (exhausted : ∀ {α β : Type} {tokens : List PlacedToken} (image : α → β), alike.Keeps tokens →
      alike.Rel image (.error ⟨.nestingTooDeep, nextPosition tokens⟩)
        (.error ⟨.nestingTooDeep, nextPosition (relocateTokens alike.move tokens)⟩))
    (rounds depth : Nat) :
    alike.Follows (Expr.relocate alike.move) (Parser.expression rounds depth)
      (Parser.expression rounds depth) := by
  induction depth with
  | zero => exact fun tokens keeps => exhausted _ keeps
  | succ depth ih => exact levels ih rounds Level.all

theorem statement
    (exhausted : ∀ {α β : Type} {tokens : List PlacedToken} (image : α → β), alike.Keeps tokens →
      alike.Rel image (.error ⟨.nestingTooDeep, nextPosition tokens⟩)
        (.error ⟨.nestingTooDeep, nextPosition (relocateTokens alike.move tokens)⟩))
    (rounds depth : Nat) :
    alike.Follows (Statement.relocate alike.move) (Parser.statement rounds depth)
      (Parser.statement rounds depth) := by
  induction depth with
  | zero => exact fun tokens keeps => exhausted _ keeps
  | succ depth ih =>
      intro tokens keeps
      have core := statementCore (alike.expression exhausted rounds depth) ih rounds keeps
      exact alike.bind core fun found rest keeps => alike.skipped _ found keeps

end Correspondence

/-!
## One parser alone
-/

/-- What is known of a reply: of the tokens that it leaves, or of its failure. -/
def Accounts {α : Type} (Keeps : List PlacedToken → Prop) (Fails : ParseError → Prop) :
    Except ParseError (α × List PlacedToken) → Prop
  | .ok (_, rest) => Keeps rest
  | .error failure => Fails failure

/-- A relation between replies that looks at the first of them only. -/
structure Account where
  Keeps : List PlacedToken → Prop
  Misses : Position → Prop
  Fails : ParseError → Prop
  behind : ∀ {token : Token} {position : Position} {rest : List PlacedToken},
    token ≠ .endOfInput → Keeps ((token, position) :: rest) → Keeps rest
  interface : ∀ {position : Position} {rest : List PlacedToken},
    Keeps ((.keyword .gui, position) :: rest) → Misses position
  refuse : ∀ {α : Type} {tokens : List PlacedToken} (expected : Expectation), Keeps tokens →
    Accounts Keeps Fails (Parser.refuse expected tokens : Except ParseError (α × List PlacedToken))
  callTarget : ∀ {token : Token} {position : Position} {rest : List PlacedToken},
    Keeps ((token, position) :: rest) → Fails ⟨.invalidCallTarget, position⟩
  missing : ∀ {position : Position}, Misses position → Keeps [] → Fails ⟨.unexpectedEnd, position⟩
  exhausted : ∀ {tokens : List PlacedToken}, Keeps tokens →
    Fails ⟨.nestingTooDeep, nextPosition tokens⟩

namespace Account

variable (account : Account)

def correspondence : Correspondence where
  move := id
  Keeps := account.Keeps
  Misses := account.Misses
  Rel _ reply _ := Accounts account.Keeps account.Fails reply
  nowhere := id_eq _
  behind := account.behind
  interface := account.interface
  ok _ _ keeps := keeps
  bind {_ _ _ _ _ _ reply _ _ _} accounts onward := by
    cases reply with
    | ok answer => exact onward answer.1 answer.2 accounts
    | error failure => exact accounts
  refuse _ expected keeps := account.refuse expected keeps
  callTarget _ keeps := account.callTarget keeps
  missing _ misses keeps := account.missing misses keeps

theorem statement (rounds depth : Nat) {tokens : List PlacedToken} (keeps : account.Keeps tokens) :
    Accounts account.Keeps account.Fails (Parser.statement rounds depth tokens) :=
  account.correspondence.statement (fun _ keeps => account.exhausted keeps) rounds depth keeps

end Account

end Parser

end WindowScript
