import WindowScript.Proofs.Parser.ExpressionRoundTrip
import WindowScript.Proofs.Parser.Recognizer
import WindowScript.Proofs.Parser.Soundness

/-!
# The recognizer and the parsers of expressions

A parser does what the recognizer does from the place where the parser begins: it fails at the
same token with the same fault, or the recognizer goes on at the place behind what has been
read. Here this is shown of single tokens, of sequences and of expressions. The levels of
nesting that a parser may use are those that the recognizer has left.
-/

set_option autoImplicit false

namespace WindowScript

/-- A failure without the position that is given to the end of the tokens, which depends on
the parser that came to it. -/
def ParseError.endNowhere : ParseError → ParseError
  | ⟨.unexpectedEnd, _⟩ => ⟨.unexpectedEnd, .nowhere⟩
  | failure => failure

theorem ParseError.endNowhere_eq {failure : ParseError}
    (early : failure.cause ≠ .unexpectedEnd) : failure.endNowhere = failure := by
  obtain ⟨cause, position⟩ := failure
  cases cause <;> first | rfl | exact absurd rfl early

def Expr.isName : Expr → Bool
  | .name _ _ => true
  | _ => false

namespace Recognizer

open WindowScript.Parser

section

variable {limit : Nat} {α β : Type}

/-- What the recognizer makes of the reply of a parser, behind which it goes on. -/
def conclude (limit : Nat) (after : α → State) :
    Except ParseError (α × List PlacedToken) → Except ParseError Unit
  | .ok (found, rest) => run limit (after found) rest
  | .error failure => .error failure.endNowhere

/-- The recognizer comes to the same as a parser of `tokens` with this reply. -/
structure Follows (limit : Nat) (tokens : List PlacedToken) (outcome : Except ParseError Unit)
    (reply : Except ParseError (α × List PlacedToken)) (after : α → State) : Prop where
  agrees : outcome = conclude limit after reply
  within : ∀ {found rest}, reply = .ok (found, rest) → rest.length ≤ tokens.length

namespace Follows

variable {tokens rest : List PlacedToken} {outcome : Except ParseError Unit}
  {reply : Except ParseError (α × List PlacedToken)} {after : α → State}

theorem ok (found : α) (after : α → State) (rest : List PlacedToken) :
    Follows limit rest (run limit (after found) rest) (.ok (found, rest)) after :=
  ⟨rfl, by rintro _ _ ⟨⟩; exact Nat.le_refl _⟩

private theorem tail (found : α) (after : α → State) (tokens : List PlacedToken) :
    Follows limit tokens (run limit (after found) tokens.tail) (.ok (found, tokens.tail)) after :=
  ⟨rfl, by rintro _ _ ⟨⟩; simp⟩

private theorem mono (follows : Follows limit rest outcome reply after)
    (later : rest.length ≤ tokens.length) : Follows limit tokens outcome reply after :=
  ⟨follows.agrees, fun read => Nat.le_trans (follows.within read) later⟩

theorem bind (first : Follows limit tokens outcome reply after)
    {next : α × List PlacedToken → Except ParseError (β × List PlacedToken)} {final : β → State}
    (onward : ∀ found rest, reply = .ok (found, rest) → rest.length ≤ tokens.length →
      Follows limit rest (run limit (after found) rest) (next (found, rest)) final) :
    Follows limit tokens outcome (reply >>= next) final := by
  obtain ⟨agrees, within⟩ := first
  cases reply with
  | error failure => exact ⟨agrees, by rintro _ _ ⟨⟩⟩
  | ok answer =>
      obtain ⟨found, rest⟩ := answer
      have step := onward found rest rfl (within rfl)
      exact (⟨agrees.trans step.agrees, step.within⟩ : Follows limit rest outcome _ final).mono
        (within rfl)

end Follows

/-!
## Single tokens
-/

private theorem proceed_onSymbol (mark : Symbol) (next : State) (otherwise : Choice)
    (tokens : List PlacedToken) :
    proceed limit (onSymbol mark next otherwise) tokens =
      if startsWith mark tokens then run limit next tokens.tail
      else proceed limit otherwise tokens := by
  cases tokens with
  | nil => rfl
  | cons head rest =>
      obtain ⟨token, position⟩ := head
      cases token with
      | symbol found =>
          by_cases same : found = mark
          · simp [proceed, onSymbol, startsWith, same, run]
          · simp [proceed, onSymbol, startsWith, same]
      | _ => rfl

theorem refused_follows (limit : Nat) (expected : Expectation) (after : α → State)
    (tokens : List PlacedToken) :
    Follows limit tokens (proceed limit (refused expected) tokens) (refuse expected tokens)
      after := by
  cases tokens with
  | nil => exact ⟨rfl, by rintro _ _ ⟨⟩⟩
  | cons head rest => exact ⟨rfl, by rintro _ _ ⟨⟩⟩

/-- A token that is read goes on in the next state. -/
theorem reads_follows {choice : Choice} {token : Token} {next : State}
    (reads : choice (some token) = .reads next) (position : Position) (rest : List PlacedToken)
    {reply : Except ParseError (α × List PlacedToken)} {after : α → State}
    (follows : Follows limit rest (run limit next rest) reply after) :
    Follows limit ((token, position) :: rest) (proceed limit choice ((token, position) :: rest))
      reply after := by
  have moved : proceed limit choice ((token, position) :: rest) = run limit next rest := by
    simp only [proceed, reads, run]
  rw [moved]
  exact follows.mono (Nat.le_succ _)

theorem symbol_follows (mark : Symbol) (next : State) (tokens : List PlacedToken) :
    Follows limit tokens (proceed limit (onSymbol mark next (refused (.symbol mark))) tokens)
      (symbol mark tokens) fun _ => next := by
  rw [proceed_onSymbol]
  have refusal := refused_follows limit (.symbol mark) (fun _ : Position => next) tokens
  cases tokens with
  | nil => exact refusal
  | cons head rest =>
      obtain ⟨token, position⟩ := head
      cases token with
      | symbol found =>
          by_cases same : found = mark
          · simp only [startsWith, symbol, same, decide_true, if_true]
            exact (Follows.ok position (fun _ => next) rest).mono (Nat.le_succ _)
          · simpa only [startsWith, symbol, same, decide_false, Bool.false_eq_true, if_false]
              using refusal
      | _ => exact refusal

theorem identifier_follows (next : State) (tokens : List PlacedToken) :
    Follows limit tokens (proceed limit (onIdentifier next) tokens) (identifier tokens)
      fun _ => next := by
  have refusal := refused_follows limit .identifier (fun _ : String => next) tokens
  cases tokens with
  | nil => exact refusal
  | cons head rest =>
      obtain ⟨token, position⟩ := head
      cases token with
      | identifier name => exact reads_follows rfl position rest (.ok name (fun _ => next) rest)
      | _ => exact refusal

theorem word_follows (expected : Expectation) (next : State) (tokens : List PlacedToken) :
    Follows limit tokens (proceed limit (onWord expected next) tokens) (word expected tokens)
      fun _ => next := by
  have refusal := refused_follows limit expected (fun _ : String => next) tokens
  cases tokens with
  | nil => exact refusal
  | cons head rest =>
      obtain ⟨token, position⟩ := head
      cases spelled : token.word? with
      | none =>
          simpa only [proceed, onWord, Option.bind_some, spelled, word] using refusal
      | some name =>
          simp only [word, spelled]
          refine reads_follows ?_ position rest (.ok name (fun _ => next) rest)
          simp only [onWord, Option.bind_some, spelled]

/-- One semicolon may be passed over where it leads to the same state. -/
theorem run_skipSemicolon {state next : State}
    (passes : step limit state = onSymbol .semicolon next (step limit next))
    (tokens : List PlacedToken) :
    run limit state tokens = run limit next (skipSemicolon tokens) := by
  unfold run
  rw [passes, proceed_onSymbol]
  cases tokens with
  | nil => rfl
  | cons head rest =>
      obtain ⟨token, position⟩ := head
      cases token with
      | symbol mark => cases mark <;> rfl
      | _ => rfl

theorem skipSemicolon_follows {state : State} (found : α) (after : α → State)
    (passes : step limit state = onSymbol .semicolon (after found) (step limit (after found)))
    (tokens : List PlacedToken) :
    Follows limit tokens (run limit state tokens) (.ok (found, skipSemicolon tokens)) after := by
  rw [run_skipSemicolon passes]
  refine (Follows.ok found after (skipSemicolon tokens)).mono ?_
  unfold skipSemicolon
  split <;> simp

/-!
## Sequences

A sequence of items is read in rounds, and each of them reads a token. So the rounds do not run
out before the tokens.
-/

def Shortens (parser : Parser α) : Prop :=
  ∀ ⦃tokens found rest⦄, parser tokens = .ok (found, rest) → rest.length < tokens.length

theorem shortens_of_sound {parser : Parser α} {Phrase : List PlacedToken → α → Prop}
    (sound : Sound parser Phrase) (nonempty : ∀ {tokens found}, Phrase tokens found → tokens ≠ []) :
    Shortens parser := by
  intro tokens found rest read
  obtain ⟨used, rfl, _, phrase⟩ := sound read
  have positive := List.length_pos_iff.mpr (nonempty phrase)
  rw [List.length_append]
  omega

section

variable {item : Parser α} {start : State} (done : State) {begin : Choice} {closing : Symbol}
  {bound : Nat}

/-- What follows an item of a sequence with commas. -/
theorem separated_follows (shortens : Shortens item) {behind : State}
    (atStart : step limit start = onSymbol closing done begin)
    (atEnd : step limit behind =
      onSymbol .comma start (onSymbol closing done (refused (.commaOr closing))))
    (items : ∀ {tokens : List PlacedToken}, tokens.length < bound →
      Follows limit tokens (proceed limit begin tokens) (item tokens) fun _ => behind)
    {rounds : Nat} (read : List α) {tokens : List PlacedToken} (short : tokens.length < bound)
    (enough : tokens.length < rounds) :
    Follows limit tokens (run limit start tokens) (separated item closing rounds read tokens)
      fun _ => done := by
  induction rounds generalizing read tokens with
  | zero => exact absurd enough (Nat.not_lt_zero _)
  | succ rounds ih =>
      unfold run
      rw [atStart, proceed_onSymbol, separated]
      split
      · exact .tail _ (fun _ => done) tokens
      refine (items short).bind ?_
      intro found rest parsed later
      have shorter := shortens parsed
      unfold run
      rw [atEnd, proceed_onSymbol, proceed_onSymbol]
      dsimp only
      split
      · have tail : rest.tail.length ≤ rest.length := by simp
        exact (ih (found :: read) (by omega) (by omega)).mono tail
      split
      · exact .tail _ (fun _ => done) rest
      · exact refused_follows _ _ _ _

theorem delimited_follows (shortens : Shortens item)
    (atStart : step limit start = onSymbol closing done begin)
    (items : ∀ {tokens : List PlacedToken}, tokens.length < bound →
      Follows limit tokens (proceed limit begin tokens) (item tokens) fun _ => start)
    {rounds : Nat} (read : List α) {tokens : List PlacedToken} (short : tokens.length < bound)
    (enough : tokens.length < rounds) :
    Follows limit tokens (run limit start tokens) (delimited item closing rounds read tokens)
      fun _ => done := by
  induction rounds generalizing read tokens with
  | zero => exact absurd enough (Nat.not_lt_zero _)
  | succ rounds ih =>
      unfold run
      rw [atStart, proceed_onSymbol, delimited]
      split
      · exact .tail _ (fun _ => done) tokens
      refine (items short).bind ?_
      intro found rest parsed later
      have shorter := shortens parsed
      exact ih (found :: read) (by omega) (by omega)

end

end

/-!
## Expressions
-/

/-- A parser of expressions that does what the recognizer does at the first token of an
expression, as long as the tokens are fewer than `rounds`. -/
def FollowsExpressions (limit rounds : Nat) (nested : Parser Expr) (around : Surroundings) : Prop :=
  ∀ {tokens : List PlacedToken}, tokens.length < rounds →
    Follows limit tokens (proceed limit (onExpression limit around) tokens) (nested tokens)
      fun node => around.ended node.isName

section

variable {limit rounds : Nat} {nested : Parser Expr} {around : Surroundings}

private theorem recordEntry_follows (alone : Bool)
    (inner : FollowsExpressions limit rounds nested (around.enclose ⟨.record, alone⟩))
    {tokens : List PlacedToken} (short : tokens.length < rounds) :
    Follows limit tokens
      (proceed limit (onWord .attributeNameOrEnd (.inside around (.sign alone))) tokens)
      (recordEntry nested tokens) fun _ => .inside around (.entry alone) := by
  refine (word_follows _ _ _).bind ?_
  intro name rest _ later
  refine (symbol_follows _ _ _).bind ?_
  intro sign rest _ later
  refine (inner (by omega)).bind ?_
  intro value rest _ later
  exact skipSemicolon_follows (name, value) (fun _ => .inside around (.entry alone)) rfl rest

private theorem shortens_recordEntry (sound : Sound nested (Grammar.Derives .pipe)) :
    Shortens (recordEntry nested) :=
  shortens_of_sound (recordEntry_sound sound) (by rintro _ _ ⟨_, _, _⟩; simp)

variable (sound : Sound nested (Grammar.Derives .pipe))
  (inner : ∀ frame, FollowsExpressions limit rounds nested (around.enclose frame))

include sound inner

private theorem primary_follows (alone : Bool) {tokens : List PlacedToken}
    (short : tokens.length < rounds) :
    Follows limit tokens (proceed limit (onOperand around alone) tokens)
      (primary rounds nested tokens) fun node => .inside around (.behind node.isName alone) := by
  have literal {token : Token} (node : Expr) (position : Position) (rest : List PlacedToken)
      (reads : onOperand around alone (some token) =
        .reads (.inside around (.behind node.isName alone))) :
      Follows limit ((token, position) :: rest)
        (proceed limit (onOperand around alone) ((token, position) :: rest)) (.ok (node, rest))
        fun node => .inside around (.behind node.isName alone) :=
    reads_follows reads position rest
      (.ok node (fun node => .inside around (.behind node.isName alone)) rest)
  have refusal := refused_follows limit .expression
    (fun node : Expr => .inside around (.behind node.isName alone)) tokens
  cases tokens with
  | nil => exact refusal
  | cons head rest =>
      obtain ⟨token, position⟩ := head
      rw [List.length_cons] at short
      cases token with
      | integer value => exact literal (.integer value position) position rest rfl
      | real value => exact literal (.real value position) position rest rfl
      | text value => exact literal (.text value position) position rest rfl
      | identifier name => exact literal (.name name position) position rest rfl
      | keyword word =>
          cases word with
          | trueWord => exact literal (.boolean true position) position rest rfl
          | falseWord => exact literal (.boolean false position) position rest rfl
          | _ => exact refusal
      | symbol mark =>
          cases mark with
          | openRound =>
              refine reads_follows rfl position rest ((inner ⟨.group, alone⟩ (by omega)).bind ?_)
              intro node rest _ later
              refine (symbol_follows _ _ _).bind ?_
              intro closing rest _ later
              exact .ok node (fun node => .inside around (.behind node.isName alone)) rest
          | openCurly =>
              have entries := delimited_follows (.inside around (.behind false alone))
                (shortens_recordEntry sound) rfl
                (recordEntry_follows alone (inner ⟨.record, alone⟩)) []
                (by omega : rest.length < rounds) (by omega : rest.length < rounds)
              refine reads_follows rfl position rest (entries.bind ?_)
              intro entries rest _ later
              exact .ok (Expr.record _ _)
                (fun node => .inside around (.behind node.isName alone)) rest
          | openSquare =>
              have items := separated_follows (.inside around (.behind false alone))
                (shortens_of_sound sound Grammar.Derives.ne_nil) rfl rfl
                (inner ⟨.items .list, alone⟩) []
                (by omega : rest.length < rounds) (by omega : rest.length < rounds)
              refine reads_follows rfl position rest (items.bind ?_)
              intro items rest _ later
              exact .ok (Expr.list _ _)
                (fun node => .inside around (.behind node.isName alone)) rest
          | _ => exact refusal
      | _ => exact refusal

/-- Behind an operand, attributes and calls are read as long as there are any. -/
theorem suffixes_follows (alone : Bool) {more : Nat} (node : Expr) {tokens : List PlacedToken}
    (short : tokens.length < rounds) (enough : tokens.length < more) :
    Follows limit tokens (run limit (.inside around (.behind node.isName alone)) tokens)
      (suffixes rounds nested more node tokens) fun node =>
        .inside around (.behind node.isName alone) := by
  induction more generalizing node tokens with
  | zero => exact absurd enough (Nat.not_lt_zero _)
  | succ more ih =>
      have stays : Follows limit tokens _ (.ok (node, tokens))
          fun node => .inside around (.behind node.isName alone) := .ok node _ tokens
      cases tokens with
      | nil => exact stays
      | cons head rest =>
          obtain ⟨token, position⟩ := head
          rw [List.length_cons] at short enough
          cases token with
          | symbol mark =>
              cases mark with
              | dot =>
                  refine reads_follows rfl position rest ((word_follows _ _ _).bind ?_)
                  intro key rest _ later
                  exact ih (.access node key position) (by omega) (by omega)
              | openRound =>
                  cases node with
                  | name callee origin =>
                      have arguments := separated_follows (.inside around (.behind false alone))
                        (shortens_of_sound sound Grammar.Derives.ne_nil) rfl rfl
                        (inner ⟨.items .call, alone⟩) []
                        (by omega : rest.length < rounds) (by omega : rest.length < rounds)
                      refine reads_follows rfl position rest (arguments.bind ?_)
                      intro arguments rest _ later
                      exact ih (.call callee arguments origin) (by omega) (by omega)
                  | _ => exact ⟨rfl, by rintro _ _ ⟨⟩⟩
              | _ => exact stays
          | _ => exact stays

private theorem applied_follows (alone : Bool) {tokens : List PlacedToken}
    (short : tokens.length < rounds) :
    Follows limit tokens (proceed limit (onOperand around alone) tokens)
      (applied rounds nested tokens) fun node => .inside around (.behind node.isName alone) := by
  refine (primary_follows sound inner alone short).bind ?_
  intro node rest _ later
  exact suffixes_follows sound inner alone node (by omega) (by omega)

omit inner in
private theorem stops_of_suffixes {more : Nat} {node found : Expr} {tokens rest : List PlacedToken}
    (enough : tokens.length < more)
    (read : suffixes rounds nested more node tokens = .ok (found, rest)) : Stops [] rest := by
  induction more generalizing node tokens with
  | zero => exact absurd enough (Nat.not_lt_zero _)
  | succ more ih =>
      cases tokens with
      | nil => cases read; trivial
      | cons head behind =>
          obtain ⟨token, position⟩ := head
          rw [List.length_cons] at enough
          cases token with
          | symbol mark =>
              cases mark with
              | dot =>
                  obtain ⟨⟨key, later⟩, keyRead, onward⟩ := bind_eq_ok read
                  obtain ⟨_, _, rfl, _⟩ := word_eq_ok keyRead
                  exact ih (by rw [List.length_cons] at enough; omega) onward
              | openRound =>
                  cases node with
                  | name callee origin =>
                      obtain ⟨⟨arguments, later⟩, argumentsRead, onward⟩ := bind_eq_ok read
                      obtain ⟨inside, _, _, rfl, _⟩ := separated_eq_ok sound argumentsRead
                      simp only [List.length_append, List.length_cons] at enough
                      exact ih (by omega) onward
                  | _ => cases read
              | _ => cases read; simp [Stops]
          | _ => cases read; simp [Stops]

end

/-!
Operators are read level by level, but the recognizer does not tell the levels apart. In front
of what stops the tighter levels it stands behind an operand, and an operator of whatever level
leads to the next one.
-/

/-- The recognizer stands behind the last operand of an expression, in front of what stops the
chosen levels. It knows whether the expression is a plain name with no operator before it. -/
def Arrives (limit : Nat) (around : Surroundings) (alone : Bool) (chosen : List Level)
    (tokens : List PlacedToken) (outcome : Except ParseError Unit) :
    Except ParseError (Expr × List PlacedToken) → Prop
  | .ok (node, rest) =>
      rest.length ≤ tokens.length ∧ Stops chosen rest ∧
        ∃ callable single, (callable && single) = (node.isName && alone) ∧
          outcome = run limit (.inside around (.behind callable single)) rest
  | .error failure => outcome = .error failure.endNowhere

private theorem onSuffix_of_join {level : Level} {token : Token}
    {join : Expr → Expr → Position → Expr} (joined : level.join? token = some join) (limit : Nat)
    (around : Surroundings)
    (callable alone : Bool) :
    onSuffix limit around callable alone (some token) = .reads (.inside around .operand) := by
  cases token with
  | symbol mark =>
      cases mark with
      | pipe | plus | minus | star | slash | equals => rfl
      | _ => cases joined
  | _ => cases joined

private theorem isName_join {level : Level} {token : Token} {join : Expr → Expr → Position → Expr}
    (joined : level.join? token = some join) (left right : Expr) (position : Position) :
    (join left right position).isName = false := by
  unfold Level.join? at joined
  split at joined
  · split at joined <;> cases joined
    rfl
  · split at joined
    · split at joined <;> cases joined
      rfl
    · cases joined

private theorem chain_arrives {limit rounds : Nat} {around : Surroundings} {alone : Bool}
    {level : Level} {tighter : List Level} {operand : Parser Expr}
    (operands : ∀ {tokens : List PlacedToken}, tokens.length < rounds →
      Arrives limit around false tighter tokens (proceed limit (onOperand around false) tokens)
        (operand tokens))
    {more : Nat} {left : Expr} {callable single : Bool} {tokens : List PlacedToken}
    (known : (callable && single) = (left.isName && alone)) (stops : Stops tighter tokens)
    (short : tokens.length < rounds) (enough : tokens.length ≤ more) :
    Arrives limit around alone (level :: tighter) tokens
      (run limit (.inside around (.behind callable single)) tokens)
      (chain level operand more left tokens) := by
  induction more generalizing left callable single tokens with
  | zero =>
      obtain rfl := List.length_eq_zero_iff.mp (Nat.le_zero.mp enough)
      exact ⟨Nat.le_refl _, trivial, callable, single, known, rfl⟩
  | succ more ih =>
      cases tokens with
      | nil => exact ⟨Nat.le_refl _, trivial, callable, single, known, rfl⟩
      | cons head rest =>
          obtain ⟨token, position⟩ := head
          rw [List.length_cons] at short enough
          cases joined : level.join? token with
          | none =>
              simp only [chain, joined]
              obtain ⟨noDot, noCall, noJoin⟩ := stops
              exact ⟨Nat.le_refl _, ⟨noDot, noCall, List.forall_mem_cons.mpr ⟨joined, noJoin⟩⟩,
                callable, single, known, rfl⟩
          | some join =>
              have moved : run limit (.inside around (.behind callable single))
                  ((token, position) :: rest) = proceed limit (onOperand around false) rest := by
                simp only [run, proceed, step, onSuffix_of_join joined, innerStep]
              have arrived := operands (show rest.length < rounds by omega)
              simp only [chain, joined, moved]
              cases read : operand rest with
              | error failure =>
                  rw [read] at arrived
                  exact arrived
              | ok answer =>
                  obtain ⟨right, behind⟩ := answer
                  rw [read] at arrived
                  obtain ⟨later, stopped, callable, single, known, arrived⟩ := arrived
                  have joinedKnown : (callable && single) =
                      ((join left right position).isName && alone) := by
                    rw [isName_join joined, known, Bool.and_false, Bool.false_and]
                  have onward := ih joinedKnown stopped (by omega) (by omega)
                  rw [arrived]
                  revert onward
                  simp only [bind, Except.bind]
                  cases chain level operand more (join left right position) behind with
                  | error failure => exact id
                  | ok answer =>
                      rintro ⟨further, rest⟩
                      exact ⟨Nat.le_trans further (by rw [List.length_cons]; omega), rest⟩

section

variable {limit rounds : Nat} {nested : Parser Expr} {around : Surroundings}
  (sound : Sound nested (Grammar.Derives .pipe))
  (inner : ∀ frame, FollowsExpressions limit rounds nested (around.enclose frame))

include sound inner

private theorem levels_arrives (chosen : List Level) (alone : Bool) {tokens : List PlacedToken}
    (short : tokens.length < rounds) :
    Arrives limit around alone chosen tokens (proceed limit (onOperand around alone) tokens)
      (levels rounds nested chosen tokens) := by
  induction chosen generalizing alone tokens with
  | nil =>
      obtain ⟨agrees, within⟩ := applied_follows sound inner alone short
      rw [agrees, levels]
      cases read : applied rounds nested tokens with
      | error failure => rfl
      | ok answer =>
          obtain ⟨node, rest⟩ := answer
          obtain ⟨⟨first, behind⟩, firstRead, onward⟩ := bind_eq_ok read
          have later : behind.length < rounds := by
            obtain ⟨used, rfl, _⟩ := primary_sound sound firstRead
            rw [List.length_append] at short
            omega
          exact ⟨within read, stops_of_suffixes sound later onward, node.isName, alone, rfl, rfl⟩
  | cons level tighter ih =>
      have first := ih alone short
      simp only [levels]
      cases read : levels rounds nested tighter tokens with
      | error failure =>
          rw [read] at first
          exact first
      | ok answer =>
          obtain ⟨left, rest⟩ := answer
          rw [read] at first
          obtain ⟨later, stops, callable, single, known, arrived⟩ := first
          rw [arrived]
          have onward : Arrives limit around alone (level :: tighter) rest _
              (chain level (levels rounds nested tighter) rounds left rest) :=
            chain_arrives (ih false) known stops (by omega) (by omega)
          revert onward
          simp only [bind, Except.bind]
          cases chain level (levels rounds nested tighter) rounds left rest with
          | error failure => exact id
          | ok answer =>
              rintro ⟨further, behind⟩
              exact ⟨Nat.le_trans further later, behind⟩

end

/-- No expression ends behind an operand of the expression around it. -/
theorem step_ended (limit : Nat) (around : Surroundings) (callable : Bool) :
    step limit (around.ended callable) = innerStep limit (around.ended callable) := by
  obtain ⟨bodies, role, frames⟩ := around
  cases frames with
  | nil => cases role <;> rfl
  | cons frame frames =>
      obtain ⟨bracket, alone⟩ := frame
      cases bracket <;> rfl

private theorem onSuffix_of_stops {token : Token} {position : Position} {rest : List PlacedToken}
    (stops : Stops Level.all ((token, position) :: rest)) (limit : Nat) (around : Surroundings)
    (callable alone : Bool) :
    onSuffix limit around callable alone (some token) =
      step limit (around.ended (callable && alone)) (some token) := by
  rw [step_ended]
  obtain ⟨noDot, noCall, noJoin⟩ := stops
  cases token with
  | symbol mark =>
      cases mark with
      | dot => exact absurd rfl noDot
      | openRound => exact absurd rfl noCall
      | pipe => exact absurd (noJoin .pipeline (by decide)) (by simp [Level.join?])
      | equals => exact absurd (noJoin .equality (by decide)) (by simp [Level.join?, Token.operator?,
          Symbol.operator?, Operator.level])
      | plus | minus => exact absurd (noJoin .sum (by decide)) (by simp [Level.join?, Token.operator?,
          Symbol.operator?, Operator.level])
      | star | slash => exact absurd (noJoin .product (by decide)) (by simp [Level.join?,
          Token.operator?, Symbol.operator?, Operator.level])
      | _ => rfl
  | _ => rfl

/-- An expression ends before what stops all levels. -/
theorem run_of_stops {rest : List PlacedToken} (stops : Stops Level.all rest) (limit : Nat)
    (around : Surroundings) (callable alone : Bool) :
    run limit (.inside around (.behind callable alone)) rest =
      run limit (around.ended (callable && alone)) rest := by
  cases rest with
  | nil =>
      unfold run
      rw [step_ended]
      rfl
  | cons head rest =>
      obtain ⟨token, position⟩ := head
      simp only [run, proceed, step, onSuffix_of_stops stops]

theorem expression_follows {limit rounds : Nat} (depth : Nat) {around : Surroundings}
    (room : around.active + depth = limit) :
    FollowsExpressions limit rounds (expression rounds depth) around := by
  induction depth generalizing around with
  | zero =>
      intro tokens short
      have full : onExpression limit around = fun _ => .fails .nestingTooDeep := by
        funext token?
        exact if_pos (by omega)
      rw [full]
      cases tokens <;> exact ⟨rfl, by rintro _ _ ⟨⟩⟩
  | succ depth ih =>
      intro tokens short
      have begins : onExpression limit around = onOperand around true := by
        funext token?
        exact if_neg (by omega)
      have inner (frame : Frame) :
          FollowsExpressions limit rounds (expression rounds depth) (around.enclose frame) :=
        ih (by simp only [Surroundings.active, Surroundings.enclose, List.length_cons] at room ⊢
               omega)
      have arrives := levels_arrives (expression_sound depth) inner Level.all true short
      rw [begins, expression]
      cases read : levels rounds (expression rounds depth) Level.all tokens with
      | error failure =>
          rw [read] at arrives
          exact ⟨arrives, by rintro _ _ ⟨⟩⟩
      | ok answer =>
          obtain ⟨node, rest⟩ := answer
          rw [read] at arrives
          obtain ⟨later, stops, callable, single, known, arrived⟩ := arrives
          rw [arrived, run_of_stops stops, known, Bool.and_true]
          exact (Follows.ok node (fun node => around.ended node.isName) rest).mono later

end Recognizer

end WindowScript
