import WindowScript.Parser.Program

/-!
# Recognizing programs token by token

A recognizer reads the tokens of a program one after the other and builds no nodes. Between
two tokens it keeps only what is open: the bodies of functions, the interface and the list of
attributes, and the delimiters of the expressions that stand inside each other. From this it
tells for the next token whether it may follow, and the fault where it may not.
-/

set_option autoImplicit false

namespace WindowScript.Recognizer

/-- What items with commas between them belong to in an expression. -/
inductive Items where
  | list | call
deriving DecidableEq, Repr

def Items.closing : Items → Symbol
  | .list => .closeSquare
  | .call => .closeRound

/-- A delimiter that is open in an expression. -/
inductive Bracket where
  | group
  | items (kind : Items)
  | record
deriving DecidableEq, Repr

/-- A delimiter that is open in an operand of an expression. The operand stands alone when
no operator comes before it. -/
structure Frame where
  bracket : Bracket
  alone : Bool
deriving DecidableEq, Repr

/-- What a list of attributes belongs to. A child is a widget in a window. -/
inductive Owner where
  | window | widget | child
deriving DecidableEq, Repr

/-- What the outermost expression at some place belongs to. -/
inductive Role where
  | statement
  | attributeOf (owner : Owner)
deriving DecidableEq, Repr

/-- What is open around an expression: the bodies of functions, and the delimiters of the
expressions that it stands in, from the innermost. -/
structure Surroundings where
  bodies : Nat
  role : Role
  frames : List Frame
deriving DecidableEq, Repr

/-- A place in an expression. An operand is callable when it is a plain name. -/
inductive Point where
  | start
  | operand
  | key (alone : Bool)
  | behind (callable alone : Bool)
  | groupEnd (callable alone : Bool)
  | item (kind : Items) (alone : Bool)
  | itemEnd (kind : Items) (alone : Bool)
  | entry (alone : Bool)
  | sign (alone : Bool)
  | entryEnd (alone : Bool)
deriving DecidableEq, Repr

/-- A place outside of every expression. -/
inductive Outline where
  | statement | ending
  | bindingName | bindingSign
  | functionName | functionOpen | parameter | parameterEnd | bodyOpen
  | guiName | guiOpen | element
  | attributesOpen (owner : Owner) | attributeName (owner : Owner) | attributeSign (owner : Owner)
  | attributeEnd (owner : Owner)
  | windowOpen | child | widgetEnd | childEnd
deriving DecidableEq, Repr

/-- What is kept between two tokens. -/
inductive State where
  | outside (bodies : Nat) (point : Outline)
  | inside (around : Surroundings) (point : Point)
deriving DecidableEq, Repr

/-- Before the first token. -/
def State.initial : State := .outside 0 .statement

namespace Surroundings

def enclose (around : Surroundings) (frame : Frame) : Surroundings :=
  { around with frames := frame :: around.frames }

/-- Behind an expression, which is `callable` when it is a plain name. -/
def ended (around : Surroundings) (callable : Bool) : State :=
  match around.frames with
  | [] =>
      match around.role with
      | .statement => .outside around.bodies .ending
      | .attributeOf owner => .outside around.bodies (.attributeEnd owner)
  | ⟨.group, alone⟩ :: frames => .inside { around with frames } (.groupEnd callable alone)
  | ⟨.items kind, alone⟩ :: frames => .inside { around with frames } (.itemEnd kind alone)
  | ⟨.record, alone⟩ :: frames => .inside { around with frames } (.entryEnd alone)

/-- How many statements and expressions have begun around an expression and not ended. -/
def active (around : Surroundings) : Nat := around.bodies + 1 + around.frames.length

end Surroundings

/-!
## Moves
-/

/-- What comes of the next token: it is read, the program ends before it, or it is at fault. -/
inductive Move where
  | reads (next : State)
  | finishes
  | fails (cause : ParseCause)

/-- What comes of the next token, or of the end of the tokens. -/
abbrev Choice := Option Token → Move

def refused (expected : Expectation) : Choice
  | some found => .fails (.unexpectedToken expected found)
  | none => .fails .unexpectedEnd

def onSymbol (mark : Symbol) (next : State) (otherwise : Choice) : Choice
  | some (.symbol found) =>
      if found = mark then .reads next else otherwise (some (.symbol found))
  | token? => otherwise token?

def onIdentifier (next : State) : Choice
  | some (.identifier _) => .reads next
  | token? => refused .identifier token?

def onWord (expected : Expectation) (next : State) : Choice := fun token? =>
  match token?.bind Token.word? with
  | some _ => .reads next
  | none => refused expected token?

/-- A literal, a name or an opening delimiter. -/
def onOperand (around : Surroundings) (alone : Bool) : Choice
  | some (.integer _) | some (.real _) | some (.text _) | some (.keyword .trueWord)
  | some (.keyword .falseWord) => .reads (.inside around (.behind false alone))
  | some (.identifier _) => .reads (.inside around (.behind true alone))
  | some (.symbol .openRound) => .reads (.inside (around.enclose ⟨.group, alone⟩) .start)
  | some (.symbol .openCurly) => .reads (.inside around (.entry alone))
  | some (.symbol .openSquare) => .reads (.inside around (.item .list alone))
  | token? => refused .expression token?

/-- The first token of an expression, unless `limit` statements and expressions have begun
already and not ended. -/
def onExpression (limit : Nat) (around : Surroundings) : Choice := fun token? =>
  if limit ≤ around.active then .fails .nestingTooDeep else onOperand around true token?

/-- The word of a statement, or the first token of an expression. -/
def onStatementCore (limit bodies : Nat) : Choice
  | some (.keyword .letWord) => .reads (.outside bodies .bindingName)
  | some (.keyword .func) => .reads (.outside bodies .functionName)
  | some (.keyword .gui) => .reads (.outside bodies .guiName)
  | some (.keyword .returnWord) => .reads (.inside ⟨bodies, .statement, []⟩ .start)
  | token? => onExpression limit ⟨bodies, .statement, []⟩ token?

/-- The first token of a statement, under the same limit. -/
def onStatement (limit bodies : Nat) : Choice := fun token? =>
  if limit ≤ bodies then .fails .nestingTooDeep else onStatementCore limit bodies token?

/-- The next statement or the end of the program. -/
def onProgram (limit : Nat) : Choice
  | some .endOfInput => .finishes
  | none => .fails .unexpectedEnd
  | token? => onStatement limit 0 token?

/-- The next statement, or the end of the program or of the innermost body. -/
def onBlock (limit : Nat) : Nat → Choice
  | 0 => onProgram limit
  | bodies + 1 =>
      onSymbol .closeCurly (.outside bodies .ending) (onStatement limit (bodies + 1))

/-- The word of a widget that belongs to an interface or to a window. -/
def onWidget (bodies : Nat) (owner : Owner) : Choice
  | some (.widget _) => .reads (.outside bodies (.attributesOpen owner))
  | token? => refused .widget token?

def onElement (bodies : Nat) : Choice
  | some (.keyword .window) => .reads (.outside bodies (.attributesOpen .window))
  | some (.widget _) => .reads (.outside bodies (.attributesOpen .widget))
  | token? => refused .element token?

/-- Behind a list of attributes. -/
def attributed : Owner → Outline
  | .window => .windowOpen
  | .widget => .widgetEnd
  | .child => .childEnd

namespace Outline

def choice (limit bodies : Nat) : Outline → Choice
  | .statement => onBlock limit bodies
  | .ending => onSymbol .semicolon (.outside bodies .statement) (onBlock limit bodies)
  | .bindingName => onIdentifier (.outside bodies .bindingSign)
  | .bindingSign =>
      onSymbol .assign (.inside ⟨bodies, .statement, []⟩ .start) (refused (.symbol .assign))
  | .functionName => onIdentifier (.outside bodies .functionOpen)
  | .functionOpen =>
      onSymbol .openRound (.outside bodies .parameter) (refused (.symbol .openRound))
  | .parameter =>
      onSymbol .closeRound (.outside bodies .bodyOpen) (onIdentifier (.outside bodies .parameterEnd))
  | .parameterEnd =>
      onSymbol .comma (.outside bodies .parameter)
        (onSymbol .closeRound (.outside bodies .bodyOpen) (refused (.commaOr .closeRound)))
  | .bodyOpen =>
      onSymbol .openCurly (.outside (bodies + 1) .statement) (refused (.symbol .openCurly))
  | .guiName => onIdentifier (.outside bodies .guiOpen)
  | .guiOpen => onSymbol .openCurly (.outside bodies .element) (refused (.symbol .openCurly))
  | .element => onSymbol .closeCurly (.outside bodies .ending) (onElement bodies)
  | .attributesOpen owner =>
      onSymbol .openRound (.outside bodies (.attributeName owner)) (refused (.symbol .openRound))
  | .attributeName owner =>
      onSymbol .closeRound (.outside bodies (attributed owner))
        (onWord .attributeName (.outside bodies (.attributeSign owner)))
  | .attributeSign owner =>
      onSymbol .colon (.inside ⟨bodies, .attributeOf owner, []⟩ .start) (refused (.symbol .colon))
  | .attributeEnd owner =>
      onSymbol .comma (.outside bodies (.attributeName owner))
        (onSymbol .closeRound (.outside bodies (attributed owner)) (refused (.commaOr .closeRound)))
  | .windowOpen => onSymbol .openCurly (.outside bodies .child) (refused (.symbol .openCurly))
  | .child => onSymbol .closeCurly (.outside bodies .element) (onWidget bodies .child)
  | .widgetEnd =>
      onSymbol .semicolon (.outside bodies .element)
        (onSymbol .closeCurly (.outside bodies .ending) (onElement bodies))
  | .childEnd =>
      onSymbol .semicolon (.outside bodies .child)
        (onSymbol .closeCurly (.outside bodies .element) (onWidget bodies .child))

end Outline

/-- The next entry of a record, or its end. -/
def onEntry (around : Surroundings) (alone : Bool) : Choice :=
  onSymbol .closeCurly (.inside around (.behind false alone))
    (onWord .attributeNameOrEnd (.inside around (.sign alone)))

/-- What comes of the next token at every place but that behind an operand, where an
expression can end. -/
def innerStep (limit : Nat) : State → Choice
  | .outside bodies point => point.choice limit bodies
  | .inside around .start => onExpression limit around
  | .inside around .operand => onOperand around false
  | .inside around (.key alone) => onWord .attributeName (.inside around (.behind false alone))
  | .inside around (.groupEnd callable alone) =>
      onSymbol .closeRound (.inside around (.behind callable alone)) (refused (.symbol .closeRound))
  | .inside around (.item kind alone) =>
      onSymbol kind.closing (.inside around (.behind false alone))
        (onExpression limit (around.enclose ⟨.items kind, alone⟩))
  | .inside around (.itemEnd kind alone) =>
      onSymbol .comma (.inside around (.item kind alone))
        (onSymbol kind.closing (.inside around (.behind false alone))
          (refused (.commaOr kind.closing)))
  | .inside around (.entry alone) => onEntry around alone
  | .inside around (.sign alone) =>
      onSymbol .assign (.inside (around.enclose ⟨.record, alone⟩) .start) (refused (.symbol .assign))
  | .inside around (.entryEnd alone) =>
      onSymbol .semicolon (.inside around (.entry alone)) (onEntry around alone)
  | .inside _ (.behind _ _) => refused .expression

/-- Whether a token joins the operand before it with another one. -/
def joins (token : Token) : Bool := Level.all.any fun level => (level.join? token).isSome

/-- Behind an operand: an attribute, a call, an operator, or what comes behind the expression. -/
def onSuffix (limit : Nat) (around : Surroundings) (callable alone : Bool) : Choice
  | some (.symbol .dot) => .reads (.inside around (.key alone))
  | some (.symbol .openRound) =>
      if callable then .reads (.inside around (.item .call alone))
      else .fails .invalidCallTarget
  | token? =>
      if token?.any joins then .reads (.inside around .operand)
      else innerStep limit (around.ended (callable && alone)) token?

/-- What comes of the next token when no more than `limit` statements and expressions may have
begun and not ended. -/
def step (limit : Nat) : State → Choice
  | .inside around (.behind callable alone) => onSuffix limit around callable alone
  | state => innerStep limit state

/-- Reads tokens, the first of them by `choice`, up to the end of the program or to a fault. -/
def proceed (limit : Nat) : Choice → List PlacedToken → Except ParseError Unit
  | choice, [] =>
      match choice none with
      | .fails cause => .error ⟨cause, .nowhere⟩
      | _ => .error ⟨.unexpectedEnd, .nowhere⟩
  | choice, (token, position) :: rest =>
      match choice (some token) with
      | .reads next => proceed limit (step limit next) rest
      | .finishes => .ok ()
      | .fails cause => .error ⟨cause, position⟩

def run (limit : Nat) (state : State) (tokens : List PlacedToken) : Except ParseError Unit :=
  proceed limit (step limit state) tokens

/-- The state behind some tokens, unless one of them is not read. -/
def after? (limit : Nat) : State → List PlacedToken → Option State
  | state, [] => some state
  | state, (token, _) :: rest =>
      match step limit state (some token) with
      | .reads next => after? limit next rest
      | _ => none

/-!
## What is open
-/

/-- The delimiters that are open around a widget or window. -/
def Owner.delimiters : Owner → Nat
  | .window | .widget => 1
  | .child => 2

def Role.delimiters : Role → Nat
  | .statement => 0
  | .attributeOf owner => owner.delimiters + 1

def Surroundings.delimiters (around : Surroundings) : Nat :=
  around.bodies + around.role.delimiters + around.frames.length

def Point.delimiters : Point → Nat
  | .start | .operand | .key _ | .behind _ _ => 0
  | .groupEnd _ _ | .item _ _ | .itemEnd _ _ | .entry _ | .sign _ | .entryEnd _ => 1

def Outline.delimiters : Outline → Nat
  | .parameter | .parameterEnd | .element | .windowOpen | .widgetEnd => 1
  | .child | .childEnd => 2
  | .attributesOpen owner => owner.delimiters
  | .attributeName owner | .attributeSign owner | .attributeEnd owner => owner.delimiters + 1
  | _ => 0

namespace State

/-- How many delimiters are open. -/
def delimiters : State → Nat
  | .outside bodies point => bodies + point.delimiters
  | .inside around point => around.delimiters + point.delimiters

@[simp]
theorem delimiters_initial : initial.delimiters = 0 := rfl

/-- How many statements and expressions have begun and not ended. Where one is due it has not
begun yet. -/
def active : State → Nat
  | .outside bodies .statement => bodies
  | .outside bodies _ => bodies + 1
  | .inside around .start => around.active
  | .inside around _ => around.active + 1

/-- One delimiter for each expression around another, and for each function around a
statement. -/
theorem active_le (state : State) : state.active ≤ state.delimiters + 2 := by
  cases state with
  | outside bodies point => cases point <;> simp only [active, delimiters] <;> omega
  | inside around point =>
      cases point <;>
        simp only [active, delimiters, Surroundings.active, Surroundings.delimiters] <;> omega

end State

/-- Only behind an operand there is more than one thing to do. -/
theorem step_cases (limit : Nat) (state : State) :
    (∃ around callable alone, state = .inside around (.behind callable alone)) ∨
      step limit state = innerStep limit state := by
  cases state with
  | outside bodies point => exact .inr rfl
  | inside around point =>
      cases point with
      | behind callable alone => exact .inl ⟨around, callable, alone, rfl⟩
      | _ => exact .inr rfl

/-!
## Runs
-/

theorem run_cons {limit : Nat} {state next : State} {token : Token}
    (reads : step limit state (some token) = .reads next) (position : Position)
    (rest : List PlacedToken) :
    run limit state ((token, position) :: rest) = run limit next rest := by
  simp only [run, proceed, reads]

theorem run_append {limit : Nat} {state reached : State} {used : List PlacedToken}
    (read : after? limit state used = some reached) (rest : List PlacedToken) :
    run limit state (used ++ rest) = run limit reached rest := by
  induction used generalizing state with
  | nil =>
      cases read
      rfl
  | cons head used ih =>
      obtain ⟨token, position⟩ := head
      rw [after?] at read
      split at read
      · next next reads => rw [List.cons_append, run_cons reads, ih read]
      · cases read

/-- A run that fails, and not for want of tokens, has read the tokens before the one at fault. -/
theorem exists_fault {limit : Nat} {state : State} {tokens : List PlacedToken}
    {failure : ParseError} (failed : run limit state tokens = .error failure)
    (early : failure.cause ≠ .unexpectedEnd) :
    ∃ used rest reached, tokens = used ++ rest ∧ after? limit state used = some reached ∧
      step limit reached (rest.head?.map Prod.fst) = .fails failure.cause ∧
      failure.position = Parser.nextPosition rest := by
  induction tokens generalizing state with
  | nil =>
      refine ⟨[], [], state, rfl, rfl, ?_⟩
      unfold run proceed at failed
      split at failed
      · next cause fails =>
        cases failed
        exact ⟨fails, rfl⟩
      · cases failed
        exact absurd rfl early
  | cons head rest ih =>
      obtain ⟨token, position⟩ := head
      cases moved : step limit state (some token) with
      | reads next =>
          rw [run_cons moved] at failed
          obtain ⟨used, behind, reached, rfl, read, fails, placed⟩ := ih failed
          refine ⟨(token, position) :: used, behind, reached, rfl, ?_, fails, placed⟩
          simp only [after?, moved, read]
      | finishes =>
          simp only [run, proceed, moved] at failed
          cases failed
      | fails cause =>
          simp only [run, proceed, moved] at failed
          cases failed
          exact ⟨[], (token, position) :: rest, state, rfl, rfl, moved, rfl⟩

/-- All of the tokens are read, or one of them is not. -/
theorem after?_or_exists (limit : Nat) (state : State) (tokens : List PlacedToken) :
    (∃ reached, after? limit state tokens = some reached) ∨
      ∃ used token position rest reached, tokens = used ++ (token, position) :: rest ∧
        after? limit state used = some reached ∧
        ∀ next, step limit reached (some token) ≠ .reads next := by
  induction tokens generalizing state with
  | nil => exact .inl ⟨state, rfl⟩
  | cons head rest ih =>
      obtain ⟨token, position⟩ := head
      cases moved : step limit state (some token) with
      | reads next =>
          simp only [after?, moved]
          refine (ih next).imp_right ?_
          rintro ⟨used, other, place, behind, reached, rfl, read, stuck⟩
          refine ⟨(token, position) :: used, other, place, behind, reached, rfl, ?_, stuck⟩
          simp only [after?, moved]
          exact read
      | _ =>
          refine .inr ⟨[], token, position, rest, state, rfl, rfl, ?_⟩
          simp [moved]

private theorem innerStep_none (limit : Nat) (state : State) :
    innerStep limit state none = .fails .unexpectedEnd ∨
      innerStep limit state none = .fails .nestingTooDeep := by
  have expression (around : Surroundings) : onExpression limit around none = .fails .unexpectedEnd ∨
      onExpression limit around none = .fails .nestingTooDeep := by
    unfold onExpression
    split
    · exact .inr rfl
    · exact .inl rfl
  have statement (bodies : Nat) : onStatement limit bodies none = .fails .unexpectedEnd ∨
      onStatement limit bodies none = .fails .nestingTooDeep := by
    unfold onStatement
    split
    · exact .inr rfl
    · exact expression ⟨bodies, .statement, []⟩
  have block (bodies : Nat) : onBlock limit bodies none = .fails .unexpectedEnd ∨
      onBlock limit bodies none = .fails .nestingTooDeep := by
    cases bodies with
    | zero => exact .inl rfl
    | succ bodies => exact statement (bodies + 1)
  cases state with
  | outside bodies point =>
      cases point with
      | statement | ending => exact block bodies
      | _ => exact .inl rfl
  | inside around point =>
      cases point with
      | start => exact expression around
      | item kind alone => exact expression (around.enclose ⟨.items kind, alone⟩)
      | _ => exact .inl rfl

/-- Where there is no token more, a run fails for want of tokens or of levels. -/
theorem step_none (limit : Nat) (state : State) :
    step limit state none = .fails .unexpectedEnd ∨
      step limit state none = .fails .nestingTooDeep := by
  rcases step_cases limit state with ⟨around, callable, alone, rfl⟩ | same
  · exact innerStep_none limit (around.ended (callable && alone))
  · rw [same]
    exact innerStep_none limit state

end WindowScript.Recognizer
