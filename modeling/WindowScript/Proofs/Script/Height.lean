import Mathlib
import WindowScript.Proofs.Parser.RoundTrip
import WindowScript.Proofs.Program.Vocabulary
import WindowScript.Proofs.Token.Arrangement

/-!
# How high the expressions of a program are

The nesting check bounds how many lists, records and calls stand inside each other, and nothing
else. Operators, pipes and attribute reads group to the left without a delimiter, so that each
of them makes expressions of any height.
-/

set_option autoImplicit false

namespace WindowScript

/-!
## Height
-/

mutual

/-- The number of nodes on the longest way down into an expression, where only lists, records
and calls count in full, and any other node counts as `plain`. -/
def Expr.depthBy (plain : Nat) : Expr → Nat
  | .binary _ left right _ | .pipe left right _ =>
      max (left.depthBy plain) (right.depthBy plain) + plain
  | .access object _ _ => object.depthBy plain + plain
  | .record entries _ => Expr.depthOfEntries plain entries + 1
  | .list items _ | .call _ items _ => Expr.depthOfItems plain items + 1
  | _ => plain

def Expr.depthOfItems (plain : Nat) : List Expr → Nat
  | [] => 0
  | item :: rest => max (item.depthBy plain) (Expr.depthOfItems plain rest)

def Expr.depthOfEntries (plain : Nat) : List (String × Expr) → Nat
  | [] => 0
  | (_, value) :: rest => max (value.depthBy plain) (Expr.depthOfEntries plain rest)

end

namespace Expr

def height (expr : Expr) : Nat := expr.depthBy 1

/-- How many lists, records and calls stand inside each other. -/
def enclosures (expr : Expr) : Nat := expr.depthBy 0

end Expr

section

variable (plain : Nat)

@[simp] theorem Expr.depthOfItems_eq (items : List Expr) :
    Expr.depthOfItems plain items = (items.map (Expr.depthBy plain)).foldr max 0 := by
  induction items with
  | nil => rfl
  | cons item rest ih => rw [Expr.depthOfItems, ih, List.map_cons, List.foldr_cons]

@[simp] theorem Expr.depthOfEntries_eq (entries : List (String × Expr)) :
    Expr.depthOfEntries plain entries =
      (entries.map fun entry => entry.2.depthBy plain).foldr max 0 := by
  induction entries with
  | nil => rfl
  | cons entry rest ih => rw [Expr.depthOfEntries, ih, List.map_cons, List.foldr_cons]

private theorem Expr.depthBy_relocate (move : Position → Position) (expr : Expr) :
    (expr.relocate move).depthBy plain = expr.depthBy plain := by
  induction expr using Expr.structural with
  | integer | real | text | boolean | name => rfl
  | binary operator left right position leftIH rightIH | pipe left right position leftIH rightIH =>
      simp only [Expr.relocate, Expr.depthBy, leftIH, rightIH]
  | record entries position entriesIH =>
      simp only [Expr.relocate, Expr.relocateEntries_eq, Attributes.relocate, Expr.depthBy,
        Expr.depthOfEntries_eq, List.map_map]
      exact congrArg (fun depths => depths.foldr max 0 + 1) (List.map_congr_left entriesIH)
  | access object key position objectIH => simp only [Expr.relocate, Expr.depthBy, objectIH]
  | list items position itemsIH | call callee items position itemsIH =>
      simp only [Expr.relocate, Expr.relocateItems_eq, Expr.depthBy, Expr.depthOfItems_eq,
        List.map_map]
      exact congrArg (fun depths => depths.foldr max 0 + 1) (List.map_congr_left itemsIH)

private theorem Expr.depthBy_child {child whole : Expr} (member : child ∈ whole.children) :
    child.depthBy plain ≤ whole.depthBy plain := by
  have among (items : List Expr) (member : child ∈ items) :
      child.depthBy plain ≤ (items.map (Expr.depthBy plain)).foldr max 0 :=
    List.le_max_of_le (List.mem_map_of_mem member) (Nat.le_refl _)
  cases whole with
  | binary operator left right position | pipe left right position =>
      have sides := among [left, right] member
      simp only [List.map_cons, List.map_nil, List.foldr_cons, List.foldr_nil] at sides
      simp only [Expr.depthBy]
      omega
  | record entries position =>
      have values := among (entries.map Prod.snd) member
      rw [List.map_map] at values
      simp only [Expr.depthBy, Expr.depthOfEntries_eq]
      exact Nat.le_succ_of_le values
  | access object key position =>
      obtain rfl := List.mem_singleton.mp member
      exact Nat.le_add_right _ _
  | list items position | call callee items position =>
      simp only [Expr.depthBy, Expr.depthOfItems_eq]
      exact Nat.le_succ_of_le (among items member)
  | _ => cases member

private theorem Expr.depthBy_part {part whole : Expr} (inside : part.Part whole) :
    part.depthBy plain ≤ whole.depthBy plain := by
  induction inside with
  | self => exact Nat.le_refl _
  | inside member _ ih => exact Nat.le_trans ih (depthBy_child plain member)

end

/-!
## Delimiters around expressions
-/

/-- All of the delimiters in some tokens are closed, and somewhere `depth` of them are open. -/
structure Delimits (depth : Nat) (tokens : List PlacedToken) : Prop where
  even : opened (tokens.map Prod.fst) = closed (tokens.map Prod.fst)
  reaches : ∃ leading, leading <+: tokens ∧
    depth + closed (leading.map Prod.fst) ≤ opened (leading.map Prod.fst)

namespace Delimits

variable {depth other : Nat} {tokens rest : List PlacedToken}

private theorem nil : Delimits 0 [] := ⟨rfl, [], List.prefix_rfl, Nat.le_refl _⟩

private theorem mono (delimits : Delimits depth tokens) (le : other ≤ depth) :
    Delimits other tokens := by
  obtain ⟨even, leading, leads, reached⟩ := delimits
  exact ⟨even, leading, leads, by omega⟩

private theorem append (before : Delimits depth tokens) (behind : Delimits other rest) :
    Delimits (max depth other) (tokens ++ rest) := by
  refine ⟨?_, ?_⟩
  · simp only [List.map_append, opened_append, closed_append, before.even, behind.even]
  · rcases Nat.le_total other depth with le | le
    · obtain ⟨leading, leads, reached⟩ := before.reaches
      exact ⟨leading, leads.trans (List.prefix_append _ _), by omega⟩
    · obtain ⟨leading, leads, reached⟩ := behind.reaches
      refine ⟨tokens ++ leading, (List.prefix_append_right_inj tokens).mpr leads, ?_⟩
      have even := before.even
      simp only [List.map_append, opened_append, closed_append]
      omega

/-- A token that is no delimiter. -/
theorem cons (delimits : Delimits depth tokens) (token : Token) (opens : token.opens = false)
    (closes : token.closes = false) (position : Position) :
    Delimits depth ((token, position) :: tokens) := by
  obtain ⟨even, leading, leads, reached⟩ := delimits
  refine ⟨?_, (token, position) :: leading, List.cons_prefix_cons.mpr ⟨rfl, leads⟩, ?_⟩
  · simpa [opened_cons, closed_cons, opens, closes] using even
  · simpa [opened_cons, closed_cons, opens, closes] using reached

private theorem cons_word (delimits : Delimits depth tokens) {token : Token} {name : String}
    (word : token.word? = some name) (position : Position) :
    Delimits depth ((token, position) :: tokens) := by
  cases token with
  | identifier | keyword | widget => exact delimits.cons _ rfl rfl position
  | _ => cases word

private theorem group (inner : Delimits depth tokens) (opening closing : Token)
    (opens : opening.opens = true) (closes : closing.closes = true) (start ending : Position) :
    Delimits (depth + 1) ((opening, start) :: tokens ++ [(closing, ending)]) := by
  have openingCloses := opening.closes_eq_false opens
  have closingOpens : closing.opens = false := by
    cases holds : closing.opens with
    | false => rfl
    | true => rw [closing.closes_eq_false holds] at closes; cases closes
  obtain ⟨even, leading, leads, reached⟩ := inner
  refine ⟨?_, (opening, start) :: leading, ?_, ?_⟩
  · simp [opened_cons, closed_cons, opens, closes, openingCloses, closingOpens, even]
  · exact List.cons_prefix_cons.mpr ⟨rfl, leads.trans (List.prefix_append _ _)⟩
  · simp only [List.map_cons, opened_cons, closed_cons, opens, openingCloses, if_true,
      Bool.false_eq_true, if_false]
    omega

end Delimits

namespace Grammar

private theorem Ending.delimits {tokens : List PlacedToken} (ending : Ending tokens) :
    Delimits 0 tokens := by
  cases ending with
  | absent => exact .nil
  | semicolon position => exact Delimits.nil.cons _ rfl rfl position

private theorem depthOfEntries_collected (entries : List (String × Expr)) :
    Expr.depthOfEntries 0 (collected entries) ≤ Expr.depthOfEntries 0 entries := by
  simp only [Expr.depthOfEntries_eq]
  refine List.max_le_of_forall_le _ _ fun depth member => ?_
  obtain ⟨entry, held, rfl⟩ := List.mem_map.mp member
  exact List.le_max_of_le (List.mem_map_of_mem (mem_of_mem_collected held)) (Nat.le_refl _)

/-- Around each list, record and call there is a pair of delimiters. -/
theorem Derives.delimits {kind : Nonterminal} {tokens : List PlacedToken} {expr : Expr}
    (derived : Derives kind tokens expr) : Delimits expr.enclosures tokens := by
  unfold Expr.enclosures
  refine @Derives.rec
    (fun _ tokens expr _ => Delimits (expr.depthBy 0) tokens)
    (fun tokens items _ => Delimits (Expr.depthOfItems 0 items) tokens)
    (fun tokens entries _ => Delimits (Expr.depthOfEntries 0 entries) tokens)
    (fun tokens entry _ => Delimits (entry.2.depthBy 0) tokens)
    ?operand ?joined ?access ?call ?integer ?real ?text ?yes ?no ?name ?group ?record ?list
    ?noItem ?lastItem ?moreItems ?noEntry ?moreEntries ?entry kind tokens expr derived
  case operand => exact fun _ _ ih => ih
  case joined =>
    intro _ _ mark join _ _ left right position joins _ _ leftIH rightIH
    cases joins <;> exact leftIH.append (rightIH.cons _ rfl rfl position)
  case access =>
    intro tokens object word key position start _ spells objectIH
    have suffix : Delimits 0 [((.symbol .dot : Token), position), (word, start)] :=
      (Delimits.nil.cons_word spells start).cons _ rfl rfl position
    exact (objectIH.append suffix).mono (Nat.le_max_left _ _)
  case call =>
    intro tokens inner callee arguments origin opening closing _ _ calleeIH argumentsIH
    have whole := calleeIH.append (argumentsIH.group (.symbol .openRound) (.symbol .closeRound)
      rfl rfl opening closing)
    rw [List.append_assoc]
    exact whole.mono (Nat.le_max_right _ _)
  case integer | real | text | name =>
    intro _ position
    exact Delimits.nil.cons _ rfl rfl position
  case yes | no =>
    intro position
    exact Delimits.nil.cons _ rfl rfl position
  case group =>
    intro _ _ opening closing _ innerIH
    exact (innerIH.group _ _ rfl rfl opening closing).mono (Nat.le_succ _)
  case record =>
    intro _ entries opening closing _ entriesIH
    exact (entriesIH.group _ _ rfl rfl opening closing).mono
      (Nat.succ_le_succ (depthOfEntries_collected entries))
  case list => exact fun _ itemsIH => itemsIH.group _ _ rfl rfl _ _
  case noItem | noEntry => exact .nil
  case lastItem => exact fun _ itemIH => itemIH.mono (Nat.max_le.mpr ⟨Nat.le_refl _, Nat.zero_le _⟩)
  case moreItems =>
    intro _ _ _ _ comma _ _ itemIH itemsIH
    exact itemIH.append (itemsIH.cons _ rfl rfl comma)
  case moreEntries => exact fun _ _ entryIH entriesIH => entryIH.append entriesIH
  case entry =>
    intro _ _ start sign _ _ _ spells _ ending valueIH
    have whole := (valueIH.append ending.delimits).cons (.symbol .assign) rfl rfl sign
    exact (whole.cons_word spells start).mono (Nat.le_max_left _ _)

end Grammar

/-!
## Delimiters around the expressions of a program
-/

/-- All of the delimiters in some tokens are closed, and for each of the given expressions there
is a place where as many are open as enclose it. -/
structure Surrounds (given : Expr → Prop) (tokens : List PlacedToken) : Prop where
  closed : Delimits 0 tokens
  around : ∀ {item}, given item → Delimits item.enclosures tokens

namespace Surrounds

variable {given other : Expr → Prop} {tokens rest : List PlacedToken}

private theorem mono (surrounds : Surrounds given tokens)
    (among : ∀ item, other item → given item) : Surrounds other tokens :=
  ⟨surrounds.closed, fun member => surrounds.around (among _ member)⟩

private theorem of_delimits {expr : Expr} (delimits : Delimits expr.enclosures tokens) :
    Surrounds (·.Part expr) tokens :=
  ⟨delimits.mono (Nat.zero_le _), fun part => delimits.mono (Expr.depthBy_part 0 part)⟩

private theorem append (before : Surrounds given tokens) (behind : Surrounds other rest) :
    Surrounds (fun item => given item ∨ other item) (tokens ++ rest) where
  closed := before.closed.append behind.closed
  around := by
    rintro item (member | member)
    · exact ((before.around member).append behind.closed).mono (Nat.le_max_left _ _)
    · exact (before.closed.append (behind.around member)).mono (Nat.le_max_right _ _)

private theorem append_delimits (before : Surrounds given tokens) (behind : Delimits 0 rest) :
    Surrounds given (tokens ++ rest) :=
  have nothing : Surrounds (fun _ => False) rest := ⟨behind, False.elim⟩
  (before.append nothing).mono fun _ => .inl

private theorem cons (surrounds : Surrounds given tokens) (token : Token)
    (opens : token.opens = false) (closes : token.closes = false) (position : Position) :
    Surrounds given ((token, position) :: tokens) :=
  ⟨surrounds.closed.cons token opens closes position,
    fun member => (surrounds.around member).cons token opens closes position⟩

private theorem group (inner : Surrounds given tokens) (opening closing : Token)
    (opens : opening.opens = true) (closes : closing.closes = true) (start ending : Position) :
    Surrounds given ((opening, start) :: tokens ++ [(closing, ending)]) where
  closed := (inner.closed.group opening closing opens closes start ending).mono (Nat.zero_le _)
  around member :=
    ((inner.around member).group opening closing opens closes start ending).mono (Nat.le_succ _)

end Surrounds

namespace Grammar

section

variable {α : Type} {Item : List PlacedToken → α → Prop} {given : α → Expr → Prop}
  {tokens : List PlacedToken} {items : List α}

private theorem Repeated.surrounds (derived : Repeated Item tokens items)
    (each : ∀ {tokens item}, Item tokens item → Surrounds (given item) tokens) :
    Surrounds (fun inner => ∃ item ∈ items, given item inner) tokens := by
  induction derived with
  | none => exact ⟨.nil, by simp⟩
  | more first _ ih => exact ((each first).append ih).mono (by simp)

private theorem Separated.surrounds (derived : Separated Item tokens items)
    (each : ∀ {tokens item}, Item tokens item → Surrounds (given item) tokens) :
    Surrounds (fun inner => ∃ item ∈ items, given item inner) tokens := by
  induction derived with
  | none => exact ⟨.nil, by simp⟩
  | last only => exact (each only).mono (by simp)
  | @more _ _ _ _ comma first _ ih =>
      exact ((each first).append (ih.cons (.symbol .comma) rfl rfl comma)).mono (by simp)

end

/-- An expression in one of some attributes. -/
def InAttributes (attributes : Attributes) (item : Expr) : Prop :=
  ∃ entry ∈ attributes, item.Part entry.2

private theorem AttributeList.surrounds {tokens : List PlacedToken} {attributes : Attributes}
    (derived : AttributeList tokens attributes) : Surrounds (InAttributes attributes) tokens := by
  obtain ⟨separated⟩ := derived
  have each : ∀ {tokens entry}, Attribute tokens entry →
      Surrounds (fun item : Expr => item.Part entry.2) tokens := by
    rintro _ _ ⟨spells, value⟩
    exact .of_delimits ((value.delimits.cons (.symbol .colon) rfl rfl _).cons_word spells _)
  refine ((separated.surrounds each).group _ _ rfl rfl _ _).mono ?_
  rintro item ⟨entry, held, part⟩
  exact ⟨entry, mem_of_mem_collected held, part⟩

private theorem DerivesWidget.surrounds {tokens : List PlacedToken} {widget : Widget}
    (derived : DerivesWidget tokens widget) :
    Surrounds (InAttributes widget.attributes) tokens := by
  obtain ⟨attributes, ending⟩ := derived
  exact (attributes.surrounds.append_delimits ending.delimits).cons _ rfl rfl _

end Grammar

/-- The attributes of a part of an interface. -/
def Element.lists : Element → List Attributes
  | .window described => described.attributes :: described.children.map Widget.attributes
  | .widget described => [described.attributes]

namespace Grammar

private theorem DerivesElement.surrounds {tokens : List PlacedToken} {element : Element}
    (derived : DerivesElement tokens element) :
    Surrounds (fun item => ∃ attributes ∈ element.lists, InAttributes attributes item) tokens := by
  cases derived with
  | @window position opening closing _ _ _ _ attributes children =>
      have inner := (children.surrounds DerivesWidget.surrounds).group (.symbol .openCurly)
        (.symbol .closeCurly) rfl rfl opening closing
      have whole := (attributes.surrounds.append inner).cons (.keyword .window) rfl rfl position
      rw [List.append_assoc]
      exact whole.mono (by simp [Element.lists])
  | widget described => exact described.surrounds.mono (by simp [Element.lists])

private theorem DerivesStatement.surrounds {tokens : List PlacedToken} {statement : Statement}
    (derived : DerivesStatement tokens statement) :
    Surrounds (fun item => Statement.Mentions item statement) tokens := by
  refine @DerivesStatement.rec
    (fun tokens statement _ => Surrounds (fun item => Statement.Mentions item statement) tokens)
    (fun tokens statements _ =>
      Surrounds (fun item => ∃ statement ∈ statements, Statement.Mentions item statement) tokens)
    ?binding ?function ?gui ?returning ?expression ?none ?more tokens statement derived
  case binding =>
    intro _ position start sign _ _ _ value ending
    have whole := ((Surrounds.of_delimits value.delimits).append_delimits ending.delimits).cons
      (.symbol .assign) rfl rfl sign
    refine ((whole.cons (.identifier _) rfl rfl start).cons _ rfl rfl position).mono ?_
    intro item mentions
    cases mentions with
    | binding part => exact part
  case function =>
    intro name _ _ position start opening closing bodyOpening bodyClosing _ _ _ parameters _ ending
      bodyIH
    have each : ∀ {tokens name}, Parameter tokens name → Surrounds (fun _ => False) tokens := by
      rintro _ _ ⟨_, position⟩
      exact ⟨Delimits.nil.cons _ rfl rfl position, False.elim⟩
    have names := (parameters.surrounds each).group (.symbol .openRound) (.symbol .closeRound)
      rfl rfl opening closing
    have body := (bodyIH.group (.symbol .openCurly) (.symbol .closeCurly) rfl rfl bodyOpening
      bodyClosing).append_delimits ending.delimits
    have whole := ((names.append body).cons (.identifier name) rfl rfl start).cons (.keyword .func)
      rfl rfl position
    simp only [List.cons_append, List.append_assoc, List.nil_append] at whole ⊢
    refine whole.mono ?_
    intro item mentions
    cases mentions with
    | function member inside => exact .inr ⟨_, member, inside⟩
  case gui =>
    intro _ _ position start opening closing _ _ elements ending
    have body := ((elements.surrounds DerivesElement.surrounds).group
      (.symbol .openCurly) (.symbol .closeCurly) rfl rfl opening closing).append_delimits
      ending.delimits
    refine ((body.cons (.identifier _) rfl rfl start).cons (.keyword .gui) rfl rfl position).mono ?_
    intro item mentions
    cases mentions with
    | window element entry part => exact ⟨_, element, _, .head _, _, entry, part⟩
    | child element widget entry part =>
        exact ⟨_, element, _, .tail _ (List.mem_map_of_mem widget), _, entry, part⟩
    | widget element entry part => exact ⟨_, element, _, .head _, _, entry, part⟩
  case returning =>
    intro position _ _ _ value ending
    refine (((Surrounds.of_delimits value.delimits).append_delimits ending.delimits).cons
      (.keyword .returnWord) rfl rfl position).mono ?_
    intro item mentions
    cases mentions with
    | returning part => exact part
  case expression =>
    intro _ _ _ _ _ value ending
    refine ((Surrounds.of_delimits value.delimits).append_delimits ending.delimits).mono ?_
    intro item mentions
    cases mentions with
    | expression part => exact part
  case none => exact ⟨.nil, by simp⟩
  case more => exact fun _ _ firstIH restIH => (firstIH.append restIH).mono (by simp)

end Grammar

/-- The nesting check leaves no place where too many delimiters are open. -/
theorem Parser.opened_le_of_checkNesting {tokens leading : List PlacedToken} {depth : Nat}
    (checked : checkNesting depth tokens = .ok ()) (few : depth ≤ maxNesting)
    (leads : leading <+: tokens) :
    depth + opened (leading.map Prod.fst) ≤ closed (leading.map Prod.fst) + maxNesting := by
  induction leading generalizing depth tokens with
  | nil => simpa using few
  | cons head leading ih =>
      obtain ⟨token, position⟩ := head
      obtain ⟨rest, rfl⟩ := leads
      rw [List.cons_append, checkNesting_cons] at checked
      simp only [List.map_cons, opened_cons, closed_cons]
      have onward {later : Nat} (checked : checkNesting later (leading ++ rest) = .ok ())
          (few : later ≤ maxNesting) := ih checked few (List.prefix_append _ _)
      by_cases opens : token.opens = true
      · have closes := token.closes_eq_false opens
        simp only [opens, closes, if_true, Bool.false_eq_true, if_false] at checked ⊢
        split at checked
        · cases checked
        · have counted := onward checked (by omega)
          omega
      · simp only [opens, Bool.false_eq_true, if_false] at checked ⊢
        have counted := onward checked (by omega)
        omega

/-- Lists, records and calls stand inside each other no deeper than delimiters may be open,
wherever in a program that is read from a source. -/
theorem Script.enclosures_le_maxNesting {source : String} {program : Program}
    (accepted : Script.read source = .ok program) {item : Expr}
    (mentions : Program.Mentions program item) : item.enclosures ≤ maxNesting := by
  unfold Script.read at accepted
  cases tokenized : tokenize source with
  | error failure => rw [tokenized] at accepted; cases accepted
  | ok tokens =>
      cases parsed : parse tokens with
      | error failure => simp only [tokenized, parsed] at accepted; cases accepted
      | ok found =>
          simp only [tokenized, parsed] at accepted
          cases accepted
          unfold parse Parser.programWithin at parsed
          obtain ⟨_, checked, read⟩ := Parser.bind_eq_ok parsed
          obtain ⟨body, position, rest, statements, split, _, derived, rfl⟩ :=
            Parser.statements_sound (Parser.statement_sound _) read
          obtain ⟨leading, leads, reached⟩ :=
            ((derived.surrounds Grammar.DerivesStatement.surrounds).around mentions).reaches
          have before : leading <+: tokens := split ▸ leads.trans (List.prefix_append _ _)
          have few := Parser.opened_le_of_checkNesting checked (Nat.zero_le _) before
          omega

/-- In `f([1])` a list stands in a call. -/
theorem Script.enclosures_le_maxNesting_calledList :
    ∃ program item, Script.read "f([1])" = .ok program ∧ Program.Mentions program item ∧
      item.enclosures = 2 ∧ item.enclosures ≤ maxNesting := by
  let call : Expr := .call "f" [.list [.integer 1 ⟨1, 4⟩] ⟨1, 3⟩] ⟨1, 1⟩
  have accepted : Script.read "f([1])" = .ok [.expression call ⟨1, 1⟩] := by cbv
  have mentions : Program.Mentions [.expression call ⟨1, 1⟩] call :=
    ⟨_, List.mem_singleton_self _, .expression (.self call)⟩
  exact ⟨_, call, accepted, mentions, rfl, Script.enclosures_le_maxNesting accepted mentions⟩

/-!
## Expressions of any height
-/

namespace Lexer

private theorem exists_arrangement {tokens : List Token}
    (spelled : ∀ token ∈ tokens, token.Spelled) :
    ∃ arranged : Arrangement, Spell arranged.lexemes tokens := by
  suffices written : ∃ parts : List Part, (∀ part ∈ parts, part.spaces ≠ []) ∧
      Spell (parts.map Part.lexeme) tokens by
    obtain ⟨parts, spaced, spell⟩ := written
    exact ⟨⟨[], parts, .nil, List.pairwise_of_forall_mem_list fun part member _ _ =>
      spaced part member⟩, spell⟩
  induction tokens with
  | nil => exact ⟨[], by simp, .nil⟩
  | cons token rest ih =>
      obtain ⟨⟨characters, spells⟩, others⟩ := List.forall_mem_cons.mp spelled
      obtain ⟨parts, spaced, spell⟩ := ih others
      have layout : Layout [' '] := .blank (by decide) .nil
      exact ⟨⟨characters, [' '], ⟨_, spells⟩, layout⟩ :: parts,
        List.forall_mem_cons.mpr ⟨by simp, spaced⟩, .cons spells spell⟩

private theorem Arrangement.map_fst_placed (arranged : Arrangement) (tokens : List Token) :
    (arranged.placed tokens).map Prod.fst = tokens := by
  refine List.ext_getElem? fun index => ?_
  simp [placed, Function.comp_def]

end Lexer

/-- A program that can be rendered in tokens with a spelling is that of some source. -/
theorem Script.exists_read {program : Program}
    (spelled : ∀ token ∈ program.flatMap Statement.render, token.Spelled)
    (distinct : ∀ attributes ∈ program.attributeLists, attributes.Distinct)
    (shallow : ∀ leading, leading <+: program.render →
      opened leading ≤ closed leading + maxNesting) :
    ∃ source read, Script.read source = .ok read ∧ read.unplaced = program.unplaced := by
  obtain ⟨arranged, spell⟩ := Lexer.exists_arrangement spelled
  have rendered : (arranged.placed (program.flatMap Statement.render ++ [.endOfInput])).map
      Prod.fst = program.render := Lexer.Arrangement.map_fst_placed _ _
  obtain ⟨read, parsed, same⟩ := parse_render program distinct shallow _ rendered
  refine ⟨arranged.source, read, ?_, same⟩
  simp only [Script.read, Lexer.Arrangement.tokenize_eq_ok spell, parsed]

/-- A way to go on behind an expression without a delimiter. -/
inductive Link where
  | binary (operator : Operator)
  | pipe
  | access

namespace Link

def mark : Link → Symbol
  | .binary operator => operator.symbol
  | .pipe => .pipe
  | .access => .dot

def extend : Link → Expr → Expr
  | .binary operator, left => .binary operator left (.name "x" .nowhere) .nowhere
  | .pipe, left => .pipe left (.name "x" .nowhere) .nowhere
  | .access, object => .access object "x" .nowhere

/-- A name with `count` links of one kind behind it. -/
def chain (link : Link) : Nat → Expr
  | 0 => .name "x" .nowhere
  | count + 1 => link.extend (link.chain count)

/-- All of the links group to the left. -/
theorem render_chain (link : Link) (count : Nat) :
    (link.chain (count + 1)).render =
      (link.chain count).render ++ [.symbol link.mark, .identifier "x"] := by
  cases link with
  | binary operator => cases count <;> cases operator <;> rfl
  | pipe => cases count <;> rfl
  | access => cases count <;> rfl

/-- The tokens of a chain, which has a spelling and opens nothing. -/
inductive Linked (link : Link) : Token → Prop where
  | name : Linked link (.identifier "x")
  | mark : Linked link (.symbol link.mark)

private theorem Linked.spelled {link : Link} {token : Token} (linked : link.Linked token) :
    token.Spelled := by
  cases linked with
  | name => exact ⟨['x'], .word (by decide) (by simp)⟩
  | mark => exact ⟨_, .symbol link.mark⟩

private theorem Linked.opens_eq_false {link : Link} {token : Token} (linked : link.Linked token) :
    token.opens = false := by
  cases linked with
  | name => rfl
  | mark =>
      cases link with
      | binary operator => cases operator <;> rfl
      | _ => rfl

private theorem linked_of_mem_render {link : Link} {count : Nat} {token : Token}
    (member : token ∈ (link.chain count).render) : link.Linked token := by
  induction count with
  | zero =>
      obtain rfl := List.mem_singleton.mp member
      exact .name
  | succ count ih =>
      rw [render_chain] at member
      rcases List.mem_append.mp member with before | behind
      · exact ih before
      · rcases List.mem_pair.mp behind with rfl | rfl
        · exact .mark
        · exact .name

private theorem attributeLists_chain (link : Link) (count : Nat) :
    (link.chain count).attributeLists = [] := by
  induction count with
  | zero => rfl
  | succ count ih => cases link <;> simp [chain, extend, Expr.attributeLists, ih]

private theorem depthBy_chain (plain : Nat) (link : Link) (count : Nat) :
    (link.chain count).depthBy plain = count * plain + plain := by
  induction count with
  | zero => simp [chain, Expr.depthBy]
  | succ count ih =>
      cases link <;> simp only [chain, extend, Expr.depthBy, ih, Nat.succ_mul] <;> omega

/-- The statement of a chain has a source, as no delimiter is opened in it. -/
theorem exists_read (link : Link) (count : Nat) :
    ∃ source read, Script.read source = .ok read ∧
      Program.unplaced read =
        [.expression ((link.chain count).relocate fun _ => .nowhere) .nowhere] := by
  let program : Program := [.expression (link.chain count) .nowhere]
  have tokens : program.flatMap Statement.render =
      (link.chain count).render ++ [.symbol .semicolon] := by
    simp [program, Statement.render]
  have spelled : ∀ token ∈ program.flatMap Statement.render, token.Spelled := by
    rw [tokens, List.forall_mem_append, List.forall_mem_singleton]
    exact ⟨fun token member => (linked_of_mem_render member).spelled, _, .symbol .semicolon⟩
  have distinct : ∀ attributes ∈ program.attributeLists, attributes.Distinct := by
    simp [program, Program.attributeLists, Statement.attributeLists, attributeLists_chain]
  have closed : ∀ token ∈ program.render, token.opens = false := by
    rw [Program.render, tokens, List.forall_mem_append, List.forall_mem_append,
      List.forall_mem_singleton, List.forall_mem_singleton]
    exact ⟨⟨fun token member => (linked_of_mem_render member).opens_eq_false, rfl⟩, rfl⟩
  refine Script.exists_read spelled distinct fun leading leads => ?_
  have none : opened leading = 0 :=
    List.countP_eq_zero.mpr fun token member => by simp [closed token (leads.subset member)]
  omega

end Link

/-- Whatever kind of link is repeated, no number of nodes bounds the height of the expressions
that are read, not even of those without a list, a record or a call. -/
theorem Script.height_unbounded (link : Link) (bound : Nat) :
    ∃ source value position, Script.read source = .ok [.expression value position] ∧
      bound < value.height ∧ value.enclosures = 0 := by
  obtain ⟨source, read, accepted, same⟩ := link.exists_read bound
  obtain ⟨statement, rfl, shape⟩ := List.map_eq_singleton_iff.mp same
  cases statement with
  | expression value position =>
      obtain ⟨alike, _⟩ := Statement.expression.inj shape
      have depth (plain : Nat) : value.depthBy plain = bound * plain + plain := by
        rw [← Expr.depthBy_relocate plain (fun _ => .nowhere), alike, Expr.depthBy_relocate,
          Link.depthBy_chain]
      refine ⟨source, value, position, accepted, ?_, ?_⟩
      · rw [Expr.height, depth]
        omega
      · rw [Expr.enclosures, depth, Nat.mul_zero]
  | _ => cases shape

theorem Script.no_bound_on_height :
    ¬ ∃ bound, ∀ source program item, Script.read source = .ok program →
      Program.Mentions program item → item.height ≤ bound := by
  rintro ⟨bound, bounded⟩
  obtain ⟨source, value, position, accepted, high, _⟩ := height_unbounded .pipe bound
  have mentions : Program.Mentions [.expression value position] value :=
    ⟨_, List.mem_singleton_self _, .expression (.self value)⟩
  exact Nat.not_lt.mpr (bounded source _ value accepted mentions) high

end WindowScript
