import WindowScript.Proofs.Parser.Rendering

/-!
# Delimiters of rendered programs

The delimiters of a rendered program are balanced: no closing delimiter comes before
the one that it closes. The counter of the nesting check is then the number of
delimiters that are open, and the check fails only where too many are.
-/

set_option autoImplicit false

namespace WindowScript

def Token.opens : Token → Bool
  | .symbol mark => mark.opens
  | _ => false

def Token.closes : Token → Bool
  | .symbol mark => mark.closes
  | _ => false

theorem Token.closes_eq_false (token : Token) (opens : token.opens = true) :
    token.closes = false := by
  cases token with
  | symbol mark => cases mark <;> first | rfl | cases opens
  | _ => rfl

def opened (tokens : List Token) : Nat := tokens.countP Token.opens

def closed (tokens : List Token) : Nat := tokens.countP Token.closes

@[simp] theorem opened_nil : opened [] = 0 := rfl

@[simp] theorem closed_nil : closed [] = 0 := rfl

@[simp] theorem opened_append (left right : List Token) :
    opened (left ++ right) = opened left + opened right := List.countP_append

@[simp] theorem closed_append (left right : List Token) :
    closed (left ++ right) = closed left + closed right := List.countP_append

theorem opened_cons (token : Token) (rest : List Token) :
    opened (token :: rest) = opened rest + if token.opens then 1 else 0 := List.countP_cons

theorem closed_cons (token : Token) (rest : List Token) :
    closed (token :: rest) = closed rest + if token.closes then 1 else 0 := List.countP_cons

/-- As many groups are closed as opened, and at no place more. -/
structure Balanced (tokens : List Token) : Prop where
  even : opened tokens = closed tokens
  covered : ∀ count, closed (tokens.take count) ≤ opened (tokens.take count)

namespace Balanced

private theorem nil : Balanced [] := ⟨rfl, by simp⟩

private theorem append {left right : List Token} (leftBalanced : Balanced left)
    (rightBalanced : Balanced right) : Balanced (left ++ right) := by
  constructor
  · rw [opened_append, closed_append, leftBalanced.even, rightBalanced.even]
  · intro count
    rw [List.take_append, opened_append, closed_append]
    exact Nat.add_le_add (leftBalanced.covered count)
      (rightBalanced.covered (count - left.length))

/-- A token that is no delimiter may stand anywhere. -/
theorem singleton {token : Token} (opens : token.opens = false) (closes : token.closes = false) :
    Balanced [token] := by
  constructor
  · simp [opened_cons, closed_cons, opens, closes]
  · intro count
    cases count with
    | zero => simp
    | succ count => simp [opened_cons, closed_cons, opens, closes]

private theorem cons {token : Token} {tokens : List Token} (opens : token.opens = false)
    (closes : token.closes = false) (balanced : Balanced tokens) : Balanced (token :: tokens) :=
  (singleton opens closes).append balanced

/-- The delimiters of a group may be of any two kinds. -/
theorem group {opening closing : Token} {tokens : List Token} (opens : opening.opens = true)
    (openingCloses : opening.closes = false) (closingOpens : closing.opens = false)
    (closes : closing.closes = true) (balanced : Balanced tokens) :
    Balanced (opening :: tokens ++ [closing]) := by
  constructor
  · simp [opened_cons, closed_cons, opens, openingCloses, closingOpens, closes, balanced.even]
  · intro count
    cases count with
    | zero => simp
    | succ count =>
        have inner := balanced.covered count
        have last : closed ([closing].take (count - tokens.length)) ≤ 1 :=
          Nat.le_trans List.countP_le_length (List.length_take_le' _ _)
        rw [List.cons_append, List.take_succ_cons, opened_cons, closed_cons, List.take_append,
          opened_append, closed_append]
        simp only [opens, openingCloses, if_true, Bool.false_eq_true, if_false]
        omega

private theorem parenthesized {tokens : List Token} (balanced : Balanced tokens) :
    Balanced (parenthesized tokens) := balanced.group rfl rfl rfl rfl

private theorem placed {tokens : List Token} (needed actual : Nat) (balanced : Balanced tokens) :
    Balanced (placed needed actual tokens) := by
  unfold WindowScript.placed
  split
  · exact balanced.parenthesized
  · exact balanced

private theorem flatten {parts : List (List Token)} (balanced : ∀ part ∈ parts, Balanced part) :
    Balanced parts.flatten := by
  induction parts with
  | nil => exact nil
  | cons part rest ih =>
      obtain ⟨head, tail⟩ := List.forall_mem_cons.mp balanced
      exact head.append (ih tail)

private theorem flatMap {α : Type} {items : List α} {spell : α → List Token}
    (balanced : ∀ item ∈ items, Balanced (spell item)) : Balanced (items.flatMap spell) := by
  rw [List.flatMap_def]
  apply flatten
  intro part member
  obtain ⟨item, itemMember, rfl⟩ := List.mem_map.mp member
  exact balanced item itemMember

private theorem commaJoined {parts : List (List Token)} (balanced : ∀ part ∈ parts, Balanced part) :
    Balanced (commaJoined parts) := by
  induction parts with
  | nil => exact nil
  | cons first rest ih =>
      obtain ⟨head, tail⟩ := List.forall_mem_cons.mp balanced
      cases rest with
      | nil => exact head
      | cons second rest => exact head.append (.cons rfl rfl (ih tail))

private theorem commaJoined_map {α : Type} {items : List α} {spell : α → List Token}
    (balanced : ∀ item ∈ items, Balanced (spell item)) :
    Balanced (WindowScript.commaJoined (items.map spell)) := by
  apply commaJoined
  intro part member
  obtain ⟨item, itemMember, rfl⟩ := List.mem_map.mp member
  exact balanced item itemMember

/-- A token that spells a word is no delimiter. -/
theorem word (spelled : String) : Balanced [Token.ofWord spelled] := by
  cases shape : Token.ofWord spelled with
  | symbol mark => exact absurd shape (Token.ofWord_ne rfl _)
  | _ => exact singleton rfl rfl

end Balanced

/-!
## What is rendered is balanced
-/

private theorem Expr.balanced_render (expr : Expr) : Balanced expr.render := by
  induction expr using Expr.structural with
  | integer value position => exact .singleton rfl rfl
  | real value position => exact .singleton rfl rfl
  | text value position => exact .singleton rfl rfl
  | boolean value position => exact .singleton rfl rfl
  | name label position => exact .singleton rfl rfl
  | binary operator left right position leftIH rightIH =>
      simp only [Expr.render]
      have joined : Balanced [Token.symbol operator.symbol] := by
        cases operator <;> exact .singleton rfl rfl
      exact (leftIH.placed _ _).append (joined.append (rightIH.placed _ _))
  | record entries position entriesIH =>
      rw [Expr.render_record]
      apply Balanced.group rfl rfl rfl rfl
      apply Balanced.flatMap
      intro entry member
      have value : Balanced (entry.2.render ++ [.symbol .semicolon]) :=
        (entriesIH entry member).append (.singleton rfl rfl)
      exact (Balanced.word entry.1).append (.cons rfl rfl value)
  | access object key position objectIH =>
      simp only [Expr.render]
      exact (objectIH.placed _ _).append (.cons rfl rfl (.word key))
  | list items position itemsIH =>
      simp only [Expr.render, Expr.renderItems_eq]
      exact .group rfl rfl rfl rfl (.commaJoined_map itemsIH)
  | call callee arguments position argumentsIH =>
      simp only [Expr.render, Expr.renderItems_eq]
      exact .cons rfl rfl (.group rfl rfl rfl rfl (.commaJoined_map argumentsIH))
  | pipe left right position leftIH rightIH =>
      simp only [Expr.render]
      exact (leftIH.placed _ _).append (.cons rfl rfl (rightIH.placed _ _))

private theorem Attributes.balanced_render (attributes : Attributes) :
    Balanced attributes.render := by
  apply Balanced.parenthesized
  apply Balanced.commaJoined_map
  intro entry member
  exact (Balanced.word entry.1).append (.cons rfl rfl entry.2.balanced_render)

private theorem Widget.balanced_render (widget : Widget) : Balanced widget.render :=
  .cons rfl rfl (widget.attributes.balanced_render.append (.singleton rfl rfl))

private theorem Element.balanced_render (element : Element) : Balanced element.render := by
  cases element with
  | window part =>
      have body : Balanced (.symbol .openCurly :: part.children.flatMap Widget.render ++
          [.symbol .closeCurly]) :=
        .group rfl rfl rfl rfl (.flatMap fun child _ => child.balanced_render)
      have whole : Balanced (.keyword .window :: (part.attributes.render ++ _)) :=
        .cons rfl rfl (part.attributes.balanced_render.append body)
      simpa only [Element.render, Window.render, List.cons_append, List.append_assoc] using whole
  | widget part => exact part.balanced_render

private theorem Statement.balanced_render (statement : Statement) : Balanced statement.render := by
  have semicolon : Balanced [.symbol .semicolon] := .singleton rfl rfl
  induction statement using Statement.structural with
  | binding name value position =>
      exact .cons rfl rfl (.cons rfl rfl (.cons rfl rfl (value.balanced_render.append semicolon)))
  | function name parameters body position bodyIH =>
      have heading : Balanced (parenthesized (commaJoined (parameters.map ([Token.identifier ·])))) :=
        .parenthesized (.commaJoined_map fun parameter _ => .singleton rfl rfl)
      have braces : Balanced (.symbol .openCurly :: body.flatMap Statement.render ++
          [.symbol .closeCurly]) := .group rfl rfl rfl rfl (.flatMap bodyIH)
      have whole : Balanced (.keyword .func :: .identifier name :: _) :=
        .cons rfl rfl (.cons rfl rfl ((heading.append braces).append semicolon))
      simpa only [Statement.render, Statement.renderAll_eq, List.cons_append, List.append_assoc,
        List.nil_append] using whole
  | returning value position => exact .cons rfl rfl (value.balanced_render.append semicolon)
  | gui description =>
      have braces : Balanced (.symbol .openCurly :: description.elements.flatMap Element.render ++
          [.symbol .closeCurly]) :=
        .group rfl rfl rfl rfl (.flatMap fun element _ => element.balanced_render)
      exact Balanced.append (.cons rfl rfl (.cons rfl rfl braces)) semicolon
  | expression value position => exact value.balanced_render.append semicolon

theorem Program.balanced_render (program : Program) : Balanced program.render :=
  .append (.flatMap fun statement _ => statement.balanced_render) (.singleton rfl rfl)

/-!
## The nesting check
-/

namespace Parser

/-- One step of the check. No token both opens and closes a group. -/
theorem checkNesting_cons (depth : Nat) (token : Token) (position : Position)
    (rest : List PlacedToken) :
    checkNesting depth ((token, position) :: rest) =
      if token.opens then
        if maxNesting ≤ depth then .error ⟨.nestingTooDeep, position⟩
        else checkNesting (depth + 1) rest
      else checkNesting (depth - if token.closes then 1 else 0) rest := by
  cases token with
  | symbol mark => cases mark <;> rfl
  | _ => rfl

/-- The check passes when its counter is never cut off at zero and never too large. -/
theorem checkNesting_eq_ok (tokens : List PlacedToken) (depth : Nat)
    (covered : ∀ count, closed ((tokens.map Prod.fst).take count) ≤
      depth + opened ((tokens.map Prod.fst).take count))
    (shallow : ∀ count, depth + opened ((tokens.map Prod.fst).take count) ≤
      closed ((tokens.map Prod.fst).take count) + maxNesting) :
    checkNesting depth tokens = .ok () := by
  induction tokens generalizing depth with
  | nil => rfl
  | cons head rest ih =>
      obtain ⟨token, position⟩ := head
      -- What is counted behind one more token, for every number of tokens.
      have coveredBehind := fun count => covered (count + 1)
      have shallowBehind := fun count => shallow (count + 1)
      simp only [List.map_cons, List.take_succ_cons, opened_cons, closed_cons]
        at coveredBehind shallowBehind
      have here := shallowBehind 0
      have hereCovered := coveredBehind 0
      simp only [List.take_zero, opened_nil, closed_nil] at here hereCovered
      rw [checkNesting_cons]
      by_cases opens : token.opens = true
      · have apart : token.closes = false := token.closes_eq_false opens
        simp only [opens, apart, if_true, Bool.false_eq_true, if_false]
          at coveredBehind shallowBehind here ⊢
        rw [if_neg (by omega)]
        apply ih
        · intro count
          have counted := coveredBehind count
          omega
        · intro count
          have counted := shallowBehind count
          omega
      · simp only [opens, Bool.false_eq_true, if_false]
          at coveredBehind shallowBehind hereCovered ⊢
        apply ih
        · intro count
          have counted := coveredBehind count
          omega
        · intro count
          have counted := shallowBehind count
          omega

end Parser

end WindowScript
