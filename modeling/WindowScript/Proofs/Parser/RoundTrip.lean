import WindowScript.Proofs.Parser.ExpressionRoundTrip

/-!
# Reading back a rendered program

The tokens of a program, placed anywhere, are read as that program. Interfaces and
statements are read part by part, each part up to the symbol that ends it.
-/

set_option autoImplicit false

namespace WindowScript

namespace Parser

/-!
## Interfaces
-/

section

variable {rounds depth : Nat}

private theorem attributes_render {attributes : Attributes}
    (distinct : ∀ inner ∈ attributes.attributeLists, inner.Distinct)
    (enough : attributes.render.length ≤ rounds) (deep : attributes.render.length ≤ depth)
    (rest : List PlacedToken) :
    Parser.attributes rounds (expression rounds depth) (bare attributes.render ++ rest) =
      .ok (attributes.relocate fun _ => .nowhere, rest) := by
  simp only [Attributes.attributeLists, List.forall_mem_cons, List.forall_mem_flatMap] at distinct
  simp only [Attributes.render, length_parenthesized] at enough deep
  have read : separated (attributeEntry (expression rounds depth)) .closeRound rounds []
      (bare (commaJoined (attributes.map renderAttribute)) ++
        (.symbol .closeRound, .nowhere) :: rest) =
      .ok (attributes.relocate fun _ => .nowhere, rest) := by
    apply separated_commaJoined (by decide)
    · intro entry _ behind
      exact startsWith_ofWord _ _ _ _
    · intro entry member mark behind ends
      have bound := length_le_commaJoined renderAttribute member
      simp only [renderAttribute, List.length_cons] at bound
      have stopped : mark = .comma ∨ mark = .semicolon ∨ mark.closes = true := by
        rcases ends with rfl | rfl
        · exact .inl rfl
        · exact .inr (.inr rfl)
      have value := expression_render (distinct.2 entry member) (by omega : _ ≤ rounds)
        (by omega : _ < depth) stopped behind
      simp only [renderAttribute, bare_cons, List.cons_append, attributeEntry, word_ofWord, symbol,
        value, bind, Except.bind, if_true]
      rfl
    · have bound : attributes.length ≤ (commaJoined (attributes.map renderAttribute)).length :=
        length_le_length_commaJoined fun entry _ => by simp [renderAttribute]
      omega
  simp only [Attributes.render, parenthesized, bare_cons, bare_append, bare_nil, List.cons_append,
    List.append_assoc, List.nil_append, Parser.attributes, symbol, read, bind, Except.bind, if_true,
    Attributes.ofEntries_relocate _ distinct.1]

private theorem widget_render {widget : Widget}
    (distinct : ∀ inner ∈ widget.attributes.attributeLists, inner.Distinct)
    (enough : widget.render.length ≤ rounds) (deep : widget.render.length ≤ depth)
    (rest : List PlacedToken) :
    Parser.widget rounds (expression rounds depth) (bare widget.render ++ rest) =
      .ok (widget.relocate fun _ => .nowhere, rest) := by
  simp only [Widget.render, List.cons_append, List.length_cons, List.length_append,
    List.length_nil] at enough deep
  have entries := attributes_render distinct (by omega : _ ≤ rounds) (by omega : _ ≤ depth)
    ((.symbol .semicolon, .nowhere) :: rest)
  simp only [Widget.render, bare_cons, bare_append, bare_nil, List.cons_append, List.append_assoc,
    List.nil_append, Parser.widget, entries, bind, Except.bind, skipSemicolon]
  rfl

private theorem window_render {window : Window}
    (distinct : ∀ inner ∈ (Element.window window).attributeLists, inner.Distinct)
    (enough : window.render.length ≤ rounds) (deep : window.render.length ≤ depth)
    (rest : List PlacedToken) :
    Parser.window rounds (expression rounds depth) .nowhere (bare window.render.tail ++ rest) =
      .ok (window.relocate fun _ => .nowhere, rest) := by
  simp only [Element.attributeLists, List.forall_mem_append, List.forall_mem_flatMap] at distinct
  simp only [Window.render, List.cons_append, List.append_assoc, List.length_cons,
    List.length_append, List.length_nil] at enough deep
  have entries := attributes_render distinct.1 (by omega : _ ≤ rounds) (by omega : _ ≤ depth)
  have children : delimited (Parser.widget rounds (expression rounds depth)) .closeCurly rounds []
      (bare (window.children.flatMap Widget.render) ++ (.symbol .closeCurly, .nowhere) :: rest) =
      .ok (window.children.map (Widget.relocate fun _ => .nowhere), rest) := by
    apply delimited_flatMap
    · intro child _ behind
      rfl
    · intro child member behind
      have bound := length_le_flatMap Widget.render member
      exact widget_render (distinct.2 child member) (by omega) (by omega) behind
    · have bound : window.children.length ≤ (window.children.flatMap Widget.render).length :=
        length_le_length_flatMap fun child _ => by simp [Widget.render]
      omega
  simp only [Window.render, List.cons_append, List.tail_cons, bare_cons, bare_append, bare_nil,
    List.append_assoc, List.nil_append, Parser.window, entries, symbol, children, bind, Except.bind,
    if_true]
  rfl

private theorem element_render {element : Element}
    (distinct : ∀ inner ∈ element.attributeLists, inner.Distinct)
    (enough : element.render.length ≤ rounds) (deep : element.render.length ≤ depth)
    (rest : List PlacedToken) :
    Parser.element rounds (expression rounds depth) .nowhere (bare element.render ++ rest) =
      .ok (element.relocate fun _ => .nowhere, rest) := by
  cases element with
  | window part =>
      have read := window_render distinct enough deep rest
      have shape : part.render = .keyword .window :: part.render.tail := rfl
      rw [Element.render, shape]
      simp only [bare_cons, List.cons_append, Parser.element, read, bind, Except.bind]
      rfl
  | widget part =>
      have read := widget_render distinct enough deep rest
      simp only [Widget.render, bare_cons, List.cons_append] at read
      simp only [Element.render, Widget.render, bare_cons, List.cons_append, Parser.element, read,
        bind, Except.bind]
      rfl

private theorem gui_render {gui : Gui}
    (distinct : ∀ inner ∈ (Statement.gui gui).attributeLists, inner.Distinct)
    (enough : gui.render.length ≤ rounds) (deep : gui.render.length ≤ depth)
    (rest : List PlacedToken) :
    Parser.gui rounds (expression rounds depth) .nowhere (bare gui.render.tail ++ rest) =
      .ok ((Statement.gui gui).unplaced, rest) := by
  simp only [Statement.attributeLists, List.forall_mem_flatMap] at distinct
  simp only [Gui.render, List.cons_append, List.length_cons, List.length_append,
    List.length_nil] at enough deep
  have elements : delimited (Parser.element rounds (expression rounds depth) .nowhere) .closeCurly
      rounds [] (bare (gui.elements.flatMap Element.render) ++
        (.symbol .closeCurly, .nowhere) :: rest) =
      .ok (gui.elements.map (Element.relocate fun _ => .nowhere), rest) := by
    apply delimited_flatMap
    · intro element _ behind
      cases element <;> rfl
    · intro element member behind
      have bound := length_le_flatMap Element.render member
      exact element_render (distinct element member) (by omega) (by omega) behind
    · have bound : gui.elements.length ≤ (gui.elements.flatMap Element.render).length := by
        apply length_le_length_flatMap
        intro element _
        cases element <;> simp [Element.render, Window.render, Widget.render]
      omega
  simp only [Gui.render, List.cons_append, List.tail_cons, bare_cons, bare_append, bare_nil,
    List.append_assoc, List.nil_append, Parser.gui, identifier, symbol, elements, bind, Except.bind,
    if_true]
  rfl

end

/-!
## Statements
-/

private theorem parameters_render {rounds : Nat} (parameters : List String)
    (enough : (commaJoined (parameters.map ([Token.identifier ·]))).length < rounds)
    (rest : List PlacedToken) :
    separated identifier .closeRound rounds []
        (bare (commaJoined (parameters.map ([Token.identifier ·]))) ++
          (.symbol .closeRound, .nowhere) :: rest) = .ok (parameters, rest) := by
  have bound : parameters.length ≤ (commaJoined (parameters.map ([Token.identifier ·]))).length :=
    length_le_length_commaJoined fun parameter _ => Nat.zero_lt_one
  have reads : ∀ parameter ∈ parameters, ∀ mark rest,
      (mark = Symbol.comma ∨ mark = .closeRound) →
      identifier (bare [.identifier parameter] ++ (.symbol mark, .nowhere) :: rest) =
        .ok (id parameter, (.symbol mark, .nowhere) :: rest) := fun _ _ _ _ _ => rfl
  have read := separated_commaJoined (by decide) parameters (fun _ _ _ => rfl) reads rounds
    (by omega) [] rest
  simpa using read

private theorem startsWith_statement {mark : Symbol} (closes : mark.closes = true) (one : Statement)
    (rest : List PlacedToken) : startsWith mark (bare one.render ++ rest) = false := by
  obtain ⟨first, tail, shape, _, apart⟩ := one.exists_cons_render
  rw [shape]
  cases first with
  | symbol found =>
      simp only [bare_cons, List.cons_append, startsWith_symbol, decide_eq_false_iff_not]
      rintro rfl
      exact apart found closes rfl
  | _ => rfl

/-- The first token of an expression selects no other kind of statement. -/
theorem statementCore_expression {rounds : Nat} {expression : Parser Expr}
    {statement : Parser Statement} {expr read : Expr} {tokens rest : List PlacedToken}
    (parsed : expression (bare expr.render ++ tokens) = .ok (read, rest)) :
    statementCore rounds expression statement (bare expr.render ++ tokens) =
      .ok (.expression read .nowhere, rest) := by
  obtain ⟨first, tail, shape, begins⟩ := expr.exists_cons_render
  rw [shape, bare_cons, List.cons_append] at parsed ⊢
  cases first with
  | keyword word =>
      cases word with
      | trueWord => simp only [statementCore, parsed, bind, Except.bind, nextPosition]
      | falseWord => simp only [statementCore, parsed, bind, Except.bind, nextPosition]
      | _ => cases begins
  | _ => simp only [statementCore, parsed, bind, Except.bind, nextPosition]

/-- A rendered statement is read whole, whatever follows its semicolon. -/
theorem statement_render (rounds : Nat) (one : Statement)
    (distinct : ∀ attributes ∈ one.attributeLists, attributes.Distinct)
    (enough : one.render.length ≤ rounds) :
    ∀ depth, one.render.length < depth → ∀ rest,
      statement rounds depth (bare one.render ++ rest) = .ok (one.unplaced, rest) := by
  have semicolon : Symbol.semicolon = .comma ∨ Symbol.semicolon = .semicolon ∨
      Symbol.semicolon.closes = true := .inr (.inl rfl)
  induction one using Statement.structural with
  | binding name value position =>
      intro depth deep rest
      obtain ⟨depth, rfl⟩ := Nat.exists_eq_succ_of_ne_zero (Nat.ne_zero_of_lt deep)
      simp only [Statement.render, List.cons_append, List.length_cons, List.length_append,
        List.length_nil] at enough deep
      have read := expression_render distinct (by omega : _ ≤ rounds) (by omega : _ < depth)
        semicolon rest
      simp only [Statement.render, bare_cons, bare_append, bare_nil, List.cons_append,
        List.append_assoc, List.nil_append, statement, statementCore, binding, identifier, symbol,
        read, bind, Except.bind, if_true, skipSemicolon, Statement.relocate]
  | function name parameters body position bodyIH =>
      intro depth deep rest
      obtain ⟨depth, rfl⟩ := Nat.exists_eq_succ_of_ne_zero (Nat.ne_zero_of_lt deep)
      simp only [Statement.attributeLists, Statement.attributeListsOfBody_eq,
        List.forall_mem_flatMap] at distinct
      simp only [Statement.render, Statement.renderAll_eq, parenthesized, List.cons_append,
        List.append_assoc, List.length_cons, List.length_append, List.length_nil] at enough deep
      have heading := parameters_render parameters
        (by omega : (commaJoined (parameters.map ([Token.identifier ·]))).length < rounds)
      have block : delimited (statement rounds depth) .closeCurly rounds []
          (bare (body.flatMap Statement.render) ++ (.symbol .closeCurly, .nowhere) ::
            (.symbol .semicolon, .nowhere) :: rest) =
          .ok (body.map Statement.unplaced, (.symbol .semicolon, .nowhere) :: rest) := by
        apply delimited_flatMap
        · intro inner _ behind
          exact startsWith_statement rfl inner behind
        · intro inner member behind
          have bound := length_le_flatMap Statement.render member
          exact bodyIH inner member (distinct inner member) (by omega) depth (by omega) behind
        · have bound : body.length ≤ (body.flatMap Statement.render).length :=
            length_le_length_flatMap fun inner _ => inner.length_render_pos
          omega
      simp only [Statement.render, Statement.renderAll_eq, parenthesized, bare_cons, bare_append,
        bare_nil, List.cons_append, List.append_assoc, List.nil_append, statement, statementCore,
        function, identifier, symbol, heading, block, bind, Except.bind, if_true, skipSemicolon,
        Statement.relocate, Statement.relocateAll_eq]
  | returning value position =>
      intro depth deep rest
      obtain ⟨depth, rfl⟩ := Nat.exists_eq_succ_of_ne_zero (Nat.ne_zero_of_lt deep)
      simp only [Statement.render, List.cons_append, List.length_cons, List.length_append,
        List.length_nil] at enough deep
      have read := expression_render distinct (by omega : _ ≤ rounds) (by omega : _ < depth)
        semicolon rest
      simp only [Statement.render, bare_cons, bare_append, bare_nil, List.cons_append,
        List.append_assoc, List.nil_append, statement, statementCore, read, bind, Except.bind,
        skipSemicolon, Statement.relocate]
  | gui description =>
      intro depth deep rest
      obtain ⟨depth, rfl⟩ := Nat.exists_eq_succ_of_ne_zero (Nat.ne_zero_of_lt deep)
      simp only [Statement.render, List.length_append, List.length_cons, List.length_nil]
        at enough deep
      have read := gui_render distinct (by omega : _ ≤ rounds) (by omega : _ ≤ depth)
        ((.symbol .semicolon, .nowhere) :: rest)
      have shape : description.render = .keyword .gui :: description.render.tail := rfl
      rw [Statement.render, shape]
      simp only [bare_cons, bare_append, bare_nil, List.cons_append, List.append_assoc,
        List.nil_append, statement, statementCore, read, bind, Except.bind, skipSemicolon]
  | expression value position =>
      intro depth deep rest
      obtain ⟨depth, rfl⟩ := Nat.exists_eq_succ_of_ne_zero (Nat.ne_zero_of_lt deep)
      simp only [Statement.render, List.length_append, List.length_cons, List.length_nil]
        at enough deep
      have read := expression_render distinct (by omega : _ ≤ rounds) (by omega : _ < depth)
        semicolon rest
      simp only [Statement.render, bare_cons, bare_append, bare_nil, List.append_assoc,
        List.cons_append, List.nil_append, statement, statementCore_expression read, bind,
        Except.bind, skipSemicolon, Statement.relocate]

private theorem statements_render {rounds depth : Nat} {last : Position} (program : Program)
    (reads : ∀ one ∈ program, ∀ rest,
      statement rounds depth (bare one.render ++ rest) = .ok (one.unplaced, rest))
    (more : Nat) (enough : program.length < more) (read : List Statement) :
    statements (statement rounds depth) last more read (bare program.render) =
      .ok (read.reverse ++ program.unplaced) := by
  induction program generalizing more read with
  | nil =>
      obtain ⟨more, rfl⟩ := Nat.exists_eq_succ_of_ne_zero (Nat.ne_of_gt enough)
      simp [Program.render, Program.unplaced, Program.relocate, statements]
  | cons one program ih =>
      obtain ⟨more, rfl⟩ := Nat.exists_eq_succ_of_ne_zero (Nat.ne_zero_of_lt enough)
      obtain ⟨oneReads, programReads⟩ := List.forall_mem_cons.mp reads
      obtain ⟨first, tail, shape, going, _⟩ := one.exists_cons_render
      have onward := ih programReads more (by simpa using enough) (one.unplaced :: read)
      have split : bare (Program.render (one :: program)) =
          (first, .nowhere) :: (bare tail ++ bare (Program.render program)) := by
        simp [Program.render, shape]
      have here := oneReads (bare (Program.render program))
      rw [shape, bare_cons, List.cons_append] at here
      rw [split, statements_step _ _ _ _ _ _ going, here]
      simp only [Except.bind, onward]
      simp [Program.unplaced, Program.relocate]

private theorem parse_bare_render (program : Program)
    (distinct : ∀ attributes ∈ program.attributeLists, attributes.Distinct)
    (shallow : ∀ leading, leading <+: program.render →
      opened leading ≤ closed leading + maxNesting) :
    parse (bare program.render) = .ok program.unplaced := by
  have kinds : (bare program.render).map Prod.fst = program.render := by
    simp [bare, Function.comp_def]
  have checked : checkNesting 0 (bare program.render) = .ok () := by
    apply checkNesting_eq_ok
    · intro count
      rw [kinds, Nat.zero_add]
      exact program.balanced_render.covered count
    · intro count
      rw [kinds, Nat.zero_add]
      exact shallow _ (List.take_prefix count _)
  have size : (bare program.render).length = (program.flatMap Statement.render).length + 1 := by
    simp [bare, Program.render]
  unfold parse programWithin
  rw [checked, size]
  simp only [bind, Except.bind]
  have count : program.length ≤ (program.flatMap Statement.render).length :=
    length_le_length_flatMap fun one _ => one.length_render_pos
  apply statements_render program _ _ (by omega)
  intro one member rest
  have bound := length_le_flatMap Statement.render member
  exact statement_render _ one (List.forall_mem_flatMap.mp distinct one member) (by omega) _
    (by omega) rest

end Parser

/-- A rendered program is read as that program, wherever its tokens are placed: its
parentheses are enough, and no loop of the parser takes more tokens than it should. -/
theorem parse_render (program : Program)
    (distinct : ∀ attributes ∈ program.attributeLists, attributes.Distinct)
    (shallow : ∀ leading, leading <+: program.render →
      opened leading ≤ closed leading + maxNesting)
    (tokens : List PlacedToken) (rendered : tokens.map Prod.fst = program.render) :
    ∃ read, parse tokens = .ok read ∧ read.unplaced = program.unplaced := by
  have unplacedTokens : relocateTokens (fun _ => .nowhere) tokens = bare program.render := by
    rw [← rendered]
    simp [relocateTokens, bare, Prod.map]
  have answer := @parse_relocate (fun _ => .nowhere) rfl tokens
  rw [unplacedTokens, Parser.parse_bare_render program distinct shallow] at answer
  cases result : parse tokens with
  | error failure =>
      rw [result] at answer
      cases answer
  | ok read =>
      rw [result] at answer
      exact ⟨read, rfl, (Except.ok.inj answer).symm⟩

/-- A program in which operators of every level stand on both sides of each other, with a
function and an interface. -/
def mixedProgram : Program :=
  let one : Expr := .integer 1 .nowhere
  let name : Expr := .name "a" .nowhere
  let sum : Expr := .binary .add one (.binary .sub name one .nowhere) .nowhere
  let product : Expr := .binary .mul sum (.binary .equal name one .nowhere) .nowhere
  let piped : Expr := .pipe product (.pipe name (.call "f" [sum, name] .nowhere) .nowhere) .nowhere
  let record : Expr := .record [("x", piped), ("window", .list [product] .nowhere)] .nowhere
  [.binding "b" (.access (.access sum "x" .nowhere) "y" .nowhere) .nowhere,
    .function "f" ["p", "q"]
      [.returning record .nowhere, .function "g" [] [.expression record .nowhere] .nowhere] .nowhere,
    .gui ⟨"main", [.window ⟨[("title", name), ("size", sum)],
      [⟨"button", [("text", piped)], .nowhere⟩, ⟨"label", [], .nowhere⟩], .nowhere⟩,
      .widget ⟨"label", [("label", one)], .nowhere⟩], .nowhere⟩,
    .expression (.pipe (.pipe name name .nowhere) name .nowhere) .nowhere]

theorem parse_render_mixedProgram :
    ∃ read, parse (bare mixedProgram.render) = .ok read ∧
      read.unplaced = mixedProgram.unplaced := by
  apply parse_render mixedProgram
  · decide
  · intro leading within
    have few : opened mixedProgram.render ≤ maxNesting := by decide +kernel
    exact Nat.le_trans within.sublist.countP_le (Nat.le_trans few (Nat.le_add_left _ _))
  · simp [bare, Function.comp_def]

end WindowScript
