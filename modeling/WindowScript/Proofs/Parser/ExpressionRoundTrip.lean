import WindowScript.Proofs.Parser.Nesting
import WindowScript.Proofs.Parser.Positions

/-!
# Reading back a rendered expression

The proof works on tokens that all stand at no position and follows the rendering: a
list of parts is read item by item, and an expression is read up to the loop of the
level that its operator belongs to, which goes on with whatever comes behind the
expression.
-/

set_option autoImplicit false

namespace WindowScript

/-- Tokens that all stand at no position. -/
def bare (tokens : List Token) : List PlacedToken := tokens.map (·, .nowhere)

/-- An expression without its positions. -/
abbrev Expr.unplaced (expr : Expr) : Expr := expr.relocate fun _ => .nowhere

abbrev Statement.unplaced (statement : Statement) : Statement :=
  statement.relocate fun _ => .nowhere

@[simp] theorem bare_nil : bare [] = [] := rfl

@[simp] theorem bare_cons (token : Token) (rest : List Token) :
    bare (token :: rest) = (token, .nowhere) :: bare rest := rfl

@[simp] theorem bare_append (left right : List Token) :
    bare (left ++ right) = bare left ++ bare right := List.map_append

namespace Attributes

private theorem insert_of_notMem {name : String} {attributes : Attributes} (value : Expr)
    (fresh : name ∉ attributes.map Prod.fst) :
    attributes.insert name value = attributes ++ [(name, value)] := by
  induction attributes with
  | nil => rfl
  | cons entry rest ih =>
      obtain ⟨key, held⟩ := entry
      simp only [List.map_cons, List.mem_cons, not_or] at fresh
      obtain ⟨different, fresh⟩ := fresh
      simp only [insert, List.cons_append, if_neg (Ne.symm different), ih fresh]

private theorem ofEntries_eq_self {entries : Attributes} (distinct : entries.Distinct) :
    ofEntries entries = entries := by
  -- Nothing that is already there has the name of an entry still to come.
  suffices folded : ∀ held : Attributes, (held ++ entries).Distinct →
      entries.foldl (fun attributes entry => attributes.insert entry.1 entry.2) held =
        held ++ entries from folded [] distinct
  clear distinct
  induction entries with
  | nil => intro held _; rw [List.foldl_nil, List.append_nil]
  | cons entry rest ih =>
      intro held distinct
      have fresh : entry.1 ∉ held.map Prod.fst := by
        intro member
        unfold Attributes.Distinct at distinct
        rw [List.map_append, List.nodup_append] at distinct
        exact distinct.2.2 _ member _ (by simp) rfl
      have split : held ++ entry :: rest = (held ++ [entry]) ++ rest := by simp
      rw [List.foldl_cons, insert_of_notMem entry.2 fresh, split]
      exact ih (held ++ [entry]) (split ▸ distinct)

theorem ofEntries_relocate {entries : Attributes} (move : Position → Position)
    (distinct : entries.Distinct) :
    ofEntries (Attributes.relocate move entries) = Attributes.relocate move entries := by
  rw [← relocate_ofEntries, ofEntries_eq_self distinct]

end Attributes

namespace Parser

/-!
## Sequences of parts
-/

section

variable {α β : Type} {item : Parser α} {closing : Symbol} {spell : β → List Token}
  {value : β → α}

@[simp] theorem startsWith_symbol (mark found : Symbol) (position : Position)
    (rest : List PlacedToken) :
    startsWith mark ((.symbol found, position) :: rest) = decide (found = mark) := rfl

theorem separated_commaJoined (apart : closing ≠ .comma) (items : List β)
    (begins : ∀ part ∈ items, ∀ rest, startsWith closing (bare (spell part) ++ rest) = false)
    (reads : ∀ part ∈ items, ∀ mark rest, (mark = .comma ∨ mark = closing) →
      item (bare (spell part) ++ (.symbol mark, .nowhere) :: rest) =
        .ok (value part, (.symbol mark, .nowhere) :: rest))
    (rounds : Nat) (enough : items.length < rounds) (read : List α) (rest : List PlacedToken) :
    separated item closing rounds read
        (bare (commaJoined (items.map spell)) ++ (.symbol closing, .nowhere) :: rest) =
      .ok (read.reverse ++ items.map value, rest) := by
  induction items generalizing rounds read with
  | nil =>
      obtain ⟨rounds, rfl⟩ := Nat.exists_eq_succ_of_ne_zero (Nat.ne_of_gt enough)
      simp [commaJoined, separated]
  | cons part items ih =>
      obtain ⟨rounds, rfl⟩ := Nat.exists_eq_succ_of_ne_zero (Nat.ne_zero_of_lt enough)
      obtain ⟨partBegins, itemsBegin⟩ := List.forall_mem_cons.mp begins
      obtain ⟨partReads, itemsRead⟩ := List.forall_mem_cons.mp reads
      cases items with
      | nil =>
          have different : ¬ closing = .comma := apart
          simp [commaJoined, separated, partBegins, partReads closing rest (.inr rfl), different,
            bind, Except.bind]
      | cons second items =>
          have onward := ih itemsBegin itemsRead rounds (by simpa using enough)
            (value part :: read)
          simp only [List.map_cons, commaJoined, bare_append, bare_cons, List.append_assoc,
            List.cons_append, separated, partBegins, Bool.false_eq_true, if_false] at onward ⊢
          rw [partReads .comma _ (.inl rfl)]
          simp only [bind, Except.bind, startsWith_symbol, decide_true, if_true, List.tail_cons]
          rw [onward]
          simp

theorem delimited_flatMap (items : List β)
    (begins : ∀ part ∈ items, ∀ rest, startsWith closing (bare (spell part) ++ rest) = false)
    (reads : ∀ part ∈ items, ∀ rest, item (bare (spell part) ++ rest) = .ok (value part, rest))
    (rounds : Nat) (enough : items.length < rounds) (read : List α) (rest : List PlacedToken) :
    delimited item closing rounds read
        (bare (items.flatMap spell) ++ (.symbol closing, .nowhere) :: rest) =
      .ok (read.reverse ++ items.map value, rest) := by
  induction items generalizing rounds read with
  | nil =>
      obtain ⟨rounds, rfl⟩ := Nat.exists_eq_succ_of_ne_zero (Nat.ne_of_gt enough)
      simp [delimited]
  | cons part items ih =>
      obtain ⟨rounds, rfl⟩ := Nat.exists_eq_succ_of_ne_zero (Nat.ne_zero_of_lt enough)
      obtain ⟨partBegins, itemsBegin⟩ := List.forall_mem_cons.mp begins
      obtain ⟨partReads, itemsRead⟩ := List.forall_mem_cons.mp reads
      have onward := ih itemsBegin itemsRead rounds (by simpa using enough) (value part :: read)
      simp only [List.flatMap_cons, bare_append, List.append_assoc, delimited, partBegins,
        partReads, Bool.false_eq_true, if_false, bind, Except.bind]
      rw [onward]
      simp

end

/-!
## Levels

What stands behind an expression decides where reading it stops.
-/

/-- No token that could go on with an expression of the chosen levels comes next. -/
def Stops (chosen : List Level) : List PlacedToken → Prop
  | [] => True
  | (token, _) :: _ =>
      token ≠ .symbol .dot ∧ token ≠ .symbol .openRound ∧
        ∀ level ∈ chosen, level.join? token = none

theorem Stops.mono {chosen fewer : List Level} {rest : List PlacedToken}
    (stops : Stops chosen rest) (included : ∀ level ∈ fewer, level ∈ chosen) :
    Stops fewer rest := by
  cases rest with
  | nil => trivial
  | cons head rest =>
      obtain ⟨noDot, noCall, noJoin⟩ := stops
      exact ⟨noDot, noCall, fun level member => noJoin level (included level member)⟩

theorem stops_symbol {mark : Symbol} (chosen : List Level) (position : Position)
    (rest : List PlacedToken) (ends : mark = .comma ∨ mark = .semicolon ∨ mark.closes = true) :
    Stops chosen ((.symbol mark, position) :: rest) := by
  rcases ends with rfl | rfl | closes
  · exact ⟨by simp, by simp, fun level _ => by cases level <;> rfl⟩
  · exact ⟨by simp, by simp, fun level _ => by cases level <;> rfl⟩
  · refine ⟨?_, ?_, ?_⟩
    · rintro ⟨⟩
      cases closes
    · rintro ⟨⟩
      cases closes
    · intro level _
      cases mark <;> cases level <;> first | rfl | cases closes

section

variable (rounds : Nat) (nested : Parser Expr)

theorem suffixes_of_stops {chosen : List Level} {rest : List PlacedToken} (more : Nat)
    (node : Expr) (stops : Stops chosen rest) :
    suffixes rounds nested more node rest = .ok (node, rest) := by
  cases more with
  | zero => rfl
  | succ more =>
      cases rest with
      | nil => rfl
      | cons head rest =>
          obtain ⟨token, position⟩ := head
          obtain ⟨noDot, noCall, _⟩ := stops
          cases token with
          | symbol mark =>
              cases mark with
              | dot => exact absurd rfl noDot
              | openRound => exact absurd rfl noCall
              | _ => rfl
          | _ => rfl

theorem chain_of_stops {chosen : List Level} {rest : List PlacedToken} {level : Level}
    (operand : Parser Expr) (more : Nat) (left : Expr) (stops : Stops chosen rest)
    (member : level ∈ chosen) : chain level operand more left rest = .ok (left, rest) := by
  cases more with
  | zero => rfl
  | succ more =>
      cases rest with
      | nil => rfl
      | cons head rest =>
          obtain ⟨_, _, noJoin⟩ := stops
          simp only [chain, noJoin level member]

private theorem levels_append {looser inner : List Level} {tokens rest : List PlacedToken}
    {expr : Expr} (read : levels rounds nested inner tokens = .ok (expr, rest))
    (stops : Stops (looser ++ inner) rest) :
    levels rounds nested (looser ++ inner) tokens = .ok (expr, rest) := by
  induction looser with
  | nil => exact read
  | cons level looser ih =>
      have inside := ih (stops.mono fun _ member => List.mem_cons_of_mem _ member)
      simp only [List.cons_append, levels, inside, bind, Except.bind]
      exact chain_of_stops _ rounds expr stops (by simp)

end

def atLeast : Nat → List Level
  | 0 => Level.all
  | 1 => Level.equality :: Level.equality.tighter
  | 2 => Level.sum :: Level.sum.tighter
  | 3 => Level.product :: Level.product.tighter
  | _ => []

private theorem atLeast_strength_succ (level : Level) :
    atLeast (level.strength + 1) = level.tighter := by
  cases level <;> rfl

private theorem atLeast_split {needed : Nat} {level : Level} (loose : needed ≤ level.strength) :
    ∃ looser, atLeast needed = looser ++ (level :: level.tighter) := by
  cases level with
  | pipeline =>
      obtain rfl : needed = 0 := Nat.le_zero.mp loose
      exact ⟨[], rfl⟩
  | equality =>
      match needed, loose with
      | 0, _ => exact ⟨[.pipeline], rfl⟩
      | 1, _ => exact ⟨[], rfl⟩
  | sum =>
      match needed, loose with
      | 0, _ => exact ⟨[.pipeline, .equality], rfl⟩
      | 1, _ => exact ⟨[.equality], rfl⟩
      | 2, _ => exact ⟨[], rfl⟩
  | product =>
      match needed, loose with
      | 0, _ => exact ⟨[.pipeline, .equality, .sum], rfl⟩
      | 1, _ => exact ⟨[.equality, .sum], rfl⟩
      | 2, _ => exact ⟨[.sum], rfl⟩
      | 3, _ => exact ⟨[], rfl⟩

/-!
## Expressions
-/

/-- Reading `tokens` in front of anything arrives at the loop for attribute reads and
calls, with `expr` read and one round or more left for each token still to come. -/
def ArrivesAtSuffixes (rounds : Nat) (nested : Parser Expr) (tokens : List Token)
    (expr : Expr) : Prop :=
  ∀ rest, ∃ more, rounds < more + tokens.length ∧
    applied rounds nested (bare tokens ++ rest) = suffixes rounds nested more expr rest

/-- Reading `tokens` arrives at the loop of a level with `expr` read, in front of
anything that does not go on with an operand of this level. -/
def ArrivesAtChain (rounds : Nat) (nested : Parser Expr) (level : Level) (tokens : List Token)
    (expr : Expr) : Prop :=
  ∀ rest, Stops level.tighter rest → ∃ more, rounds < more + tokens.length ∧
    levels rounds nested (level :: level.tighter) (bare tokens ++ rest) =
      chain level (levels rounds nested level.tighter) more expr rest

/-- An expression arrives at the loop that its last operator belongs to. -/
def Arrives (rounds : Nat) (nested : Parser Expr) (expr : Expr) : Prop :=
  match expr.level? with
  | none => ArrivesAtSuffixes rounds nested expr.render expr.unplaced
  | some level => ArrivesAtChain rounds nested level expr.render expr.unplaced

section

variable {rounds : Nat} {nested : Parser Expr}

private theorem ArrivesAtSuffixes.levels_eq {tokens : List Token} {expr : Expr}
    (arrives : ArrivesAtSuffixes rounds nested tokens expr) (chosen : List Level)
    {rest : List PlacedToken} (stops : Stops chosen rest) :
    levels rounds nested chosen (bare tokens ++ rest) = .ok (expr, rest) := by
  obtain ⟨more, _, arrived⟩ := arrives rest
  have inner : levels rounds nested [] (bare tokens ++ rest) = .ok (expr, rest) := by
    rw [levels, arrived]
    exact suffixes_of_stops rounds nested more expr stops
  have whole : levels rounds nested (chosen ++ []) (bare tokens ++ rest) = .ok (expr, rest) :=
    levels_append rounds nested inner (by simpa using stops)
  simpa using whole

private theorem arrivesAtChain_of_levels {level : Level} {tokens : List Token} {expr : Expr}
    (nonempty : 0 < tokens.length)
    (reads : ∀ rest, Stops level.tighter rest →
      levels rounds nested level.tighter (bare tokens ++ rest) = .ok (expr, rest)) :
    ArrivesAtChain rounds nested level tokens expr := by
  intro rest stops
  refine ⟨rounds, by omega, ?_⟩
  simp only [levels, reads rest stops, bind, Except.bind]

/-- At every place that does not ask for more strength than it has, an expression is
read whole. -/
theorem Arrives.levels_eq {expr : Expr} (arrives : Arrives rounds nested expr) {needed : Nat}
    (strong : needed ≤ expr.strength) {rest : List PlacedToken}
    (stops : Stops (atLeast needed) rest) :
    levels rounds nested (atLeast needed) (bare expr.render ++ rest) =
      .ok (expr.unplaced, rest) := by
  unfold Arrives at arrives
  unfold Expr.strength at strong
  cases own : expr.level? with
  | none =>
      simp only [own] at arrives
      exact arrives.levels_eq _ stops
  | some level =>
      simp only [own] at arrives strong
      obtain ⟨looser, split⟩ := atLeast_split strong
      rw [split] at stops ⊢
      obtain ⟨more, _, arrived⟩ :=
        arrives rest (stops.mono fun _ member => by simp [member])
      apply levels_append _ _ _ stops
      rw [arrived]
      exact chain_of_stops _ more _ stops (by simp)

private theorem Arrives.arrivesAtChain {expr : Expr} (arrives : Arrives rounds nested expr)
    {level : Level} (strong : level.strength ≤ expr.strength) :
    ArrivesAtChain rounds nested level expr.render expr.unplaced := by
  by_cases own : expr.level? = some level
  · unfold Arrives at arrives
    simpa only [own] using arrives
  · have stronger : level.strength + 1 ≤ expr.strength := by
      apply Nat.lt_of_le_of_ne strong
      intro same
      apply own
      unfold Expr.strength at same
      cases held : expr.level? with
      | none =>
          simp only [held] at same
          cases level <;> cases same
      | some other =>
          simp only [held] at same
          cases level <;> cases other <;> first | rfl | cases same
    apply arrivesAtChain_of_levels expr.length_render_pos
    intro rest stops
    rw [← atLeast_strength_succ] at stops ⊢
    exact arrives.levels_eq stronger stops

end

/-- An expression is read wherever depth is left for each of its tokens. -/
def Readable (rounds : Nat) (expr : Expr) : Prop :=
  ∀ depth, expr.render.length ≤ depth → Arrives rounds (expression rounds depth) expr

section

variable {rounds depth : Nat} {expr : Expr}

/-- A readable expression is read whole between delimiters and separators. -/
theorem Readable.expression_eq (readable : Readable rounds expr)
    (deep : expr.render.length < depth) {rest : List PlacedToken} (stops : Stops Level.all rest) :
    expression rounds depth (bare expr.render ++ rest) = .ok (expr.unplaced, rest) := by
  obtain ⟨depth, rfl⟩ := Nat.exists_eq_succ_of_ne_zero (Nat.ne_zero_of_lt deep)
  exact (readable depth (Nat.le_of_lt_succ deep)).levels_eq (Nat.zero_le _) stops

private theorem Readable.parenthesized (readable : Readable rounds expr)
    (deep : (parenthesized expr.render).length ≤ depth) :
    ArrivesAtSuffixes rounds (expression rounds depth) (parenthesized expr.render)
      expr.unplaced := by
  intro rest
  rw [length_parenthesized] at deep ⊢
  refine ⟨rounds, by omega, ?_⟩
  have inner := readable.expression_eq (by omega : expr.render.length < depth)
    (stops_symbol Level.all .nowhere rest (.inr (.inr (rfl : Symbol.closeRound.closes = true))))
  simp [WindowScript.parenthesized, applied, primary, inner, symbol, bind, Except.bind]

private theorem Readable.left (readable : Readable rounds expr) (level : Level)
    (deep : (placed level.strength expr.strength expr.render).length ≤ depth) :
    ArrivesAtChain rounds (expression rounds depth) level
      (placed level.strength expr.strength expr.render) expr.unplaced := by
  by_cases weak : expr.strength < level.strength
  · simp only [placed, if_pos weak] at deep ⊢
    apply arrivesAtChain_of_levels (by simp)
    intro rest stops
    exact (readable.parenthesized deep).levels_eq _ stops
  · simp only [placed, if_neg weak] at deep ⊢
    exact (readable depth deep).arrivesAtChain (Nat.le_of_not_lt weak)

private theorem Readable.right (readable : Readable rounds expr) (level : Level)
    (deep : (placed (level.strength + 1) expr.strength expr.render).length ≤ depth)
    {rest : List PlacedToken} (stops : Stops level.tighter rest) :
    levels rounds (expression rounds depth) level.tighter
        (bare (placed (level.strength + 1) expr.strength expr.render) ++ rest) =
      .ok (expr.unplaced, rest) := by
  by_cases weak : expr.strength < level.strength + 1
  · simp only [placed, if_pos weak] at deep ⊢
    exact (readable.parenthesized deep).levels_eq _ stops
  · simp only [placed, if_neg weak] at deep ⊢
    rw [← atLeast_strength_succ] at stops ⊢
    exact (readable depth deep).levels_eq (Nat.le_of_not_lt weak) stops

private theorem Readable.object (readable : Readable rounds expr)
    (deep : (placed atomStrength expr.strength expr.render).length ≤ depth) :
    ArrivesAtSuffixes rounds (expression rounds depth)
      (placed atomStrength expr.strength expr.render) expr.unplaced := by
  by_cases weak : expr.strength < atomStrength
  · simp only [placed, if_pos weak] at deep ⊢
    exact readable.parenthesized deep
  · simp only [placed, if_neg weak] at deep ⊢
    have arrives := readable depth deep
    unfold Arrives at arrives
    cases own : expr.level? with
    | none => simpa only [own] using arrives
    | some level =>
        simp only [Expr.strength, own] at weak
        cases level <;> exact absurd (by decide) weak

end

private theorem arrivesAtChain_join {rounds depth : Nat} {level : Level} {mark : Symbol}
    {join : Expr → Expr → Position → Expr} {left right : Expr}
    (joins : level.join? (.symbol mark) = some join)
    (apart : Stops level.tighter [(.symbol mark, .nowhere)])
    (leftReadable : Readable rounds left) (rightReadable : Readable rounds right)
    (tokens : List Token)
    (shape : tokens = placed level.strength left.strength left.render ++ .symbol mark ::
      placed (level.strength + 1) right.strength right.render)
    (enough : tokens.length ≤ rounds) (deep : tokens.length ≤ depth) :
    ArrivesAtChain rounds (expression rounds depth) level tokens
      (join left.unplaced right.unplaced .nowhere) := by
  intro rest stops
  subst shape
  simp only [List.length_append, List.length_cons] at enough deep ⊢
  have leftDeep : (placed level.strength left.strength left.render).length ≤ depth := by omega
  have rightDeep : (placed (level.strength + 1) right.strength right.render).length ≤ depth := by
    omega
  obtain ⟨more, bound, arrived⟩ := leftReadable.left level leftDeep
    ((.symbol mark, .nowhere) ::
      (bare (placed (level.strength + 1) right.strength right.render) ++ rest)) apart
  -- The left operand has fewer tokens than there are rounds, so that one is left.
  obtain ⟨more, rfl⟩ : ∃ fewer, more = fewer + 1 := ⟨more - 1, by omega⟩
  refine ⟨more, by omega, ?_⟩
  have rightRead := rightReadable.right level rightDeep stops
  rw [bare_append, bare_cons, List.append_assoc, List.cons_append, arrived]
  simp only [chain, joins, rightRead, bind, Except.bind]

theorem word_ofWord (expected : Expectation) (spelled : String) (position : Position)
    (rest : List PlacedToken) :
    word expected ((.ofWord spelled, position) :: rest) = .ok (spelled, rest) := by
  simp only [word, Token.word?_ofWord]

theorem startsWith_ofWord (mark : Symbol) (spelled : String) (position : Position)
    (rest : List PlacedToken) :
    startsWith mark ((.ofWord spelled, position) :: rest) = false := by
  cases shape : Token.ofWord spelled with
  | symbol found => exact absurd shape (Token.ofWord_ne rfl _)
  | _ => rfl

private theorem startsWith_render {mark : Symbol} (closes : mark.closes = true) (expr : Expr)
    (rest : List PlacedToken) : startsWith mark (bare expr.render ++ rest) = false := by
  obtain ⟨first, tail, shape, begins⟩ := expr.exists_cons_render
  rw [shape]
  cases first with
  | symbol found =>
      simp only [bare_cons, List.cons_append, startsWith_symbol, decide_eq_false_iff_not]
      rintro rfl
      cases found <;> first | exact absurd closes (by decide) | exact absurd begins (by decide)
  | _ => rfl

private theorem separated_render {rounds depth : Nat} {closing : Symbol}
    (closes : closing.closes = true) {items : List Expr}
    (readable : ∀ item ∈ items, Readable rounds item)
    (enough : (commaJoined (items.map Expr.render)).length < rounds)
    (deep : (commaJoined (items.map Expr.render)).length < depth) (rest : List PlacedToken) :
    separated (expression rounds depth) closing rounds []
        (bare (commaJoined (items.map Expr.render)) ++ (.symbol closing, .nowhere) :: rest) =
      .ok (items.map Expr.unplaced, rest) := by
  apply separated_commaJoined
  · rintro rfl
    cases closes
  · intro item _ behind
    exact startsWith_render closes item behind
  · intro item member mark behind ends
    have bound := length_le_commaJoined Expr.render member
    apply (readable item member).expression_eq (by omega)
    apply stops_symbol
    rcases ends with rfl | rfl
    · exact .inl rfl
    · exact .inr (.inr closes)
  · have bound : items.length ≤ (commaJoined (items.map Expr.render)).length :=
      length_le_length_commaJoined fun item _ => item.length_render_pos
    omega

private theorem delimited_recordTokens {rounds depth : Nat} {entries : List (String × Expr)}
    (readable : ∀ entry ∈ entries, Readable rounds entry.2)
    (enough : (recordTokens entries).length < rounds)
    (deep : (recordTokens entries).length < depth) (rest : List PlacedToken) :
    delimited (recordEntry (expression rounds depth)) .closeCurly rounds []
        (bare (recordTokens entries) ++ (.symbol .closeCurly, .nowhere) :: rest) =
      .ok (Attributes.relocate (fun _ => .nowhere) entries, rest) := by
  apply delimited_flatMap
  · intro entry _ behind
    exact startsWith_ofWord _ _ _ _
  · intro entry member behind
    have bound : (entryTokens entry.1 entry.2.render).length ≤ (recordTokens entries).length :=
      length_le_flatMap (fun entry => entryTokens entry.1 entry.2.render) member
    have shorter : entry.2.render.length < depth := by
      simp only [entryTokens, List.cons_append, List.length_cons, List.length_append] at bound
      omega
    have read := (readable entry member).expression_eq shorter
      (stops_symbol Level.all .nowhere behind (.inr (.inl (rfl : Symbol.semicolon = .semicolon))))
    simp only [entryTokens, bare_cons, bare_append, List.cons_append, List.append_assoc,
      bare_nil, List.nil_append, recordEntry, word_ofWord, symbol, read, bind, Except.bind,
      if_true, skipSemicolon]
    rfl
  · have bound : entries.length ≤ (recordTokens entries).length :=
      length_le_length_flatMap fun entry _ => by simp [entryTokens]
    omega

private theorem arrivesAtSuffixes_token {rounds : Nat} {nested : Parser Expr} {token : Token}
    {expr : Expr}
    (read : ∀ rest, primary rounds nested ((token, .nowhere) :: rest) = .ok (expr, rest)) :
    ArrivesAtSuffixes rounds nested [token] expr := by
  intro rest
  refine ⟨rounds, by simp, ?_⟩
  simp only [bare_cons, bare_nil, List.cons_append, List.nil_append, applied, read, bind,
    Except.bind]

private theorem join?_symbol (operator : Operator) :
    operator.level.join? (.symbol operator.symbol) = some (.binary operator) := by
  cases operator <;> rfl

private theorem stops_operator (operator : Operator) :
    Stops operator.level.tighter [(.symbol operator.symbol, .nowhere)] := by
  cases operator <;> exact ⟨by simp [Operator.symbol], by simp [Operator.symbol], by decide⟩

private theorem stops_pipe : Stops Level.pipeline.tighter [(.symbol .pipe, .nowhere)] :=
  ⟨by simp, by simp, by decide⟩

/-- Every expression whose attribute lists have distinct names is readable. -/
theorem readable (rounds : Nat) (expr : Expr)
    (distinct : ∀ attributes ∈ expr.attributeLists, attributes.Distinct)
    (enough : expr.render.length ≤ rounds) : Readable rounds expr := by
  induction expr using Expr.structural with
  | integer value position =>
      intro depth _
      exact arrivesAtSuffixes_token fun rest => rfl
  | real value position =>
      intro depth _
      exact arrivesAtSuffixes_token fun rest => rfl
  | text value position =>
      intro depth _
      exact arrivesAtSuffixes_token fun rest => rfl
  | boolean value position =>
      intro depth _
      cases value <;> exact arrivesAtSuffixes_token fun rest => rfl
  | name label position =>
      intro depth _
      exact arrivesAtSuffixes_token fun rest => rfl
  | binary operator left right position leftIH rightIH =>
      intro depth deep
      simp only [Expr.attributeLists, List.forall_mem_append] at distinct
      have leftBound := length_le_placed operator.level.strength left.strength left.render
      have rightBound := length_le_placed (operator.level.strength + 1) right.strength right.render
      have total := enough
      simp only [Expr.render, List.length_append, List.length_cons] at total
      exact arrivesAtChain_join (join?_symbol operator) (stops_operator operator)
        (leftIH distinct.1 (by omega)) (rightIH distinct.2 (by omega)) _ (by rw [Expr.render])
        enough deep
  | record entries position entriesIH =>
      intro depth deep rest
      simp only [Expr.attributeLists, Expr.attributeListsOfEntries_eq, List.forall_mem_cons,
        List.forall_mem_flatMap] at distinct
      rw [Expr.render_record] at deep enough ⊢
      simp only [List.cons_append, List.length_cons, List.length_append, List.length_nil]
        at deep enough ⊢
      refine ⟨rounds, by omega, ?_⟩
      have entriesReadable : ∀ entry ∈ entries, Readable rounds entry.2 := by
        intro entry member
        have bound : (entryTokens entry.1 entry.2.render).length ≤ (recordTokens entries).length :=
          length_le_flatMap (fun entry => entryTokens entry.1 entry.2.render) member
        simp only [entryTokens, List.cons_append, List.length_cons, List.length_append] at bound
        exact entriesIH entry member (distinct.2 entry member) (by omega)
      have entriesShort : (recordTokens entries).length < rounds := by omega
      have entriesShallow : (recordTokens entries).length < depth := by omega
      have read := delimited_recordTokens entriesReadable entriesShort entriesShallow rest
      simp only [bare_cons, bare_append, List.cons_append, List.append_assoc, bare_nil,
        List.nil_append, applied, primary, read, bind, Except.bind, Expr.relocate,
        Expr.relocateEntries_eq, Attributes.ofEntries_relocate _ distinct.1]
  | access object key position objectIH =>
      intro depth deep rest
      have bound := length_le_placed atomStrength object.strength object.render
      simp only [Expr.render, List.length_append, List.length_cons, List.length_nil]
        at deep enough ⊢
      have objectDeep : (placed atomStrength object.strength object.render).length ≤ depth := by
        omega
      obtain ⟨more, left, arrived⟩ := (objectIH distinct (by omega)).object objectDeep
        ((.symbol .dot, .nowhere) :: (.ofWord key, .nowhere) :: rest)
      obtain ⟨more, rfl⟩ : ∃ fewer, more = fewer + 1 := ⟨more - 1, by omega⟩
      refine ⟨more, by omega, ?_⟩
      simp only [bare_append, bare_cons, bare_nil, List.append_assoc, List.cons_append,
        List.nil_append, arrived, suffixes, word_ofWord, bind, Except.bind, Expr.relocate]
  | list items position itemsIH =>
      intro depth deep rest
      simp only [Expr.attributeLists, Expr.attributeListsOfItems_eq,
        List.forall_mem_flatMap] at distinct
      simp only [Expr.render, Expr.renderItems_eq, List.cons_append, List.length_cons,
        List.length_append, List.length_nil] at deep enough ⊢
      refine ⟨rounds, by omega, ?_⟩
      have itemsReadable : ∀ item ∈ items, Readable rounds item := by
        intro item member
        have bound := length_le_commaJoined Expr.render member
        exact itemsIH item member (distinct item member) (by omega)
      have itemsShort : (commaJoined (items.map Expr.render)).length < rounds := by omega
      have itemsShallow : (commaJoined (items.map Expr.render)).length < depth := by omega
      have read := separated_render (rfl : Symbol.closeSquare.closes = true) itemsReadable
        itemsShort itemsShallow rest
      simp only [bare_cons, bare_append, List.cons_append, List.append_assoc, bare_nil,
        List.nil_append, applied, primary, read, bind, Except.bind, Expr.relocate,
        Expr.relocateItems_eq]
  | call callee arguments position argumentsIH =>
      intro depth deep rest
      simp only [Expr.attributeLists, Expr.attributeListsOfItems_eq,
        List.forall_mem_flatMap] at distinct
      simp only [Expr.render, Expr.renderItems_eq, List.cons_append, List.length_cons,
        List.length_append, List.length_nil] at deep enough ⊢
      have argumentsReadable : ∀ argument ∈ arguments, Readable rounds argument := by
        intro argument member
        have bound := length_le_commaJoined Expr.render member
        exact argumentsIH argument member (distinct argument member) (by omega)
      have argumentsShort : (commaJoined (arguments.map Expr.render)).length < rounds := by omega
      have argumentsShallow : (commaJoined (arguments.map Expr.render)).length < depth := by omega
      have read := separated_render (rfl : Symbol.closeRound.closes = true) argumentsReadable
        argumentsShort argumentsShallow rest
      obtain ⟨fewer, split⟩ : ∃ fewer, rounds = fewer + 1 := ⟨rounds - 1, by omega⟩
      refine ⟨fewer, by omega, ?_⟩
      simp only [bare_cons, bare_append, List.cons_append, List.append_assoc, bare_nil,
        List.nil_append, applied, primary, bind, Except.bind, Expr.relocate,
        Expr.relocateItems_eq]
      -- The first of all rounds reads the call.
      rw [show suffixes rounds (expression rounds depth) rounds =
        suffixes rounds (expression rounds depth) (fewer + 1) by rw [← split]]
      simp only [suffixes, read, bind, Except.bind]
  | pipe left right position leftIH rightIH =>
      intro depth deep
      simp only [Expr.attributeLists, List.forall_mem_append] at distinct
      have leftBound := length_le_placed Level.pipeline.strength left.strength left.render
      have rightBound :=
        length_le_placed (Level.pipeline.strength + 1) right.strength right.render
      have total := enough
      simp only [Expr.render, List.length_append, List.length_cons] at total
      exact arrivesAtChain_join rfl stops_pipe (leftIH distinct.1 (by omega))
        (rightIH distinct.2 (by omega)) _ (by rw [Expr.render]) enough deep

theorem expression_render {rounds depth : Nat} {expr : Expr}
    (distinct : ∀ attributes ∈ expr.attributeLists, attributes.Distinct)
    (enough : expr.render.length ≤ rounds) (deep : expr.render.length < depth) {mark : Symbol}
    (ends : mark = .comma ∨ mark = .semicolon ∨ mark.closes = true) (rest : List PlacedToken) :
    expression rounds depth (bare expr.render ++ (.symbol mark, .nowhere) :: rest) =
      .ok (expr.unplaced, (.symbol mark, .nowhere) :: rest) :=
  (readable rounds expr distinct enough).expression_eq deep (stops_symbol _ _ rest ends)

end Parser

end WindowScript
