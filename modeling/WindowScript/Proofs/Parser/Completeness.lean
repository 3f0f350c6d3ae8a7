import WindowScript.Proofs.Parser.ExpressionRoundTrip
import WindowScript.Proofs.Parser.Soundness

/-!
# What is in the grammar is read

The parsers of expressions and of interfaces read every phrase of theirs whole, with the
node that the grammar gives it, in front of anything that cannot go on with it. Inside of an
expression the grammar leaves no choice. Behind one it does: in front of an opening round
bracket an expression is never read as itself, but as a larger one or not at all.
-/

set_option autoImplicit false

namespace WindowScript

open Grammar

namespace Grammar

/-- Induction over the part of a derivation that no delimiters enclose. -/
@[elab_as_elim]
theorem Derives.outermost {motive : Nonterminal → List PlacedToken → Expr → Prop}
    {kind : Nonterminal} {tokens : List PlacedToken} {expr : Expr}
    (derived : Derives kind tokens expr)
    (primary : ∀ {tokens expr}, Derives .primary tokens expr → motive .primary tokens expr)
    (operand : ∀ {looser tighter tokens expr}, Loosens looser tighter →
      Derives tighter tokens expr → motive tighter tokens expr → motive looser tokens expr)
    (joined : ∀ {looser tighter mark join leftTokens rightTokens left right} position,
      Joins looser mark tighter join → Derives looser leftTokens left →
      Derives tighter rightTokens right → motive looser leftTokens left →
      motive tighter rightTokens right →
      motive looser (leftTokens ++ (.symbol mark, position) :: rightTokens)
        (join left right position))
    (access : ∀ {tokens object} {word : Token} {key} position start,
      Derives .applied tokens object → word.word? = some key → motive .applied tokens object →
      motive .applied (tokens ++ [(.symbol .dot, position), (word, start)])
        (.access object key position))
    (call : ∀ {tokens inner callee arguments origin} opening closing,
      Derives .applied tokens (.name callee origin) →
      Separated (Derives .pipe) inner arguments → motive .applied tokens (.name callee origin) →
      motive .applied
        (tokens ++ (.symbol .openRound, opening) :: inner ++ [(.symbol .closeRound, closing)])
        (.call callee arguments origin)) :
    motive kind tokens expr := by
  refine @Derives.rec (fun kind tokens expr _ => motive kind tokens expr) (fun _ _ _ => True)
    (fun _ _ _ => True) (fun _ _ _ => True)
    ?operand ?joined ?access ?call ?integer ?real ?text ?yes ?no ?name ?group ?record ?list
    ?noItem ?lastItem ?moreItems ?noEntry ?moreEntries ?entry kind tokens expr derived
  case operand => exact fun loosens derived ih => operand loosens derived ih
  case joined =>
    exact fun joins left right leftIH rightIH => joined _ joins left right leftIH rightIH
  case access => exact fun object spelled ih => access _ _ object spelled ih
  case call => exact fun callee arguments ih _ => call _ _ callee arguments ih
  case integer => exact fun value position => primary (.integer value position)
  case real => exact fun value position => primary (.real value position)
  case text => exact fun value position => primary (.text value position)
  case yes => exact fun position => primary (.yes position)
  case no => exact fun position => primary (.no position)
  case name => exact fun label position => primary (.name label position)
  case group => exact fun inner _ => primary (.group inner)
  case record => exact fun entries _ => primary (.record entries)
  case list => exact fun items _ => primary (.list items)
  all_goals simp

theorem Derives.exists_cons {kind : Nonterminal} {tokens : List PlacedToken} {expr : Expr}
    (derived : Derives kind tokens expr) :
    ∃ first position rest, tokens = (first, position) :: rest ∧
      first.beginsExpression = true := by
  refine derived.outermost ?primary ?operand ?joined ?access ?call
  case primary =>
    intro tokens expr derived
    cases derived with
    | operand loosens => cases loosens
    | joined joins => cases joins
    | _ => exact ⟨_, _, _, rfl, rfl⟩
  case operand => exact fun _ _ ih => ih
  case joined =>
    intro _ _ _ _ _ _ _ _ _ _ _ _ leftIH _
    obtain ⟨first, position, rest, rfl, begins⟩ := leftIH
    exact ⟨first, position, _, rfl, begins⟩
  case access =>
    intro _ _ _ _ _ _ _ _ ih
    obtain ⟨first, position, rest, rfl, begins⟩ := ih
    exact ⟨first, position, _, rfl, begins⟩
  case call =>
    intro _ _ _ _ _ _ _ _ _ ih
    obtain ⟨first, position, rest, rfl, begins⟩ := ih
    exact ⟨first, position, _, rfl, begins⟩

end Grammar

namespace Parser

/-!
## Single tokens
-/

theorem symbol_cons (mark : Symbol) (position : Position) (rest : List PlacedToken) :
    symbol mark ((.symbol mark, position) :: rest) = .ok (position, rest) := by
  simp [symbol]

private theorem word_cons {token : Token} {name : String} (spelled : token.word? = some name)
    (expected : Expectation) (position : Position) (rest : List PlacedToken) :
    word expected ((token, position) :: rest) = .ok (name, rest) := by
  simp only [word, spelled]

/-- What may follow where a semicolon may stand and none does. -/
def Apart (rest : List PlacedToken) : Prop :=
  Stops Level.all rest ∧ startsWith .semicolon rest = false

theorem skipSemicolon_ending {ending rest : List PlacedToken} (ended : Ending ending)
    (apart : startsWith .semicolon rest = false) : skipSemicolon (ending ++ rest) = rest := by
  cases ended with
  | absent =>
      rw [List.nil_append]
      unfold skipSemicolon
      split
      · cases apart
      · rfl
  | semicolon position => rfl

theorem stops_ending {ending rest : List PlacedToken} (ended : Ending ending)
    (stops : Stops Level.all rest) : Stops Level.all (ending ++ rest) := by
  cases ended with
  | absent => exact stops
  | semicolon position => exact stops_symbol _ position _ (.inr (.inl rfl))

theorem apart_closing {closing : Symbol} (closes : closing.closes = true) (position : Position)
    (rest : List PlacedToken) : Apart ((.symbol closing, position) :: rest) := by
  refine ⟨stops_symbol _ position rest (.inr (.inr closes)), ?_⟩
  cases closing <;> first | rfl | cases closes

/-- The first token is a word. -/
def BeginsWithWord (tokens : List PlacedToken) : Prop :=
  ∃ token position rest name, tokens = (token, position) :: rest ∧ token.word? = some name

namespace BeginsWithWord

variable {tokens : List PlacedToken} (begins : BeginsWithWord tokens) (rest : List PlacedToken)

include begins

private theorem startsWith_eq (mark : Symbol) : startsWith mark (tokens ++ rest) = false := by
  obtain ⟨token, position, behind, name, rfl, spelled⟩ := begins
  cases token <;> first | rfl | cases spelled

private theorem apart : Apart (tokens ++ rest) := by
  refine ⟨?_, begins.startsWith_eq rest .semicolon⟩
  obtain ⟨token, position, behind, name, rfl, spelled⟩ := begins
  refine ⟨?_, ?_, ?_⟩
  · rintro rfl
    cases spelled
  · rintro rfl
    cases spelled
  · intro level _
    cases token <;> first | rfl | cases spelled

private theorem length_pos : 0 < tokens.length := by
  obtain ⟨token, position, behind, name, rfl, _⟩ := begins
  exact Nat.succ_pos _

end BeginsWithWord

/-!
## Sequences
-/

/-- Every phrase of at most `size` tokens is read whole in front of what may follow it. -/
def Complete {α : Type} (size : Nat) (parser : Parser α) (Phrase : List PlacedToken → α → Prop)
    (Follow : List PlacedToken → Prop) : Prop :=
  ∀ ⦃tokens result⦄, Phrase tokens result → tokens.length ≤ size →
    ∀ ⦃rest⦄, Follow rest → parser (tokens ++ rest) = .ok (result, rest)

section

variable {α : Type} {item : Parser α} {Phrase : List PlacedToken → α → Prop} {closing : Symbol}
  {size rounds : Nat} {inner : List PlacedToken} {items : List α}

private theorem separated_reads (closes : closing.closes = true)
    (complete : Complete size item Phrase (Stops Level.all))
    (begins : ∀ {tokens result}, Phrase tokens result →
      ∀ rest, startsWith closing (tokens ++ rest) = false)
    (phrases : Separated Phrase inner items) (short : inner.length ≤ size)
    (enough : inner.length < rounds) (read : List α) (position : Position)
    (rest : List PlacedToken) :
    separated item closing rounds read (inner ++ (.symbol closing, position) :: rest) =
      .ok (read.reverse ++ items, rest) := by
  induction phrases generalizing rounds read with
  | none =>
      obtain ⟨rounds, rfl⟩ := Nat.exists_eq_succ_of_ne_zero (Nat.ne_of_gt enough)
      simp [separated]
  | last phrase =>
      obtain ⟨rounds, rfl⟩ := Nat.exists_eq_succ_of_ne_zero (Nat.ne_zero_of_lt enough)
      have here := complete phrase short (stops_symbol _ position rest (.inr (.inr closes)))
      have different : closing ≠ .comma := by
        rintro rfl
        cases closes
      simp only [separated, begins phrase, here, Bool.false_eq_true, if_false, bind, Except.bind,
        startsWith_symbol, different, decide_false, decide_true, if_true, List.tail_cons,
        List.reverse_cons]
  | @more _ others _ _ comma phrase _ ih =>
      obtain ⟨rounds, rfl⟩ := Nat.exists_eq_succ_of_ne_zero (Nat.ne_zero_of_lt enough)
      simp only [List.length_append, List.length_cons] at short enough
      have here := complete phrase (by omega)
        (stops_symbol _ comma (others ++ (.symbol closing, position) :: rest) (.inl rfl))
      have onward := ih (by omega) (by omega : _ < rounds)
      simp only [List.append_assoc, List.cons_append, separated, begins phrase, here,
        Bool.false_eq_true, if_false, bind, Except.bind, startsWith_symbol, decide_true, if_true,
        List.tail_cons, onward, List.reverse_cons, List.nil_append]

/-- Behind one phrase comes another one or the end of them all. -/
theorem apart_repeated (closes : closing.closes = true)
    (begins : ∀ {tokens result}, Phrase tokens result → BeginsWithWord tokens)
    (phrases : Repeated Phrase inner items) (position : Position) (rest : List PlacedToken) :
    Apart (inner ++ (.symbol closing, position) :: rest) := by
  cases phrases with
  | none => exact apart_closing closes position rest
  | more phrase _ =>
      rw [List.append_assoc]
      exact (begins phrase).apart _

private theorem delimited_reads (closes : closing.closes = true)
    (complete : Complete size item Phrase Apart)
    (begins : ∀ {tokens result}, Phrase tokens result → BeginsWithWord tokens)
    (phrases : Repeated Phrase inner items) (short : inner.length ≤ size)
    (enough : inner.length < rounds) (read : List α) (position : Position)
    (rest : List PlacedToken) :
    delimited item closing rounds read (inner ++ (.symbol closing, position) :: rest) =
      .ok (read.reverse ++ items, rest) := by
  induction phrases generalizing rounds read with
  | none =>
      obtain ⟨rounds, rfl⟩ := Nat.exists_eq_succ_of_ne_zero (Nat.ne_of_gt enough)
      simp [delimited]
  | more phrase others ih =>
      obtain ⟨rounds, rfl⟩ := Nat.exists_eq_succ_of_ne_zero (Nat.ne_zero_of_lt enough)
      rw [List.length_append] at short enough
      have nonempty := (begins phrase).length_pos
      have apart := apart_repeated closes begins others position rest
      have here := complete phrase (by omega) apart
      have onward := ih (by omega) (by omega : _ < rounds)
      simp only [List.append_assoc, delimited, (begins phrase).startsWith_eq, here,
        Bool.false_eq_true, if_false, bind, Except.bind, onward, List.reverse_cons,
        List.cons_append, List.nil_append]

end

/-!
## Expressions
-/

section

variable {rounds size : Nat} {nested : Parser Expr} {tokens rest : List PlacedToken} {expr : Expr}

private theorem recordEntry_complete
    (complete : Complete size nested (Derives .pipe) (Stops Level.all)) :
    Complete size (recordEntry nested) (Entry (Derives .pipe)) Apart := by
  rintro _ _ ⟨spelled, phrase, ended⟩ short rest apart
  simp only [List.length_append, List.length_cons] at short
  have value := complete phrase (by omega) (stops_ending ended apart.1)
  simp only [List.cons_append, List.append_assoc, recordEntry, word_cons spelled, symbol_cons,
    value, bind, Except.bind, skipSemicolon_ending ended apart.2]

private theorem beginsWithWord_entry {entry : String × Expr}
    (phrase : Entry (Derives .pipe) tokens entry) : BeginsWithWord tokens := by
  obtain ⟨spelled, _, _⟩ := phrase
  exact ⟨_, _, _, _, rfl, spelled⟩

private theorem startsWith_derives {mark : Symbol} (closes : mark.closes = true)
    {kind : Nonterminal} (derived : Derives kind tokens expr) (rest : List PlacedToken) :
    startsWith mark (tokens ++ rest) = false := by
  obtain ⟨first, position, behind, rfl, begins⟩ := derived.exists_cons
  cases first with
  | symbol found =>
      refine decide_eq_false ?_
      rintro rfl
      cases found <;> simp [Symbol.closes, Token.beginsExpression] at closes begins
  | _ => rfl

private theorem primary_reads (complete : Complete size nested (Derives .pipe) (Stops Level.all))
    (derived : Derives .primary tokens expr) (short : tokens.length ≤ size + 1)
    (enough : tokens.length ≤ rounds) (rest : List PlacedToken) :
    primary rounds nested (tokens ++ rest) = .ok (expr, rest) := by
  cases derived with
  | operand loosens => cases loosens
  | joined joins => cases joins
  | @group inner expr opening closing phrase =>
      simp only [List.length_append, List.length_cons] at short
      have read := complete phrase (by omega)
        (stops_symbol _ closing rest (.inr (.inr (rfl : Symbol.closeRound.closes = true))))
      simp only [List.cons_append, List.append_assoc, List.nil_append, primary, read, symbol_cons,
        bind, Except.bind]
  | record entries =>
      simp only [List.length_append, List.length_cons, List.length_nil] at short enough
      have closes : Symbol.closeCurly.closes = true := rfl
      have read := delimited_reads closes (recordEntry_complete complete) beginsWithWord_entry
        entries (by omega) (by omega : _ < rounds) []
      simp only [List.cons_append, List.append_assoc, List.nil_append, primary, read,
        List.reverse_nil, bind, Except.bind]
      rfl
  | list items =>
      simp only [List.length_append, List.length_cons, List.length_nil] at short enough
      have closes : Symbol.closeSquare.closes = true := rfl
      have read := separated_reads closes complete (startsWith_derives closes) items (by omega)
        (by omega : _ < rounds) []
      simp only [List.cons_append, List.append_assoc, List.nil_append, primary, read,
        List.reverse_nil, bind, Except.bind]
  | _ => rfl

/-- Reading a phrase comes to the loop of a level with `expr` read, in front of anything that
does not go on with an operand of this level. One round or more is left for each token that
is still to come. -/
def ReachesChain (rounds : Nat) (nested : Parser Expr) (level : Level) (tokens : List PlacedToken)
    (expr : Expr) : Prop :=
  ∀ rest, Stops level.tighter rest → ∃ more, rounds < more + tokens.length ∧
    levels rounds nested (level :: level.tighter) (tokens ++ rest) =
      chain level (levels rounds nested level.tighter) more expr rest

/-- Reading a phrase comes to the loop in which expressions of its kind go on. -/
def Reaches (rounds : Nat) (nested : Parser Expr) :
    Nonterminal → List PlacedToken → Expr → Prop
  | .pipe => ReachesChain rounds nested .pipeline
  | .equality => ReachesChain rounds nested .equality
  | .additive => ReachesChain rounds nested .sum
  | .multiplicative => ReachesChain rounds nested .product
  | .applied => fun tokens expr => ∀ rest, ∃ more, rounds < more + tokens.length ∧
      applied rounds nested (tokens ++ rest) = suffixes rounds nested more expr rest
  | .primary => fun tokens expr => ∀ rest,
      primary rounds nested (tokens ++ rest) = .ok (expr, rest)

private theorem reaches_ofLevel (level : Level) :
    Reaches rounds nested (ofLevel level) = ReachesChain rounds nested level := by
  cases level <;> rfl

private theorem ReachesChain.levels_eq {level : Level}
    (reaches : ReachesChain rounds nested level tokens expr)
    (stops : Stops (level :: level.tighter) rest) :
    levels rounds nested (level :: level.tighter) (tokens ++ rest) = .ok (expr, rest) := by
  obtain ⟨more, _, reached⟩ := reaches rest (stops.mono fun _ => List.mem_cons_of_mem _)
  rw [reached]
  exact chain_of_stops _ more expr stops List.mem_cons_self

/-- An operand of a level is read whole. -/
theorem Reaches.operand_eq {level : Level}
    (reaches : Reaches rounds nested (operandOf level) tokens expr)
    (stops : Stops level.tighter rest) :
    levels rounds nested level.tighter (tokens ++ rest) = .ok (expr, rest) := by
  cases level with
  | pipeline | equality | sum => exact ReachesChain.levels_eq reaches stops
  | product =>
      obtain ⟨more, _, reached⟩ := reaches rest
      rw [Level.tighter, levels, reached]
      exact suffixes_of_stops rounds nested more expr stops

private theorem exists_level_of_loosens {looser tighter : Nonterminal}
    (loosens : Loosens looser tighter) : (looser = .applied ∧ tighter = .primary) ∨
      ∃ level, looser = ofLevel level ∧ tighter = operandOf level := by
  cases loosens with
  | pipe => exact .inr ⟨.pipeline, rfl, rfl⟩
  | equality => exact .inr ⟨.equality, rfl, rfl⟩
  | additive => exact .inr ⟨.sum, rfl, rfl⟩
  | multiplicative => exact .inr ⟨.product, rfl, rfl⟩
  | applied => exact .inl ⟨rfl, rfl⟩

private theorem exists_level_of_joins {looser tighter : Nonterminal} {mark : Symbol}
    {join : Expr → Expr → Position → Expr} (joins : Joins looser mark tighter join) :
    ∃ level, looser = ofLevel level ∧ tighter = operandOf level ∧
      level.join? (.symbol mark) = some join := by
  cases joins with
  | pipe => exact ⟨.pipeline, rfl, rfl, rfl⟩
  | equal => exact ⟨.equality, rfl, rfl, rfl⟩
  | add | sub => exact ⟨.sum, rfl, rfl, rfl⟩
  | mul | div => exact ⟨.product, rfl, rfl, rfl⟩

/-- No operator goes on with an operand of its own level. -/
theorem stops_join {level : Level} {token : Token} {join : Expr → Expr → Position → Expr}
    (joined : level.join? token = some join) (position : Position) (rest : List PlacedToken) :
    Stops level.tighter ((token, position) :: rest) := by
  refine ⟨?_, ?_, ?_⟩
  · rintro rfl
    cases level <;> cases joined
  · rintro rfl
    cases level <;> cases joined
  · obtain ⟨mark, rfl, _⟩ := joins_of_join? joined
    cases level <;> cases mark <;> cases joined <;> decide

private theorem chain_join {level : Level} {operand : Parser Expr} {token : Token}
    {join : Expr → Expr → Position → Expr} (joined : level.join? token = some join)
    (position : Position) (more : Nat) (left : Expr) (rest : List PlacedToken) :
    chain level operand (more + 1) left ((token, position) :: rest) =
      (operand rest).bind fun answer =>
        chain level operand more (join left answer.1 position) answer.2 := by
  simp only [chain, joined]
  rfl

private theorem reaches (complete : Complete size nested (Derives .pipe) (Stops Level.all))
    {kind : Nonterminal} (derived : Derives kind tokens expr) (short : tokens.length ≤ size + 1)
    (enough : tokens.length ≤ rounds) : Reaches rounds nested kind tokens expr := by
  revert short enough
  refine derived.outermost ?primary ?operand ?joined ?access ?call
  case primary =>
    intro tokens expr derived short enough rest
    exact primary_reads complete derived short enough rest
  case operand =>
    intro looser tighter tokens expr loosens derived ih short enough
    have inner := ih short enough
    have nonempty := List.length_pos_iff.mpr derived.ne_nil
    rcases exists_level_of_loosens loosens with ⟨rfl, rfl⟩ | ⟨level, rfl, rfl⟩
    · intro rest
      refine ⟨rounds, by omega, ?_⟩
      simp only [applied, inner rest, bind, Except.bind]
    · rw [reaches_ofLevel]
      intro rest stops
      refine ⟨rounds, by omega, ?_⟩
      simp only [levels, inner.operand_eq stops, bind, Except.bind]
  case joined =>
    intro looser tighter mark join leftTokens rightTokens left right position joins _ _ leftIH
      rightIH short enough
    obtain ⟨level, rfl, rfl, joined⟩ := exists_level_of_joins joins
    simp only [List.length_append, List.length_cons] at short enough
    have leftReaches := leftIH (by omega) (by omega)
    rw [reaches_ofLevel] at leftReaches ⊢
    intro rest stops
    obtain ⟨more, left, reached⟩ := leftReaches _ (stops_join joined position (rightTokens ++ rest))
    obtain ⟨more, rfl⟩ := Nat.exists_eq_succ_of_ne_zero (by omega : more ≠ 0)
    refine ⟨more, by rw [List.length_append, List.length_cons]; omega, ?_⟩
    rw [List.append_assoc, List.cons_append, reached, chain_join joined,
      (rightIH (by omega) (by omega)).operand_eq stops]
    rfl
  case access =>
    intro tokens object word key position start _ spelled ih short enough rest
    simp only [List.length_append, List.length_cons, List.length_nil] at short enough ⊢
    obtain ⟨more, left, reached⟩ := ih (by omega) (by omega)
      ((.symbol .dot, position) :: (word, start) :: rest)
    obtain ⟨more, rfl⟩ := Nat.exists_eq_succ_of_ne_zero (by omega : more ≠ 0)
    refine ⟨more, by omega, ?_⟩
    simp only [List.append_assoc, List.cons_append, List.nil_append, reached, suffixes,
      word_cons spelled, bind, Except.bind]
  case call =>
    intro tokens inner callee arguments origin opening closing _ items ih short enough rest
    simp only [List.length_append, List.length_cons, List.length_nil] at short enough ⊢
    obtain ⟨more, left, reached⟩ := ih (by omega) (by omega)
      ((.symbol .openRound, opening) :: (inner ++ (.symbol .closeRound, closing) :: rest))
    obtain ⟨more, rfl⟩ := Nat.exists_eq_succ_of_ne_zero (by omega : more ≠ 0)
    have closes : Symbol.closeRound.closes = true := rfl
    have read := separated_reads closes complete (startsWith_derives closes) items (by omega)
      (by omega : _ < rounds) [] closing rest
    refine ⟨more, by omega, ?_⟩
    simp only [List.append_assoc, List.cons_append, List.nil_append, reached, suffixes, read,
      List.reverse_nil, bind, Except.bind]

end

/-- Depth and rounds for each token are enough. -/
theorem expression_complete {rounds depth size : Nat} (deep : size ≤ depth)
    (enough : size ≤ rounds) :
    Complete size (expression rounds depth) (Derives .pipe) (Stops Level.all) := by
  induction depth generalizing size with
  | zero =>
      intro tokens expr derived short
      have nonempty := List.length_pos_iff.mpr derived.ne_nil
      omega
  | succ depth ih =>
      intro tokens expr derived short rest stops
      have nested := ih (Nat.sub_le_of_le_add deep : size - 1 ≤ depth) (by omega)
      exact ReachesChain.levels_eq (reaches nested derived (by omega) (by omega)) stops

/-!
## In front of an opening round bracket
-/

section

variable {rounds size : Nat} {nested : Parser Expr} {tokens rest behind : List PlacedToken}
  {expr found : Expr}

private theorem sizeOf_le_suffixes {more : Nat} {node : Expr}
    (read : suffixes rounds nested more node tokens = .ok (found, rest)) :
    sizeOf node ≤ sizeOf found := by
  induction more generalizing node tokens with
  | zero =>
      cases read
      exact Nat.le_refl _
  | succ more ih =>
      simp only [suffixes] at read
      split at read
      · obtain ⟨⟨key, later⟩, _, onward⟩ := bind_eq_ok read
        have larger := ih onward
        rw [Expr.access.sizeOf_spec] at larger
        omega
      · split at read
        · obtain ⟨⟨arguments, later⟩, _, onward⟩ := bind_eq_ok read
          have larger := ih onward
          rw [Expr.call.sizeOf_spec] at larger
          rw [Expr.name.sizeOf_spec]
          omega
        · cases read
      · cases read
        exact Nat.le_refl _

private theorem eq_pipe_or_binary {level : Level} {token : Token}
    {join : Expr → Expr → Position → Expr} (joined : level.join? token = some join) :
    join = .pipe ∨ ∃ operator, join = .binary operator := by
  obtain ⟨mark, rfl, joins⟩ := joins_of_join? joined
  generalize ofLevel level = looser, operandOf level = tighter at joins
  cases joins with
  | pipe => exact .inl rfl
  | _ => exact .inr ⟨_, rfl⟩

private theorem sizeOf_le_chain {level : Level} {operand : Parser Expr} {more : Nat} {left : Expr}
    (read : chain level operand more left tokens = .ok (found, rest)) :
    sizeOf left ≤ sizeOf found := by
  induction more generalizing left tokens with
  | zero =>
      cases read
      exact Nat.le_refl _
  | succ more ih =>
      simp only [chain] at read
      split at read
      · split at read
        · next join joined =>
          obtain ⟨⟨right, later⟩, _, onward⟩ := bind_eq_ok read
          have larger := ih onward
          rcases eq_pipe_or_binary joined with rfl | ⟨operator, rfl⟩
          · rw [Expr.pipe.sizeOf_spec] at larger
            omega
          · rw [Expr.binary.sizeOf_spec] at larger
            omega
        · cases read
          exact Nat.le_refl _
      · cases read
        exact Nat.le_refl _

/-- The levels of the operators in an expression of one kind. -/
def levelsOf : Nonterminal → List Level
  | .pipe => [.pipeline, .equality, .sum, .product]
  | .equality => [.equality, .sum, .product]
  | .additive => [.sum, .product]
  | .multiplicative => [.product]
  | .applied | .primary => []

private theorem levelsOf_ofLevel (level : Level) :
    levelsOf (ofLevel level) = level :: level.tighter := by
  cases level <;> rfl

private theorem levelsOf_operandOf (level : Level) :
    levelsOf (operandOf level) = level.tighter := by
  cases level <;> rfl

/-- Whatever is read at the chosen levels is larger than `expr` in front of an opening round
bracket. -/
def Grows (rounds : Nat) (nested : Parser Expr) (chosen : List Level) (tokens : List PlacedToken)
    (expr : Expr) : Prop :=
  ∀ ⦃rest found behind⦄, startsWith .openRound rest = true →
    levels rounds nested chosen (tokens ++ rest) = .ok (found, behind) → sizeOf expr < sizeOf found

/-- The innermost loop goes on with the arguments of a call. -/
theorem applied_grows (complete : Complete size nested (Derives .pipe) (Stops Level.all))
    (derived : Derives .applied tokens expr) (short : tokens.length ≤ size + 1)
    (enough : tokens.length ≤ rounds) : Grows rounds nested [] tokens expr := by
  intro rest found behind opens read
  obtain ⟨more, left, reached⟩ := reaches complete derived short enough rest
  obtain ⟨more, rfl⟩ := Nat.exists_eq_succ_of_ne_zero (by omega : more ≠ 0)
  obtain ⟨position, shape⟩ := eq_cons_of_startsWith opens
  rw [levels, reached, shape] at read
  simp only [suffixes] at read
  split at read
  · obtain ⟨⟨arguments, later⟩, _, onward⟩ := bind_eq_ok read
    have larger := sizeOf_le_suffixes onward
    have positive : 0 < sizeOf arguments := by cases arguments <;> simp +arith
    rw [Expr.call.sizeOf_spec] at larger
    rw [Expr.name.sizeOf_spec]
    dsimp only at larger
    omega
  · cases read

/-- No loop makes the expression smaller again that the innermost loop has made larger. -/
theorem levels_grows (complete : Complete size nested (Derives .pipe) (Stops Level.all))
    {kind : Nonterminal} (derived : Derives kind tokens expr) (compound : kind ≠ .primary)
    (short : tokens.length ≤ size + 1) (enough : tokens.length ≤ rounds) :
    Grows rounds nested (levelsOf kind) tokens expr := by
  revert compound short enough
  refine derived.outermost ?primary ?operand ?joined ?access ?call
  case primary => exact fun _ compound => absurd rfl compound
  case operand =>
    intro looser tighter tokens expr loosens derived ih _ short enough
    rcases exists_level_of_loosens loosens with ⟨rfl, rfl⟩ | ⟨level, rfl, rfl⟩
    · exact applied_grows complete (.operand loosens derived) short enough
    · have compound : operandOf level ≠ .primary := by cases level <;> simp [operandOf]
      have inner := ih compound short enough
      rw [levelsOf_operandOf] at inner
      rw [levelsOf_ofLevel]
      intro rest found behind opens read
      obtain ⟨⟨left, later⟩, leftRead, onward⟩ := bind_eq_ok read
      exact Nat.lt_of_lt_of_le (inner opens leftRead) (sizeOf_le_chain onward)
  case joined =>
    intro looser tighter mark join leftTokens rightTokens left right position joins leftDerived _ _
      rightIH _ short enough
    obtain ⟨level, rfl, rfl, joined⟩ := exists_level_of_joins joins
    have compound : operandOf level ≠ .primary := by cases level <;> simp [operandOf]
    simp only [List.length_append, List.length_cons] at short enough
    have inner := rightIH compound (by omega) (by omega)
    have leftReaches := reaches complete leftDerived (by omega) (by omega : _ ≤ rounds)
    rw [levelsOf_operandOf] at inner
    rw [reaches_ofLevel] at leftReaches
    rw [levelsOf_ofLevel]
    intro rest found behind opens read
    obtain ⟨more, left, reached⟩ := leftReaches _ (stops_join joined position (rightTokens ++ rest))
    obtain ⟨more, rfl⟩ := Nat.exists_eq_succ_of_ne_zero (by omega : more ≠ 0)
    rw [List.append_assoc, List.cons_append, reached, chain_join joined] at read
    obtain ⟨⟨larger, later⟩, rightRead, onward⟩ := bind_eq_ok read
    have grown := inner opens rightRead
    have kept := sizeOf_le_chain onward
    dsimp only at kept
    rcases eq_pipe_or_binary joined with rfl | ⟨operator, rfl⟩
    · rw [Expr.pipe.sizeOf_spec] at kept ⊢
      omega
    · rw [Expr.binary.sizeOf_spec] at kept ⊢
      omega
  case access =>
    exact fun _ _ derived spelled _ _ short enough =>
      applied_grows complete (.access derived spelled) short enough
  case call =>
    exact fun _ _ derived items _ _ short enough =>
      applied_grows complete (.call derived items) short enough

/-- In front of an opening round bracket an expression is not read as itself. -/
theorem expression_ne_of_opens {depth : Nat} (derived : Derives .pipe tokens expr)
    (deep : tokens.length ≤ depth) (enough : tokens.length ≤ rounds)
    (opens : startsWith .openRound rest = true) :
    expression rounds depth (tokens ++ rest) ≠ .ok (expr, behind) := by
  intro read
  cases depth with
  | zero => cases read
  | succ depth =>
      have complete := expression_complete (Nat.sub_le_of_le_add deep : tokens.length - 1 ≤ depth)
        (by omega : _ ≤ rounds)
      have grown := levels_grows complete derived (by simp) (by omega) enough opens read
      exact Nat.lt_irrefl _ grown

end

/-!
## Parameters and interfaces
-/

theorem parameters_reads {heading : List PlacedToken} {parameters : List String} {rounds : Nat}
    (phrases : Separated Parameter heading parameters) (enough : heading.length < rounds)
    (closing : Position) (rest : List PlacedToken) :
    separated identifier .closeRound rounds [] (heading ++ (.symbol .closeRound, closing) :: rest) =
      .ok (parameters, rest) := by
  have complete : Complete heading.length identifier Parameter (Stops Level.all) := by
    rintro _ _ ⟨name, position⟩ _ rest _
    rfl
  have begins : ∀ {tokens name}, Parameter tokens name →
      ∀ rest, startsWith .closeRound (tokens ++ rest) = false := by
    rintro _ _ ⟨name, position⟩ rest
    rfl
  exact separated_reads rfl complete begins phrases (Nat.le_refl _) enough [] closing rest

section

variable {rounds size : Nat} {expression : Parser Expr}
  (complete : Complete size expression (Derives .pipe) (Stops Level.all))

include complete

private theorem attributeEntry_complete :
    Complete size (attributeEntry expression) Attribute (Stops Level.all) := by
  rintro _ _ ⟨spelled, phrase⟩ short rest stops
  simp only [List.length_cons] at short
  have value := complete phrase (by omega) stops
  simp only [List.cons_append, attributeEntry, word_cons spelled, symbol_cons, value, bind,
    Except.bind]

private theorem attributes_reads {tokens : List PlacedToken} {found : Attributes}
    (list : AttributeList tokens found) (short : tokens.length ≤ size)
    (enough : tokens.length ≤ rounds) (rest : List PlacedToken) :
    attributes rounds expression (tokens ++ rest) = .ok (found, rest) := by
  obtain ⟨entries⟩ := list
  simp only [List.length_append, List.length_cons, List.length_nil] at short enough
  have begins : ∀ {tokens entry}, Attribute tokens entry →
      ∀ rest, startsWith .closeRound (tokens ++ rest) = false := by
    rintro _ _ ⟨spelled, _⟩ rest
    exact BeginsWithWord.startsWith_eq ⟨_, _, _, _, rfl, spelled⟩ rest _
  have closes : Symbol.closeRound.closes = true := rfl
  have read := separated_reads closes (attributeEntry_complete complete) begins entries (by omega)
    (by omega : _ < rounds) []
  simp only [List.cons_append, List.append_assoc, List.nil_append, attributes, symbol_cons, read,
    List.reverse_nil, bind, Except.bind]
  rfl

private theorem widget_complete (enough : size ≤ rounds) :
    Complete size (widget rounds expression) DerivesWidget Apart := by
  rintro _ _ ⟨list, ended⟩ short rest apart
  simp only [List.length_append, List.length_cons] at short
  have read := attributes_reads complete list (by omega) (by omega : _ ≤ rounds)
  simp only [List.cons_append, List.append_assoc, widget, read, bind, Except.bind,
    skipSemicolon_ending ended apart.2]

omit complete in
private theorem beginsWithWord_widget {tokens : List PlacedToken} {part : Widget}
    (phrase : DerivesWidget tokens part) : BeginsWithWord tokens := by
  obtain ⟨_, _⟩ := phrase
  exact ⟨_, _, _, _, rfl, rfl⟩

private theorem element_complete (enough : size ≤ rounds) (origin : Position) :
    Complete size (element rounds expression origin) DerivesElement Apart := by
  intro tokens part phrase short rest apart
  cases phrase with
  | window list children =>
      simp only [List.length_append, List.length_cons, List.length_nil] at short
      have closes : Symbol.closeCurly.closes = true := rfl
      have listRead := attributes_reads complete list (by omega) (by omega : _ ≤ rounds)
      have childrenRead := delimited_reads closes (widget_complete complete enough)
        beginsWithWord_widget children (by omega) (by omega : _ < rounds) []
      simp only [List.cons_append, List.append_assoc, List.nil_append, element, window, listRead,
        symbol_cons, childrenRead, List.reverse_nil, bind, Except.bind]
  | widget phrase =>
      have read := widget_complete complete enough phrase short apart
      obtain ⟨_, _⟩ := phrase
      simp only [List.cons_append, element] at read ⊢
      rw [read]
      rfl

omit complete in
private theorem beginsWithWord_element {tokens : List PlacedToken} {part : Element}
    (phrase : DerivesElement tokens part) : BeginsWithWord tokens := by
  cases phrase with
  | window _ _ => exact ⟨_, _, _, _, rfl, rfl⟩
  | widget widget => exact beginsWithWord_widget widget

theorem elements_reads {inner : List PlacedToken} {elements : List Element}
    (phrases : Repeated DerivesElement inner elements) (short : inner.length ≤ size)
    (enough : size < rounds) (origin closing : Position) (rest : List PlacedToken) :
    delimited (element rounds expression origin) .closeCurly rounds []
        (inner ++ (.symbol .closeCurly, closing) :: rest) = .ok (elements, rest) :=
  delimited_reads rfl (element_complete complete (Nat.le_of_lt enough) origin)
    beginsWithWord_element phrases short (by omega) [] closing rest

end

end Parser

end WindowScript
