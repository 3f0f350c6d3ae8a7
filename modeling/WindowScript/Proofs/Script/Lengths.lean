import Mathlib
import WindowScript.Proofs.Evaluation.Depth
import WindowScript.Proofs.Evaluation.Lengths
import WindowScript.Proofs.Program.Vocabulary

/-!
# The lengths of a run

No literal of a source is longer than the source. A run therefore starts from texts and lists that
are shorter than its source, and what it makes of them is within the limit on repetitions as long
as no sum and no call of `str` passes that limit.
-/

set_option autoImplicit false

namespace WindowScript

/-!
## Literals of a source
-/

/-- Whether an expression is no list literal of more items than these. -/
def Expr.HasAtMost (count : Nat) : Expr → Prop
  | .list items _ => items.length ≤ count
  | _ => True

/-- An expression no list literal of which has more items than these. -/
def Expr.Lists (count : Nat) (whole : Expr) : Prop :=
  ∀ part : Expr, part.Part whole → part.HasAtMost count

namespace Expr.Lists

variable {count more : Nat} {whole : Expr}

private theorem of_children (short : whole.HasAtMost count)
    (each : ∀ child ∈ whole.children, child.Lists count) : whole.Lists count := by
  intro part inside
  cases inside with
  | self => exact short
  | inside member within => exact each _ member part within

private theorem mono (lists : whole.Lists count) (le : count ≤ more) : whole.Lists more := by
  intro part inside
  have short := lists part inside
  cases part with
  | list items position => exact Nat.le_trans short le
  | _ => trivial

end Expr.Lists

/-- Whether a token is no text longer than a limit. -/
def Token.IsShort (limit : Nat) (token : Token) : Prop :=
  ∀ value, token = .text value → value.utf8ByteSize ≤ limit

namespace Grammar

/-- Every item of a list takes a token of its own. -/
theorem Derives.lists {kind : Nonterminal} {tokens : List PlacedToken} {expr : Expr}
    (derived : Derives kind tokens expr) : expr.Lists tokens.length := by
  refine @Derives.rec
    (fun _ tokens expr _ => expr.Lists tokens.length)
    (fun tokens items _ => items.length ≤ tokens.length ∧
      ∀ item ∈ items, item.Lists tokens.length)
    (fun tokens entries _ => ∀ entry ∈ entries, entry.2.Lists tokens.length)
    (fun tokens entry _ => entry.2.Lists tokens.length)
    ?operand ?joined ?access ?call ?integer ?real ?text ?yes ?no ?name ?group ?record ?list
    ?noItem ?lastItem ?moreItems ?noEntry ?moreEntries ?entry kind tokens expr derived
  case operand => exact fun _ _ ih => ih
  case joined =>
    intro _ _ _ join leftTokens rightTokens left right position joins _ _ leftIH rightIH
    have sides : ∀ child ∈ [left, right],
        child.Lists (leftTokens.length + (rightTokens.length + 1)) :=
      List.forall_mem_cons.mpr ⟨leftIH.mono (by omega), by simpa using rightIH.mono (by omega)⟩
    rw [List.length_append, List.length_cons]
    cases joins <;> exact .of_children trivial sides
  case access =>
    intro _ _ _ _ _ _ _ _ objectIH
    refine .of_children trivial ?_
    simpa [Expr.children] using objectIH.mono (by simp)
  case call =>
    intro _ _ _ _ _ _ _ _ _ calleeIH argumentsIH
    refine .of_children trivial fun argument member => (argumentsIH.2 argument member).mono ?_
    simp
    omega
  case integer => exact fun _ _ => .of_children trivial (by simp [Expr.children])
  case real => exact fun _ _ => .of_children trivial (by simp [Expr.children])
  case text => exact fun _ _ => .of_children trivial (by simp [Expr.children])
  case yes => exact fun _ => .of_children trivial (by simp [Expr.children])
  case no => exact fun _ => .of_children trivial (by simp [Expr.children])
  case name => exact fun _ _ => .of_children trivial (by simp [Expr.children])
  case group =>
    intro _ _ _ _ _ innerIH
    refine innerIH.mono ?_
    simp
    omega
  case record =>
    intro _ entries _ _ _ entriesIH
    refine .of_children trivial fun value member => ?_
    obtain ⟨entry, collected, rfl⟩ := List.mem_map.mp member
    refine (entriesIH entry (mem_of_mem_collected collected)).mono ?_
    simp
    omega
  case list =>
    intro _ items _ _ _ itemsIH
    refine .of_children ?_ fun item member => (itemsIH.2 item member).mono ?_
    · refine Nat.le_trans itemsIH.1 ?_
      simp
      omega
    · simp
      omega
  case noItem => simp
  case lastItem =>
    intro _ _ only itemIH
    exact ⟨List.length_pos_of_ne_nil only.ne_nil, by simpa using itemIH⟩
  case moreItems =>
    intro _ _ _ _ _ _ _ itemIH itemsIH
    refine ⟨?_, List.forall_mem_cons.mpr ⟨itemIH.mono (by simp), fun item member => ?_⟩⟩
    · have count := itemsIH.1
      simp
      omega
    · refine (itemsIH.2 item member).mono ?_
      simp
      omega
  case noEntry => simp
  case moreEntries =>
    intro _ _ _ _ _ _ entryIH entriesIH
    refine List.forall_mem_cons.mpr ⟨entryIH.mono (by simp), fun entry member => ?_⟩
    exact (entriesIH entry member).mono (by simp)
  case entry =>
    intro _ _ _ _ _ _ _ _ _ _ valueIH
    refine valueIH.mono ?_
    simp
    omega

variable {limit : Nat}

private theorem Derives.within {kind : Nonterminal} {tokens : List PlacedToken} {expr : Expr}
    (derived : Derives kind tokens expr) (few : tokens.length ≤ limit)
    (texts : AllOf (Token.IsShort limit) tokens) : expr.Within limit := by
  intro part inside
  have made := (derived.madeOf texts).part inside
  have items := derived.lists part inside
  cases part with
  | text value position => cases made with | text short => exact short value rfl
  | list items position => exact Nat.le_trans items few
  | _ => trivial

private theorem DerivesStatement.within {tokens : List PlacedToken} {statement : Statement}
    (derived : DerivesStatement tokens statement) (few : tokens.length ≤ limit)
    (texts : AllOf (Token.IsShort limit) tokens) : statement.Within limit := by
  revert few texts
  refine @DerivesStatement.rec
    (fun tokens statement _ => tokens.length ≤ limit → AllOf (Token.IsShort limit) tokens →
      statement.Within limit)
    (fun tokens statements _ => tokens.length ≤ limit → AllOf (Token.IsShort limit) tokens →
      ∀ statement ∈ statements, statement.Within limit)
    ?binding ?function ?gui ?returning ?expression ?none ?more tokens statement derived
  case binding =>
    intro _ _ _ _ _ _ _ value _ few texts
    simp only [List.cons_append, List.length_append, List.length_cons, allOf_append,
      allOf_cons] at few texts
    exact .binding (value.within (by omega) texts.2.2.2.1)
  case function =>
    intro _ _ _ _ _ _ _ _ _ _ _ _ _ _ _ bodyIH few texts
    simp only [List.cons_append, List.length_append, List.length_cons, allOf_append,
      allOf_cons] at few texts
    exact .function (bodyIH (by omega) texts.2.2.2.1.1.2.2.2)
  case gui => exact fun _ _ _ _ => .gui
  case returning =>
    intro _ _ _ _ value _ few texts
    simp only [List.cons_append, List.length_append, List.length_cons, allOf_append,
      allOf_cons] at few texts
    exact .returning (value.within (by omega) texts.2.1)
  case expression =>
    intro _ _ _ _ _ value _ few texts
    rw [List.length_append] at few
    rw [allOf_append] at texts
    exact .expression (value.within (by omega) texts.1)
  case none => simp
  case more =>
    intro _ _ _ _ _ _ statementIH statementsIH few texts
    rw [List.length_append] at few
    rw [allOf_append] at texts
    exact List.forall_mem_cons.mpr
      ⟨statementIH (by omega) texts.1, statementsIH (by omega) texts.2⟩

private theorem Repeated.statements_within {tokens : List PlacedToken} {statements : List Statement}
    (derived : Repeated DerivesStatement tokens statements) (few : tokens.length ≤ limit)
    (texts : AllOf (Token.IsShort limit) tokens) :
    ∀ statement ∈ statements, statement.Within limit := by
  induction derived with
  | none => simp
  | more first _ ih =>
      rw [List.length_append] at few
      rw [allOf_append] at texts
      exact List.forall_mem_cons.mpr ⟨first.within (by omega) texts.1, ih (by omega) texts.2⟩

end Grammar

namespace Lexer

private theorem length_le_byteSize (characters : List Char) :
    characters.length ≤ byteSize characters := by
  induction characters with
  | nil => exact Nat.le_refl 0
  | cons first rest ih =>
      have positive := first.utf8Size_pos
      rw [List.length_cons, byteSize_cons]
      omega

/-- Every lexeme has a character of its own. -/
theorem Tiling.length_le {before text reached rest : List Char} {found : List Lexeme}
    (tiling : Tiling before text found reached rest) : found.length ≤ text.length := by
  induction tiling with
  | stop => exact Nat.zero_le _
  | gap whole _ _ ih =>
      rw [whole, List.length_append]
      omega
  | lexeme whole _ spells _ ih =>
      have positive := List.length_pos_of_ne_nil spells.ne_nil
      rw [whole, List.length_append, List.length_cons]
      omega

/-- What is inside of quotes stands for no more than it is. -/
theorem Inside.byteSize_le {quote : Char} {body value : List Char}
    (inside : Inside quote body value) : byteSize value ≤ byteSize body := by
  induction inside with
  | done => exact Nat.le_refl 0
  | escaped _ ih | plain _ _ _ ih =>
      simp only [byteSize_cons]
      omega

private theorem Spells.isShort {characters : List Char} {token : Token}
    (spells : Spells characters (.ok token)) : token.IsShort (byteSize characters) := by
  rintro value rfl
  generalize read : Token.text value = token at spells
  cases spells with
  | quoted _ inside =>
      cases read
      have le := inside.byteSize_le
      rw [utf8ByteSize_ofList]
      simp only [byteSize_cons, byteSize_append]
      omega
  | word => exact absurd read.symm (Token.ofWord_ne rfl _)
  | real | integer | symbol => cases read

end Lexer

/-- No literal of a program is longer than the source that it is read from. -/
theorem Script.read_within {limit : Nat} {source : String} (short : source.utf8ByteSize ≤ limit)
    {program : Program} (accepted : Script.read source = .ok program) :
    ∀ statement ∈ program, statement.Within limit := by
  obtain ⟨found, tiling, derived⟩ := read_derived accepted
  have bytes := byteSize_toList source
  refine derived.statements_within ?_ ?_
  · have characters := Lexer.length_le_byteSize source.toList
    have lexemes := tiling.length_le
    rw [List.length_map]
    omega
  · intro token member value text
    obtain ⟨lexeme, held, rfl⟩ := List.mem_map.mp member
    obtain ⟨behind, whole⟩ := tiling.whole.2 lexeme held
    have spelled := (tiling.spells lexeme held).isShort value text
    have parts := congrArg byteSize whole
    simp only [byteSize_append, List.nil_append] at parts
    omega

/-!
## Runs
-/

private theorem Scope.initial_within (limit : Nat) :
    ∀ entry ∈ Scope.initial, entry.2.Within limit := by
  apply Bindings.forall_mem_insertAll
  · intro entry member
    obtain ⟨builtin, _, rfl⟩ := List.mem_map.mp member
    exact .plain trivial (Nat.zero_le limit)
  · simp

/-- A repetition beyond the limit overflows where it stands, on whichever side its number is. -/
theorem Evaluator.step_mul_overflows {evaluate : Evaluator} {host : Host} {left right : Expr}
    {position : Position} {scope : Scope} {progress middle after : Progress}
    {first second sequence : Value} {length : Nat} {count : Integer}
    (leftRan : (evaluate left scope).run progress = (.ok first, middle))
    (rightRan : (evaluate right scope).run middle = (.ok second, after))
    (operands : first = sequence ∧ second = .integer count ∨
      first = .integer count ∧ second = sequence)
    (sized : sequence.size? = some length)
    (beyond : maxRepeatedLength < length * count.toInt.toNat) :
    (evaluate.step host (.binary .mul left right position) scope).run progress =
      (.error ⟨.overflow, position⟩, after) := by
  have refused : Operator.mul.apply sequence (.integer count) = .error .overflow := by
    rw [Operator.mul_apply_eq sized, if_neg (Nat.not_le.mpr beyond)]
  have applied : Operator.mul.apply first second = .error .overflow := by
    rcases operands with ⟨rfl, rfl⟩ | ⟨rfl, rfl⟩
    · exact refused
    · exact (Operator.mul_apply_comm sized count).trans refused
  dsimp only [Evaluator.step]
  rw [Fallible.run_bind, leftRan]
  dsimp only
  rw [Fallible.run_bind, rightRan]
  dsimp only
  rw [applied]
  rfl

/-- How a run ends in which no text or list is longer than a limit, neither the one it returns nor
one that it leaves bound, nor one inside of these. -/
def EndsWithin (limit : Nat) (ended : Except RuntimeError Value × Session) : Prop :=
  (∀ value, ended.1 = .ok value → value.Within limit) ∧
    ∀ entry ∈ ended.2.globals, entry.2.Within limit

/-- A source shorter than the limit on repetitions is run for commands that print less. Then no sum
and no call of `str` in the run comes to more than the limit, so that no alarm there makes a
difference, and the run ends within the limit; or one of them does, and every alarm that fails at
it ends the run with its failure. Under an alarm that answers nothing longer the run ends within
the limit in any case. A repetition that would be longer is an overflow at its position. -/
theorem lengths_within_limit {host : Host}
    (answers : ∀ history command printed, host.reply history command = .ok printed →
      printed.utf8ByteSize < 2 ^ 24)
    {source : String} (short : source.utf8ByteSize < 2 ^ 24) {program : Program}
    (accepted : Script.read source = .ok program) :
    let plain := Session.run host .fresh program
    let limited (alarm : Evaluator) := Session.runFromBy
      (evaluateLimited (2 ^ 24) alarm host (maxDepth + 1)) .absent .fresh program
    (EndsWithin (2 ^ 24) plain ∧ (∀ alarm, limited alarm = plain) ∨
      ∃ item scope reached, Passes (2 ^ 24) host item scope reached ∧
        ∀ alarm failure stopped, (alarm item scope).run reached = (.error failure, stopped) →
          (limited alarm).1 = .error failure ∧ (limited alarm).2.history = stopped.history) ∧
    (∀ alarm : Evaluator,
      (∀ item scope progress value after,
        (alarm item scope).run progress = (.ok value, after) → value.Within (2 ^ 24)) →
      EndsWithin (2 ^ 24) (limited alarm)) ∧
    ∀ levels left right position scope progress middle after first second sequence length
      (count : Integer),
      (evaluateWithin host levels left scope).run progress = (.ok first, middle) →
      (evaluateWithin host levels right scope).run middle = (.ok second, after) →
      (first = sequence ∧ second = .integer count ∨
        first = .integer count ∧ second = sequence) →
      sequence.size? = some length → 2 ^ 24 < length * count.toInt.toNat →
      ((evaluateWithin host levels).step host (.binary .mul left right position) scope).run
        progress = (.error ⟨.overflow, position⟩, after) := by
  intro plain limited
  have limit : 2 ^ 24 = maxRepeatedLength := rfl
  have printed : ∀ history command printed, host.reply history command = .ok printed →
      printed.utf8ByteSize ≤ 2 ^ 24 :=
    fun history command printed replied => (answers history command printed replied).le
  have fit : ∀ next ∈ program, next.Within (2 ^ 24) := Script.read_within short.le accepted
  have bound : (Invariant.lengths limit.ge printed).Bound Session.fresh.globals :=
    Scope.initial_within _
  have ends (alarm : Evaluator)
      (silent : ∀ item scope progress value after,
        (alarm item scope).run progress = (.ok value, after) → value.Within (2 ^ 24)) :
      EndsWithin (2 ^ 24) (limited alarm) := by
    have kept := (evaluateLimited_keeps limit.ge printed silent (maxDepth + 1)).runFromBy fit bound
      (Invariant.lengths limit.ge printed).absent
    refine ⟨fun value ended => ?_, kept.2⟩
    have outcome := kept.1
    rw [ended] at outcome
    exact outcome
  have whole : Session.runFromBy (evaluateWithin host (maxDepth + 1)) .absent .fresh program =
      plain := Session.runFromBy_evaluate host program .absent .fresh
  refine ⟨?_, ends, ?_⟩
  · rcases Session.runFromBy_follows (evaluateLimited_follows (2 ^ 24) host (maxDepth + 1))
      program .absent .fresh with same | passed
    · rw [whole] at same
      refine .inl ⟨?_, same⟩
      rw [← same fun item _ => Fallible.fail .overflow item.position]
      exact ends _ fun item scope progress value after raised => by cases raised
    · exact .inr passed
  · intro levels left right position scope progress middle after first second sequence length
      count leftRan rightRan operands sized beyond
    exact Evaluator.step_mul_overflows leftRan rightRan operands sized beyond

/-- The program of `let s = ["ab" + "c"] * 2`. -/
def repeatedSum : Program :=
  [.binding "s"
    (.binary .mul
      (.list [.binary .add (.text "ab" ⟨1, 10⟩) (.text "c" ⟨1, 17⟩) ⟨1, 15⟩] ⟨1, 9⟩)
      (.integer 2 ⟨1, 24⟩) ⟨1, 22⟩)
    ⟨1, 1⟩]

/-- Nothing stops this run. Of two bytes, half as many copies as the limit has bytes are the most
there can be. -/
theorem lengths_within_limit_repeatedSum :
    (∀ history command printed, Host.quiet.reply history command = .ok printed →
      printed.utf8ByteSize < 2 ^ 24) ∧
    ("let s = [\"ab\" + \"c\"] * 2").utf8ByteSize < 2 ^ 24 ∧
    Script.read "let s = [\"ab\" + \"c\"] * 2" = .ok repeatedSum ∧
    (Session.run .quiet .fresh repeatedSum).1 = .ok (.list [.text "abc", .text "abc"]) ∧
    (Value.list [.text "abc", .text "abc"]).Within (2 ^ 24) ∧
    ((evaluateWithin .quiet 1).step .quiet
        (.binary .mul (.text "ab" ⟨1, 1⟩) (.integer 8388609 ⟨1, 8⟩) ⟨1, 6⟩) []).run ⟨[], 0⟩ =
      (.error ⟨.overflow, ⟨1, 6⟩⟩, ⟨[], 0⟩) := by
  have answers : ∀ history command printed, Host.quiet.reply history command = .ok printed →
      printed.utf8ByteSize < 2 ^ 24 := by
    intro history command printed replied
    cases replied
    decide
  have short : ("let s = [\"ab\" + \"c\"] * 2").utf8ByteSize < 2 ^ 24 := by decide
  have accepted : Script.read "let s = [\"ab\" + \"c\"] * 2" = .ok repeatedSum := by cbv
  obtain ⟨_, ends, overflows⟩ := lengths_within_limit answers short accepted
  let alarm : Evaluator := fun item _ => Fallible.fail .overflow item.position
  have silent : ∀ item scope progress value after,
      (alarm item scope).run progress = (.ok value, after) → value.Within (2 ^ 24) := by
    intro item scope progress value after raised
    cases raised
  have ran : (Session.run .quiet .fresh repeatedSum).1 =
      .ok (.list [.text "abc", .text "abc"]) := by cbv
  have limited : (Session.runFromBy (evaluateLimited (2 ^ 24) alarm .quiet (maxDepth + 1)) .absent
      .fresh repeatedSum).1 = .ok (.list [.text "abc", .text "abc"]) := by cbv
  have sized : (Value.text "ab").size? = some 2 := by rfl
  have beyond : 2 ^ 24 < 2 * (8388609 : Integer).toInt.toNat := by decide
  exact ⟨answers, short, accepted, ran, (ends alarm silent).1 _ limited,
    overflows 1 _ _ _ _ _ _ _ _ _ _ _ _ (by rfl) (by rfl) (.inl ⟨rfl, rfl⟩) sized beyond⟩

/-- The program of `let s = "a" * 16777216 + "a"`. -/
def sumBeyond : Program :=
  [.binding "s"
    (.binary .add (.binary .mul (.text "a" ⟨1, 9⟩) (.integer 16777216 ⟨1, 15⟩) ⟨1, 13⟩)
      (.text "a" ⟨1, 26⟩) ⟨1, 24⟩)
    ⟨1, 1⟩]

/-- A sum has no limit: the text that this short program returns and binds is longer than any
repetition. -/
theorem sum_beyond_limit :
    (∀ history command printed, Host.quiet.reply history command = .ok printed →
      printed.utf8ByteSize < 2 ^ 24) ∧
    ("let s = \"a\" * 16777216 + \"a\"").utf8ByteSize < 2 ^ 24 ∧
    Script.read "let s = \"a\" * 16777216 + \"a\"" = .ok sumBeyond ∧
    ∃ text, (Session.run .quiet .fresh sumBeyond).1 = .ok (.text text) ∧
      Bindings.find? "s" (Session.run .quiet .fresh sumBeyond).2.globals = some (.text text) ∧
      text.utf8ByteSize = 2 ^ 24 + 1 := by
  have ran : Session.run .quiet .fresh sumBeyond =
      (.ok (.text (repeatText "a" 16777216 ++ "a")),
        ⟨Bindings.insert "s" (.text (repeatText "a" 16777216 ++ "a")) Scope.initial, [], 0⟩) := by
    rfl
  refine ⟨?_, by decide, by cbv, repeatText "a" 16777216 ++ "a", ?_, ?_, ?_⟩
  · intro history command printed replied
    cases replied
    decide
  · rw [ran]
  · rw [ran, Bindings.find?_insert, if_pos rfl]
  · rw [String.utf8ByteSize_append, Value.utf8ByteSize_repeatText]
    rfl

end WindowScript
