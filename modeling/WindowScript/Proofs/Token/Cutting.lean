import Mathlib.Data.List.TakeWhile
import WindowScript.Proofs.Token.Rules

/-!
# Cutting finds the longest lexeme

The first character of a text decides which rule can match there, and cutting follows
that rule as far as it goes.
-/

set_option autoImplicit false

namespace WindowScript.Lexer

/-! ## Quoted texts -/

theorem IsQuote.ne_backslash {quote : Char} (kind : IsQuote quote) : quote ≠ '\x5c' := by
  rcases kind with rfl | rfl <;> decide

private theorem splitQuoted_plain {quote character : Char} {input : List Char} (body : List Char)
    (other : character ≠ quote) (nonempty : input ≠ [])
    (free : character = '\x5c' → input.head? ≠ some quote) :
    splitQuoted quote body (character :: input) = splitQuoted quote (character :: body) input := by
  cases input with
  | nil => exact absurd rfl nonempty
  | cons next rest =>
      have kept : ¬ (character = '\x5c' ∧ next = quote) := by
        intro escape
        rcases escape with ⟨backslash, rfl⟩
        exact free backslash rfl
      rw [splitQuoted, if_neg other, if_neg kept]

/-- The closing quote is found behind the characters that belong inside. -/
theorem splitQuoted_of_inside {quote : Char} {inner value : List Char} (kind : IsQuote quote)
    (inside : Inside quote inner value) (body behind : List Char) :
    splitQuoted quote body (inner ++ quote :: behind) = some (body.reverse ++ inner, behind) := by
  induction inside generalizing body with
  | done => cases behind <;> simp [splitQuoted]
  | @escaped inner value more ih =>
      rw [List.cons_append, List.cons_append, splitQuoted, if_neg kind.ne_backslash.symm,
        if_pos ⟨rfl, rfl⟩, ih]
      simp
  | @plain character inner value other free more ih =>
      rw [List.cons_append, splitQuoted_plain body other (by simp), ih]
      · simp
      · intro backslash
        have away := free backslash
        cases inner with
        | nil => exact absurd rfl away
        | cons next rest => exact away

private theorem inside_of_splitQuoted {quote : Char} {body input whole rest : List Char}
    (split : splitQuoted quote body input = some (whole, rest)) :
    ∃ inner value, whole = body.reverse ++ inner ∧ input = inner ++ quote :: rest ∧
      Inside quote inner value := by
  fun_induction splitQuoted quote body input with
  | case1 => cases split
  | case2 body =>
      cases split
      exact ⟨[], [], by simp, rfl, .done⟩
  | case3 => cases split
  | case4 body next rest =>
      cases split
      exact ⟨[], [], by simp, rfl, .done⟩
  | case5 body character next rest different escape ih =>
      obtain ⟨rfl, rfl⟩ := escape
      obtain ⟨inner, value, rfl, rfl, inside⟩ := ih split
      exact ⟨'\x5c' :: next :: inner, next :: value, by simp, rfl, .escaped inside⟩
  | case6 body character next rest different kept ih =>
      obtain ⟨inner, value, rfl, whole, inside⟩ := ih split
      refine ⟨character :: inner, character :: value, by simp, by rw [whole]; rfl,
        .plain different ?_ inside⟩
      intro backslash head
      have same : next = quote := by
        have heads := congrArg List.head? whole
        cases inner <;> simp_all
      exact kept ⟨backslash, same⟩

private theorem unescape_of_inside {quote : Char} {inner value : List Char}
    (inside : Inside quote inner value) (read : List Char) :
    unescape quote read inner = read.reverse ++ value := by
  induction inside generalizing read with
  | done => simp [unescape]
  | escaped more ih =>
      rw [unescape, if_pos ⟨rfl, rfl⟩, ih]
      simp
  | @plain character inner value other free more ih =>
      cases inner with
      | nil =>
          cases more
          simp [unescape]
      | cons next rest =>
          have kept : ¬ (character = '\x5c' ∧ next = quote) := by
            intro escape
            rcases escape with ⟨backslash, rfl⟩
            exact free backslash rfl
          rw [unescape, if_neg kept, ih]
          simp

/-! ## The first character decides -/

private theorem isSpace_iff {character : Char} :
    isSpace character = true ↔
      character = ' ' ∨ character = '\t' ∨ character = '\r' ∨ character = '\x0c' := by
  simp [isSpace, or_assoc]

private theorem isDigit_eq_false_of_startsWord {character : Char}
    (begins : startsWord character = true) : Numeral.isDigit character = false := by
  by_contra digit
  simp only [Numeral.isDigit, startsWord, isLetter, Bool.not_eq_false, Bool.or_eq_true,
    Bool.and_eq_true, decide_eq_true_eq] at digit begins
  obtain ⟨_, atMost⟩ := digit
  rcases begins with (⟨atLeast, _⟩ | ⟨atLeast, _⟩) | rfl
  · exact absurd (Char.le_trans atLeast atMost) (by decide)
  · exact absurd (Char.le_trans atLeast atMost) (by decide)
  · exact absurd atMost (by decide)

private theorem cut_digit {first : Char} (digit : Numeral.isDigit first = true)
    (input : List Char) : cut first input = cutNumber (first :: input) := by
  have visible : ¬ isSpace first = true := by
    rw [isSpace_iff]
    intro space
    rcases space with rfl | rfl | rfl | rfl <;> exact absurd digit (by decide)
  unfold cut
  rw [if_neg, if_neg visible, if_neg, if_pos digit]
  all_goals
    intro same
    subst same
    exact absurd digit (by decide)

private theorem cut_word {first : Char} (begins : startsWord first = true) (input : List Char) :
    cut first input = cutWord (first :: input) := by
  have visible : ¬ isSpace first = true := by
    rw [isSpace_iff]
    intro space
    rcases space with rfl | rfl | rfl | rfl <;> exact absurd begins (by decide)
  unfold cut
  rw [if_neg, if_neg visible, if_neg, isDigit_eq_false_of_startsWord begins,
    if_neg Bool.false_ne_true, if_pos begins]
  all_goals
    intro same
    subst same
    exact absurd begins (by decide)

private theorem cut_quote {first : Char} (kind : IsQuote first) (input : List Char) :
    cut first input = cutQuoted first input := by
  rcases kind with rfl | rfl <;> rfl

private theorem cut_singleSymbol {first : Char} {mark : Symbol}
    (known : singleSymbol? first = some mark) (input : List Char) :
    cut first input = cutSymbol first input := by
  unfold singleSymbol? at known
  split at known <;> first | rfl | cases known

private theorem spelling_cases (mark : Symbol) :
    (∃ first, mark.spelling.toList = [first] ∧ singleSymbol? first = some mark) ∨
      ∃ first second, mark.spelling.toList = [first, second] ∧
        pairSymbol? first second = some mark := by
  cases mark
  case equals => exact .inr ⟨'=', '=', rfl, rfl⟩
  case arrow => exact .inr ⟨'-', '>', rfl, rfl⟩
  all_goals exact .inl ⟨_, rfl, rfl⟩

private theorem spelling_of_singleSymbol? {first : Char} {mark : Symbol}
    (known : singleSymbol? first = some mark) : mark.spelling.toList = [first] := by
  unfold singleSymbol? at known
  split at known <;> cases known <;> rfl

private theorem spelling_of_pairSymbol? {first second : Char} {mark : Symbol}
    (known : pairSymbol? first second = some mark) :
    mark.spelling.toList = [first, second] := by
  unfold pairSymbol? at known
  split at known <;> cases known <;> rfl

/-! ## A piece and the text behind it -/

private theorem cutNumber_append (input : List Char) :
    (cutNumber input).characters ++ (cutNumber input).rest = input := by
  have whole := List.takeWhile_append_dropWhile (p := Numeral.isDigit) (l := input)
  unfold cutNumber
  split
  next rest point =>
    have fraction := List.takeWhile_append_dropWhile (p := Numeral.isDigit) (l := rest)
    rw [point] at whole
    simp [fraction, whole]
  next => exact whole

private theorem cutQuoted_append (quote : Char) (input : List Char) :
    (cutQuoted quote input).characters ++ (cutQuoted quote input).rest = quote :: input := by
  unfold cutQuoted
  split
  next body rest split =>
    obtain ⟨inner, value, rfl, rfl, inside⟩ := inside_of_splitQuoted split
    simp
  next => simp

theorem cutSymbol_cases (first : Char) (input : List Char) :
    (∃ second rest mark, input = second :: rest ∧ pairSymbol? first second = some mark ∧
      cutSymbol first input =
        { characters := [first, second], content := .token (.symbol mark), rest }) ∨
    (∃ mark, singleSymbol? first = some mark ∧ cutSymbol first input =
      { characters := [first], content := .token (.symbol mark), rest := input }) ∨
    (singleSymbol? first = none ∧ cutSymbol first input =
      { characters := [first], content := .fault (.unexpectedCharacter first), rest := input }) := by
  by_cases pair : ∃ second rest mark, input = second :: rest ∧ pairSymbol? first second = some mark
  · obtain ⟨second, rest, mark, rfl, known⟩ := pair
    exact .inl ⟨second, rest, mark, rfl, known, by simp [cutSymbol, known]⟩
  · have alone : ∀ second rest, input = second :: rest → pairSymbol? first second = none := by
      intro second rest whole
      rw [Option.eq_none_iff_forall_ne_some]
      intro mark known
      exact pair ⟨second, rest, mark, whole, known⟩
    cases known : singleSymbol? first with
    | some mark =>
        refine .inr (.inl ⟨mark, rfl, ?_⟩)
        cases input with
        | nil => simp [cutSymbol, known]
        | cons second rest => simp [cutSymbol, known, alone second rest rfl]
    | none =>
        refine .inr (.inr ⟨rfl, ?_⟩)
        cases input with
        | nil => simp [cutSymbol, known]
        | cons second rest => simp [cutSymbol, known, alone second rest rfl]

private theorem cutSymbol_append (first : Char) (input : List Char) :
    (cutSymbol first input).characters ++ (cutSymbol first input).rest = first :: input := by
  rcases cutSymbol_cases first input with
    ⟨second, rest, mark, rfl, _, cutOff⟩ | ⟨mark, _, cutOff⟩ | ⟨_, cutOff⟩
  all_goals rw [cutOff]; rfl

/-- A piece and its rest are the text, nothing is lost between them. -/
theorem cut_append (first : Char) (input : List Char) :
    (cut first input).characters ++ (cut first input).rest = first :: input := by
  unfold cut
  split
  · rfl
  split
  · simp
  split
  · simp
  split
  · exact cutNumber_append _
  split
  · simp [cutWord]
  split
  · exact cutQuoted_append first input
  · exact cutSymbol_append first input

theorem length_cut_rest_lt {first : Char} {input : List Char}
    (nonempty : (cut first input).characters ≠ []) :
    (cut first input).rest.length < (first :: input).length := by
  have positive := List.length_pos_of_ne_nil nonempty
  rw [← cut_append first input, List.length_append]
  omega

/-! ## No lexeme reaches further -/

/-- Whatever follows these characters, the piece cut off there begins with them, and it
has this content when it does not go on behind them. -/
def Reached (characters : List Char) (content : Content) : Prop :=
  ∀ behind, ∃ first tail more, characters = first :: tail ∧
    (cut first (tail ++ behind)).characters = characters ++ more ∧
    (more = [] → (cut first (tail ++ behind)).content = content)

private theorem reached_integer {whole : List Char} (nonempty : whole ≠ [])
    (digits : ∀ digit ∈ whole, Numeral.isDigit digit = true) :
    Reached whole (integerContent whole) := by
  intro behind
  obtain ⟨first, tail, rfl⟩ := List.exists_cons_of_ne_nil nonempty
  refine ⟨first, tail, ?_⟩
  rw [cut_digit (digits first List.mem_cons_self), ← List.cons_append]
  simp only [cutNumber, List.takeWhile_append_of_pos digits, List.dropWhile_append_of_pos digits]
  split
  · exact ⟨_, trivial, List.append_assoc .., by simp⟩
  · refine ⟨behind.takeWhile Numeral.isDigit, trivial, rfl, ?_⟩
    intro none
    simp [none]

private theorem reached_real {whole fraction : List Char} (nonempty : whole ≠ [])
    (digits : ∀ digit ∈ whole, Numeral.isDigit digit = true)
    (decimals : ∀ digit ∈ fraction, Numeral.isDigit digit = true) :
    Reached (whole ++ '.' :: fraction) (realContent whole fraction) := by
  intro behind
  obtain ⟨first, tail, rfl⟩ := List.exists_cons_of_ne_nil nonempty
  refine ⟨first, tail ++ '.' :: fraction, behind.takeWhile Numeral.isDigit, rfl, ?_⟩
  have point : ¬ Numeral.isDigit '.' = true := by decide
  have text : first :: (tail ++ '.' :: fraction ++ behind) =
      first :: tail ++ '.' :: (fraction ++ behind) := by simp
  rw [cut_digit (digits first List.mem_cons_self), text]
  simp only [cutNumber, List.takeWhile_append_of_pos digits, List.dropWhile_append_of_pos digits,
    List.takeWhile_cons_of_neg point, List.dropWhile_cons_of_neg point, List.append_nil,
    List.takeWhile_append_of_pos decimals]
  refine ⟨by simp, ?_⟩
  intro none
  simp [none]

private theorem reached_word {first : Char} {rest : List Char} (begins : startsWord first = true)
    (goesOn : ∀ character ∈ rest, continuesWord character = true) :
    Reached (first :: rest) (.token (.ofWord (String.ofList (first :: rest)))) := by
  intro behind
  refine ⟨first, rest, behind.takeWhile continuesWord, rfl, ?_⟩
  have continues : continuesWord first = true := by simp [continuesWord, begins]
  simp only [cut_word begins, cutWord, List.takeWhile_cons_of_pos continues,
    List.takeWhile_append_of_pos goesOn]
  refine ⟨rfl, ?_⟩
  intro none
  simp [none]

private theorem reached_symbol (mark : Symbol) :
    Reached mark.spelling.toList (.token (.symbol mark)) := by
  intro behind
  rcases spelling_cases mark with ⟨first, spelling, known⟩ | ⟨first, second, spelling, known⟩
  · refine ⟨first, [], ?_⟩
    rw [cut_singleSymbol known, spelling, List.nil_append]
    cases behind with
    | nil => exact ⟨[], rfl, by simp [cutSymbol, known], by simp [cutSymbol, known]⟩
    | cons second rest =>
        cases joined : pairSymbol? first second with
        | none => exact ⟨[], rfl, by simp [cutSymbol, known, joined]⟩
        | some other => exact ⟨[second], rfl, by simp [cutSymbol, joined]⟩
  · have begins : ∃ alone, singleSymbol? first = some alone := by
      unfold pairSymbol? at known
      split at known <;> first | exact ⟨_, rfl⟩ | cases known
    obtain ⟨alone, single⟩ := begins
    refine ⟨first, [second], [], spelling, ?_⟩
    rw [cut_singleSymbol single, spelling]
    simp [cutSymbol, known]

private theorem reached_quoted {quote : Char} {body value : List Char} (kind : IsQuote quote)
    (inside : Inside quote body value) :
    Reached (quote :: (body ++ [quote])) (.token (.text (String.ofList value))) := by
  intro behind
  refine ⟨quote, body ++ [quote], [], rfl, ?_⟩
  rw [cut_quote kind, List.append_assoc, List.singleton_append]
  simp [cutQuoted, splitQuoted_of_inside kind inside, unescape_of_inside inside]

/-- What a piece amounts to when a rule gives it a reading. -/
def Content.ofReading : Except LexCause Token → Content
  | .ok read => .token read
  | .error cause => .fault cause

private theorem Spells.reached {characters : List Char} {reading : Except LexCause Token}
    (spells : Spells characters reading) : Reached characters (.ofReading reading) := by
  cases spells with
  | real nonempty digits decimals finite =>
      have reached := reached_real nonempty digits decimals
      rwa [realContent, if_pos finite] at reached
  | hugeReal nonempty digits decimals infinite =>
      have reached := reached_real nonempty digits decimals
      rwa [realContent, if_neg (by simp [infinite])] at reached
  | integer nonempty digits exact =>
      have reached := reached_integer nonempty digits
      rwa [integerContent, Integer.ofInt?_eq_some_iff.mpr exact] at reached
  | hugeInteger nonempty digits large =>
      have reached := reached_integer nonempty digits
      rwa [integerContent, Integer.ofInt?_eq_none_iff.mpr (.inr large)] at reached
  | word begins goesOn => exact reached_word begins goesOn
  | symbol mark => exact reached_symbol mark
  | quoted kind inside => exact reached_quoted kind inside

/-! ## Readings are unique -/

theorem Spells.ne_nil {characters : List Char} {reading : Except LexCause Token}
    (spells : Spells characters reading) : characters ≠ [] := by
  obtain ⟨first, tail, more, rfl, _⟩ := spells.reached []
  simp

/-- A longer lexeme than the piece cut off a text never leads the text. -/
theorem Spells.isPrefix_cut {characters : List Char} {reading : Except LexCause Token}
    (spells : Spells characters reading) {first : Char} {input : List Char}
    (leads : characters <+: first :: input) :
    characters <+: (cut first input).characters ∧
      (characters = (cut first input).characters →
        (cut first input).content = .ofReading reading) := by
  obtain ⟨behind, whole⟩ := leads
  obtain ⟨begin, tail, more, rfl, reaches, content⟩ := spells.reached behind
  rw [List.cons_append] at whole
  obtain ⟨rfl, rfl⟩ := List.cons.inj whole
  rw [reaches]
  refine ⟨List.prefix_append .., ?_⟩
  intro same
  exact content (List.self_eq_append_right.mp same)

private theorem ofReading_injective {one other : Except LexCause Token}
    (same : Content.ofReading one = .ofReading other) : one = other := by
  cases one <;> cases other <;> cases same <;> rfl

/-- A lexeme that stands alone is cut off whole. -/
theorem Spells.cut_self {first : Char} {tail : List Char} {reading : Except LexCause Token}
    (spells : Spells (first :: tail) reading) :
    (cut first tail).characters = first :: tail ∧
      (cut first tail).content = .ofReading reading := by
  obtain ⟨reaches, content⟩ := spells.isPrefix_cut List.prefix_rfl
  have within : (cut first tail).characters <+: first :: tail := ⟨_, cut_append first tail⟩
  have whole := reaches.eq_of_length_le within.length_le
  exact ⟨whole.symm, content whole⟩

theorem Spells.unique {characters : List Char} {one other : Except LexCause Token}
    (first : Spells characters one) (second : Spells characters other) : one = other := by
  obtain ⟨begin, tail, rfl⟩ := List.exists_cons_of_ne_nil first.ne_nil
  exact ofReading_injective (first.cut_self.2.symm.trans second.cut_self.2)

theorem Spells.longest_cut {first : Char} {input : List Char} {reading : Except LexCause Token}
    (spells : Spells (cut first input).characters reading) :
    Longest (cut first input).characters (first :: input) where
  leads := ⟨_, cut_append first input⟩
  matched := ⟨reading, spells⟩
  longest := by
    intro other leads matched
    rcases matched with ⟨_, otherSpells⟩
    exact (otherSpells.isPrefix_cut leads).1.length_le

theorem Longest.unique {one other text : List Char} (first : Longest one text)
    (second : Longest other text) : one = other := by
  have sameLength : one.length = other.length :=
    Nat.le_antisymm (second.longest one first.leads first.matched)
      (first.longest other second.leads second.matched)
  exact (List.prefix_of_prefix_length_le first.leads second.leads sameLength.le).eq_of_length
    sameLength

/-! ## What cutting comes to -/

private theorem integerContent_spells {whole : List Char} (nonempty : whole ≠ [])
    (digits : ∀ digit ∈ whole, Numeral.isDigit digit = true) :
    ∃ reading, integerContent whole = .ofReading reading ∧ Spells whole reading := by
  unfold integerContent
  cases held : Integer.ofInt? (Numeral.value whole) with
  | some value => exact ⟨_, rfl, .integer nonempty digits (Integer.ofInt?_eq_some_iff.mp held)⟩
  | none =>
      rcases Integer.ofInt?_eq_none_iff.mp held with negative | large
      · have : (0 : Int) ≤ Numeral.value whole := Int.natCast_nonneg _
        unfold Integer.least at negative
        omega
      · exact ⟨_, rfl, .hugeInteger nonempty digits large⟩

private theorem realContent_spells {whole fraction : List Char} (nonempty : whole ≠ [])
    (digits : ∀ digit ∈ whole, Numeral.isDigit digit = true)
    (decimals : ∀ digit ∈ fraction, Numeral.isDigit digit = true) :
    ∃ reading, realContent whole fraction = .ofReading reading ∧
      Spells (whole ++ '.' :: fraction) reading := by
  unfold realContent
  cases finite : Real.isFinite (Numeral.nearestPointed whole fraction 0) with
  | true => exact ⟨_, if_pos finite, .real nonempty digits decimals finite⟩
  | false => exact ⟨_, if_neg (by simp [finite]), .hugeReal nonempty digits decimals finite⟩

private theorem cutNumber_spells {first : Char} (digit : Numeral.isDigit first = true)
    (input : List Char) :
    ∃ reading, (cutNumber (first :: input)).content = .ofReading reading ∧
      Spells (cutNumber (first :: input)).characters reading := by
  have nonempty : (first :: input).takeWhile Numeral.isDigit ≠ [] := by
    simp [List.takeWhile_cons_of_pos digit]
  have digits : ∀ one ∈ (first :: input).takeWhile Numeral.isDigit, Numeral.isDigit one = true :=
    fun one member => List.mem_takeWhile_imp member
  unfold cutNumber
  split
  next rest _ =>
    exact realContent_spells nonempty digits fun one member => List.mem_takeWhile_imp member
  next => exact integerContent_spells nonempty digits

private theorem cutWord_spells {first : Char} (begins : startsWord first = true)
    (input : List Char) : ∃ token, (cutWord (first :: input)).content = .token token ∧
      Spells (cutWord (first :: input)).characters (.ok token) := by
  have continues : continuesWord first = true := by simp [continuesWord, begins]
  refine ⟨_, rfl, ?_⟩
  simp only [cutWord, List.takeWhile_cons_of_pos continues]
  exact .word begins fun one member => List.mem_takeWhile_imp member

/-- The three ways in which cutting can come out: layout is skipped, a lexeme is found, or
no rule matches. -/
inductive Outcome (first : Char) (input : List Char) (piece : Piece) : Prop where
  | skipped (content : piece.content = .skipped) (nonempty : piece.characters ≠ [])
      (gaps : ∀ {before reached rest : List Char} {found : List Lexeme},
        Tiling (before ++ piece.characters) piece.rest found reached rest →
          Tiling before (first :: input) found reached rest)
  | lexeme (reading : Except LexCause Token) (content : piece.content = .ofReading reading)
      (spells : Spells piece.characters reading)
  | unmatched (cause : LexCause) (content : piece.content = .fault cause)
      (fails : Fails (first :: input) cause)

private theorem Tiling.blanks {spaces : List Char} (skipped : ∀ one ∈ spaces, one ∈ blanks)
    {before behind reached rest : List Char} {found : List Lexeme}
    (more : Tiling (before ++ spaces) behind found reached rest) :
    Tiling before (spaces ++ behind) found reached rest := by
  induction spaces generalizing before with
  | nil => simpa using more
  | cons space later ih =>
      obtain ⟨blank, skippedLater⟩ := List.forall_mem_cons.mp skipped
      have behindSpace : Tiling (before ++ [space] ++ later) behind found reached rest := by
        simpa using more
      exact .gap (List.singleton_append ..).symm (.blank blank) (ih skippedLater behindSpace)

private theorem mem_blanks_of_isSpace {character : Char} (space : isSpace character = true) :
    character ∈ blanks := by
  rcases isSpace_iff.mp space with rfl | rfl | rfl | rfl <;> decide

private theorem outcome_spaces {first : Char} (space : isSpace first = true) (input : List Char) :
    Outcome first input
      { characters := first :: input.takeWhile isSpace
        content := .skipped
        rest := input.dropWhile isSpace } := by
  refine .skipped rfl (List.cons_ne_nil _ _) fun {before reached rest found} more => ?_
  have blank : ∀ one ∈ first :: input.takeWhile isSpace, one ∈ blanks := by
    intro one member
    rcases List.mem_cons.mp member with rfl | within
    · exact mem_blanks_of_isSpace space
    · exact mem_blanks_of_isSpace (List.mem_takeWhile_imp within)
  simpa using Tiling.blanks blank more

private theorem outcome_comment (input : List Char) :
    Outcome '#' input
      { characters := '#' :: input.takeWhile (· ≠ '\n')
        content := .skipped
        rest := input.dropWhile (· ≠ '\n') } := by
  refine .skipped rfl (List.cons_ne_nil _ _) fun {before reached rest found} more => ?_
  have within : '\n' ∉ input.takeWhile (· ≠ '\n') := by
    intro member
    simpa using List.mem_takeWhile_imp member
  have stops : input.dropWhile (· ≠ '\n') = [] ∨
      (input.dropWhile (· ≠ '\n')).head? = some '\n' := by
    have stopped := List.head?_dropWhile_not (· ≠ '\n') input
    cases ahead : input.dropWhile (· ≠ '\n') with
    | nil => exact .inl rfl
    | cons next rest =>
        rw [ahead] at stopped
        exact .inr (by simpa using stopped)
  exact .gap (by simp) (.comment within stops) more

/-- Only one rule can match behind an opening quote. -/
theorem Spells.inside_of_isQuote {characters : List Char} {reading : Except LexCause Token}
    (spells : Spells characters reading) {quote : Char} {tail : List Char}
    (kind : IsQuote quote) (whole : characters = quote :: tail) :
    ∃ body value, tail = body ++ [quote] ∧ Inside quote body value := by
  have undigit : ¬ Numeral.isDigit quote = true := by rcases kind with rfl | rfl <;> decide
  cases spells with
  | @real digits _ nonempty all =>
      obtain ⟨first, others, rfl⟩ := List.exists_cons_of_ne_nil nonempty
      cases whole
      exact absurd (all quote List.mem_cons_self) undigit
  | @hugeReal digits _ nonempty all =>
      obtain ⟨first, others, rfl⟩ := List.exists_cons_of_ne_nil nonempty
      cases whole
      exact absurd (all quote List.mem_cons_self) undigit
  | integer nonempty all =>
      exact absurd (all quote (by simp [whole])) undigit
  | hugeInteger nonempty all =>
      exact absurd (all quote (by simp [whole])) undigit
  | word begins =>
      cases whole
      rcases kind with rfl | rfl <;> exact absurd begins (by decide)
  | symbol mark =>
      rcases spelling_cases mark with ⟨first, spelling, known⟩ | ⟨first, second, spelling, known⟩
      all_goals
        cases spelling.symm.trans whole
        rcases kind with rfl | rfl <;> cases known
  | quoted _ inside =>
      cases whole
      exact ⟨_, _, rfl, inside⟩

private theorem outcome_quoted {quote : Char} (kind : IsQuote quote) (input : List Char) :
    Outcome quote input (cutQuoted quote input) := by
  unfold cutQuoted
  split
  next body rest split =>
    obtain ⟨inner, value, rfl, rfl, inside⟩ := inside_of_splitQuoted split
    refine .lexeme (.ok (.text (String.ofList value))) ?_ ?_
    · simp [unescape_of_inside inside, Content.ofReading]
    · exact .quoted kind inside
  next open_ =>
    refine .unmatched .unterminatedText rfl (.unterminated kind ?_)
    intro leading leads matched
    rcases leads with ⟨behind, whole⟩
    rcases matched with ⟨reading, spells⟩
    obtain ⟨first, tail, rfl⟩ := List.exists_cons_of_ne_nil spells.ne_nil
    cases whole
    obtain ⟨body, value, rfl, inside⟩ := spells.inside_of_isQuote kind rfl
    have closed := splitQuoted_of_inside kind inside [] behind
    simp_all

private theorem Spells.ne_unexpected {characters : List Char} {cause : LexCause} {first : Char}
    (spells : Spells characters (.error cause)) : cause ≠ .unexpectedCharacter first := by
  cases spells <;> simp

private theorem outcome_symbol {first : Char} {input : List Char} (unquoted : ¬ IsQuote first)
    (visible : first ∉ blanks) (uncommented : first ≠ '#')
    (chosen : cut first input = cutSymbol first input) :
    Outcome first input (cut first input) := by
  rw [chosen]
  rcases cutSymbol_cases first input with
    ⟨second, rest, mark, rfl, known, cutOff⟩ | ⟨mark, known, cutOff⟩ | ⟨_, cutOff⟩
  · rw [cutOff]
    exact .lexeme (.ok (.symbol mark)) rfl (spelling_of_pairSymbol? known ▸ .symbol mark)
  · rw [cutOff]
    exact .lexeme (.ok (.symbol mark)) rfl (spelling_of_singleSymbol? known ▸ .symbol mark)
  · rw [cutOff]
    refine .unmatched _ rfl (.unexpected unquoted visible uncommented ?_)
    -- A lexeme in front of the text would have given the piece its content.
    intro leading leads matched
    rcases matched with ⟨reading, spells⟩
    obtain ⟨within, content⟩ := spells.isPrefix_cut leads
    rw [chosen, cutOff] at within content
    obtain ⟨one, more, rfl⟩ := List.exists_cons_of_ne_nil spells.ne_nil
    obtain ⟨rfl, short⟩ := List.cons_prefix_cons.mp within
    cases List.prefix_nil.mp short
    have read := content rfl
    cases reading with
    | ok token => cases read
    | error cause =>
        cases read
        exact Spells.ne_unexpected spells rfl

/-- Cutting skips layout, or finds the reading of what it cuts off, or has met a place at
which no rule matches. -/
theorem cut_outcome (first : Char) (input : List Char) :
    Outcome first input (cut first input) := by
  by_cases newline : first = '\n'
  · subst newline
    exact .skipped rfl (List.cons_ne_nil _ _) fun more => .gap rfl (.blank (by decide)) more
  by_cases space : isSpace first = true
  · rw [cut, if_neg newline, if_pos space]
    exact outcome_spaces space input
  by_cases comment : first = '#'
  · subst comment
    exact outcome_comment input
  by_cases digit : Numeral.isDigit first = true
  · rw [cut_digit digit]
    obtain ⟨reading, content, spells⟩ := cutNumber_spells digit input
    exact .lexeme reading content spells
  by_cases begins : startsWord first = true
  · rw [cut_word begins]
    obtain ⟨token, content, spells⟩ := cutWord_spells begins input
    exact .lexeme (.ok token) content spells
  by_cases kind : IsQuote first
  · rw [cut_quote kind]
    exact outcome_quoted kind input
  · have visible : first ∉ blanks := by
      rw [isSpace_iff] at space
      simp_all [blanks]
    apply outcome_symbol kind visible comment
    rw [cut, if_neg newline, if_neg space, if_neg comment, if_neg digit, if_neg begins]
    exact if_neg kind

end WindowScript.Lexer
