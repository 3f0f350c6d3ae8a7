import WindowScript.Proofs.Source.LineIndex
import WindowScript.Proofs.Token.Cutting

/-!
# The places of the pieces

Reading keeps a byte offset and an index of lines in step with the text already cut
off. Lines become known in two ways, behind a newline that is skipped and inside a
quoted text, and the ones inside a quoted text before the text itself is located.
-/

set_option autoImplicit false

namespace WindowScript

/-- The position of the character that follows these: newlines end lines, and columns
count the characters behind the last of them. -/
def Position.behind (before : List Char) : Position :=
  ⟨1 + before.count '\n', 1 + (before.reverse.takeWhile (· ≠ '\n')).length⟩

namespace Lexer

/-! ## Line breaks of a text -/

private theorem lineBreaks_found (found : List Nat) (offset : Nat) (characters : List Char) :
    lineBreaks found offset characters = found.reverse ++ lineBreaks [] offset characters := by
  induction characters generalizing found offset with
  | nil => simp [lineBreaks]
  | cons character rest ih =>
      rw [lineBreaks, ih, lineBreaks, ih (if character = '\n' then _ else _)]
      split <;> simp

private theorem lineBreaks_cons (offset : Nat) (character : Char) (rest : List Char) :
    lineBreaks [] offset (character :: rest) =
      (if character = '\n' then [offset + character.utf8Size] else []) ++
        lineBreaks [] (offset + character.utf8Size) rest := by
  rw [lineBreaks, lineBreaks_found]
  split <;> rfl

private theorem lineBreaks_append (offset : Nat) (leading trailing : List Char) :
    lineBreaks [] offset (leading ++ trailing) =
      lineBreaks [] offset leading ++ lineBreaks [] (offset + byteSize leading) trailing := by
  induction leading generalizing offset with
  | nil => rfl
  | cons character rest ih =>
      rw [List.cons_append, lineBreaks_cons, ih, lineBreaks_cons, byteSize_cons, Nat.add_assoc,
        List.append_assoc]

private theorem lineBreaks_of_not_mem {characters : List Char} (absent : '\n' ∉ characters)
    (offset : Nat) : lineBreaks [] offset characters = [] := by
  induction characters generalizing offset with
  | nil => rfl
  | cons character rest ih =>
      have different : character ≠ '\n' := fun same => absent (by simp [same])
      rw [lineBreaks_cons, if_neg different, ih fun member => absent (List.mem_cons_of_mem _ member)]
      rfl

private theorem lineBreaks_add (offset shift : Nat) (characters : List Char) :
    (lineBreaks [] offset characters).map (shift + ·) =
      lineBreaks [] (shift + offset) characters := by
  induction characters generalizing offset with
  | nil => rfl
  | cons character rest ih =>
      rw [lineBreaks_cons, List.map_append, ih, lineBreaks_cons, Nat.add_assoc]
      split <;> simp

private theorem length_lineBreaks (offset : Nat) (characters : List Char) :
    (lineBreaks [] offset characters).length = characters.count '\n' := by
  induction characters generalizing offset with
  | nil => rfl
  | cons character rest ih =>
      rw [lineBreaks_cons, List.length_append, ih, List.count_cons]
      split <;> simp_all [Nat.add_comm]

/-- Every line break stands behind a part of the text that is not empty. -/
theorem exists_of_mem_lineBreaks {offset start : Nat} {characters : List Char}
    (member : start ∈ lineBreaks [] offset characters) :
    ∃ leading, leading <+: characters ∧ leading ≠ [] ∧ start = offset + byteSize leading := by
  induction characters generalizing offset with
  | nil => cases member
  | cons character rest ih =>
      rw [lineBreaks_cons, List.mem_append] at member
      cases member with
      | inl here =>
          refine ⟨[character], by simp, by simp, ?_⟩
          split at here <;> simp_all
      | inr later =>
          obtain ⟨leading, within, _, rfl⟩ := ih later
          refine ⟨character :: leading, by simpa using within, by simp, ?_⟩
          rw [byteSize_cons, Nat.add_assoc]

private theorem lt_of_mem_lineBreaks {offset start : Nat} {characters : List Char}
    (member : start ∈ lineBreaks [] offset characters) : offset < start := by
  obtain ⟨leading, _, nonempty, rfl⟩ := exists_of_mem_lineBreaks member
  have positive := byteSize_pos_of_ne_nil nonempty
  omega

private theorem pairwise_lineBreaks (offset : Nat) (characters : List Char) :
    (lineBreaks [] offset characters).Pairwise (· < ·) := by
  induction characters generalizing offset with
  | nil => exact .nil
  | cons character rest ih =>
      rw [lineBreaks_cons]
      split
      · exact List.pairwise_cons.mpr ⟨fun _ member => lt_of_mem_lineBreaks member, ih _⟩
      · exact ih _

/-! ## The lines of a text -/

/-- Whether these are the line starts of a text. -/
def StartsOf (text : List Char) (starts : Array Nat) : Prop :=
  starts.toList = 0 :: lineBreaks [] 0 text

private theorem StartsOf.ordered {source : String} {text : List Char} {starts : Array Nat}
    (known : StartsOf text starts) (within : text <+: source.toList) :
    LineIndex.Ordered source starts := by
  unfold StartsOf at known
  refine ⟨by rw [known]; rfl, ?_, ?_⟩
  · rw [known]
    exact List.pairwise_cons.mpr ⟨fun _ member => lt_of_mem_lineBreaks member,
      pairwise_lineBreaks 0 text⟩
  · intro start member
    rw [known, List.mem_cons] at member
    cases member with
    | inl first => exact ⟨[], List.nil_prefix, first.symm⟩
    | inr later =>
        obtain ⟨leading, inside, _, rfl⟩ := exists_of_mem_lineBreaks later
        exact ⟨leading, inside.trans within, by simp⟩

/-- A text ends with the line that its last newline begins. -/
theorem exists_lastLine (text : List Char) :
    ∃ lines last, text = lines ++ last ∧ '\n' ∉ last ∧
      (lines = [] ∨ ∃ front, lines = front ++ ['\n']) ∧
      Position.behind text = ⟨1 + lines.count '\n', 1 + last.length⟩ := by
  induction text using List.reverseRecOn with
  | nil => exact ⟨[], [], rfl, by simp, .inl rfl, rfl⟩
  | append_singleton text character ih =>
      obtain ⟨lines, last, whole, single, ended, position⟩ := ih
      by_cases newline : character = '\n'
      · subst newline
        refine ⟨text ++ ['\n'], [], by simp, by simp, .inr ⟨text, rfl⟩, ?_⟩
        simp [Position.behind]
      · refine ⟨lines, last ++ [character], by simp [whole], ?_, ended, ?_⟩
        · simp [single, Ne.symm newline]
        · have before : (text ++ [character]).reverse = character :: text.reverse := by simp
          simp only [Position.behind, Position.mk.injEq] at position ⊢
          rw [before, List.takeWhile_cons_of_pos (by simpa using newline), List.count_append,
            List.count_singleton, if_neg (by simpa using newline), List.length_cons,
            List.length_append, List.length_singleton]
          omega

/-- The line behind these lines begins behind their bytes. -/
theorem getD_lineBreaks {lines : List Char} (ended : lines = [] ∨ ∃ front, lines = front ++ ['\n'])
    (more : List Nat) :
    (0 :: (lineBreaks [] 0 lines ++ more)).getD (lines.count '\n') 0 = byteSize lines := by
  rcases ended with rfl | ⟨front, rfl⟩
  · rfl
  · have length := length_lineBreaks 0 front
    have ending : lineBreaks [] (0 + byteSize front) ['\n'] = [byteSize (front ++ ['\n'])] := by
      simp [lineBreaks]
    have count : (front ++ ['\n']).count '\n' = (lineBreaks [] 0 front).length + 1 := by
      simp [length]
    rw [lineBreaks_append, ending, count, List.getD_cons_succ, List.append_assoc,
      List.getD_eq_getElem?_getD, List.getElem?_append_right (Nat.le_refl _)]
    simp

private theorem StartsOf.counted {source : String} {before more : List Char} {index : LineIndex}
    (known : StartsOf (before ++ more) index.starts) (within : before ++ more <+: source.toList) :
    index.counted source (byteSize before) = .behind before := by
  obtain ⟨lines, last, rfl, single, ended, position⟩ := exists_lastLine before
  unfold StartsOf at known
  have line : index.lineOf (byteSize (lines ++ last)) = 1 + lines.count '\n' := by
    have early : (lineBreaks [] 0 (lines ++ last)).countP (· ≤ byteSize (lines ++ last)) =
        lines.count '\n' := by
      rw [List.countP_eq_length.mpr, length_lineBreaks, List.count_append,
        List.count_eq_zero.mpr single, Nat.add_zero]
      intro start member
      obtain ⟨leading, inside, _, rfl⟩ := exists_of_mem_lineBreaks member
      obtain ⟨tail, whole⟩ := inside
      simp [← whole]
    have late : (lineBreaks [] (0 + byteSize (lines ++ last)) more).countP
        (· ≤ byteSize (lines ++ last)) = 0 := by
      rw [List.countP_eq_zero]
      intro start member
      have := lt_of_mem_lineBreaks member
      simp only [decide_eq_true_eq]
      omega
    rw [LineIndex.lineOf_eq, known, List.countP_cons_of_pos (by simp), lineBreaks_append,
      List.countP_append, early, late]
    omega
  have start : index.lineStart (byteSize (lines ++ last)) = byteSize lines := by
    rw [LineIndex.lineStart_eq, line, known, Nat.add_sub_cancel_left, List.append_assoc,
      lineBreaks_append]
    exact getD_lineBreaks ended _
  rw [position, LineIndex.counted, line, start,
    charactersBetween_of_isPrefix ((List.prefix_append ..).trans within) (List.prefix_append ..)]
  simp

/-! ## The lines that a piece reports -/

private theorem newline_not_mem_takeWhile {keeps : Char → Bool} (stops : keeps '\n' = false)
    (text : List Char) : '\n' ∉ text.takeWhile keeps := by
  intro member
  rw [List.mem_takeWhile_imp member] at stops
  cases stops

private theorem breaks_of_single {piece : Piece} (none : piece.breaks = [])
    (single : '\n' ∉ piece.characters) : piece.breaks = lineBreaks [] 0 piece.characters := by
  rw [none, lineBreaks_of_not_mem single]

private theorem cutNumber_breaks (input : List Char) :
    (cutNumber input).breaks = lineBreaks [] 0 (cutNumber input).characters := by
  have whole := @newline_not_mem_takeWhile Numeral.isDigit rfl
  unfold cutNumber
  split
  next rest _ => exact breaks_of_single rfl (by simp [whole])
  next => exact breaks_of_single rfl (whole input)

private theorem cutQuoted_breaks {quote : Char} (kind : IsQuote quote) (input : List Char) :
    (cutQuoted quote input).breaks = lineBreaks [] 0 (cutQuoted quote input).characters := by
  have other : quote ≠ '\n' := by rcases kind with rfl | rfl <;> decide
  have closing : ∀ offset, lineBreaks [] offset [quote] = [] :=
    lineBreaks_of_not_mem (by simpa using other.symm)
  have opening : ∀ text, lineBreaks [] 0 (quote :: text) = lineBreaks [] quote.utf8Size text := by
    intro text
    rw [lineBreaks_cons, if_neg other, Nat.zero_add, List.nil_append]
  unfold cutQuoted
  split
  next body rest _ =>
    simp only [List.cons_append, opening, lineBreaks_append, closing, List.append_nil]
  next => simp only [opening]

private theorem cutSymbol_breaks {first : Char} (other : first ≠ '\n') (input : List Char) :
    (cutSymbol first input).breaks = lineBreaks [] 0 (cutSymbol first input).characters := by
  rcases cutSymbol_cases first input with
    ⟨second, rest, mark, rfl, known, cutOff⟩ | ⟨mark, known, cutOff⟩ | ⟨_, cutOff⟩
  all_goals rw [cutOff]
  · refine breaks_of_single rfl ?_
    unfold pairSymbol? at known
    split at known <;> cases known <;> simp
  · exact breaks_of_single rfl (by simpa using other.symm)
  · exact breaks_of_single rfl (by simpa using other.symm)

/-- Both ways of recording lines together report every newline of the text, each once. -/
theorem cut_breaks (first : Char) (input : List Char) :
    (cut first input).breaks = lineBreaks [] 0 (cut first input).characters := by
  by_cases newline : first = '\n'
  · subst newline
    rfl
  unfold cut
  rw [if_neg newline]
  split
  · exact breaks_of_single rfl
      (by simp [Ne.symm newline, @newline_not_mem_takeWhile isSpace rfl])
  split
  next comment => exact breaks_of_single rfl (by simp [comment, newline_not_mem_takeWhile])
  split
  · exact cutNumber_breaks _
  split
  · exact breaks_of_single rfl (@newline_not_mem_takeWhile continuesWord rfl _)
  split
  next kind => exact cutQuoted_breaks kind input
  next => exact cutSymbol_breaks newline input

/-! ## Taking in a piece -/

/-- What the state knows of the text in front of it: how long it is and where its lines
begin. The remembered position is true of a place in that text. -/
structure Knows (source : String) (before : List Char) (state : State) : Prop where
  offset : state.offset = byteSize before
  starts : StartsOf before state.index.starts
  truthful : state.index.Truthful source
  mapped : state.index.lastOffset ≤ byteSize before

theorem knows_start (source : String) : Knows source [] .start := by
  have starts : StartsOf [] LineIndex.empty.starts := rfl
  exact ⟨rfl, starts, LineIndex.ofStarts_truthful (starts.ordered List.nil_prefix), Nat.le_refl 0⟩

private theorem foldl_record {source : String} (offset : Nat) (breaks : List Nat)
    (later : ∀ start ∈ breaks, 0 < start) {index : LineIndex} (nonempty : 0 < index.starts.size)
    (truthful : index.Truthful source) (mapped : index.lastOffset ≤ offset) :
    let final := breaks.foldl (fun index start => index.record (offset + start)) index
    final.starts.toList = index.starts.toList ++ breaks.map (offset + ·) ∧
      final.lastOffset = index.lastOffset ∧ final.Truthful source := by
  induction breaks generalizing index with
  | nil => simpa using truthful
  | cons start rest ih =>
      obtain ⟨positive, laterRest⟩ := List.forall_mem_cons.mp later
      have recorded := LineIndex.record_truthful nonempty truthful
        (show index.lastOffset < offset + start by omega)
      have step := @ih laterRest (index.record (offset + start)) (by simp [LineIndex.record])
        recorded mapped
      simpa [LineIndex.record] using step

private theorem Knows.indexAfter {source : String} {before : List Char} {state : State}
    {piece : Piece} (knows : Knows source before state)
    (breaks : piece.breaks = lineBreaks [] 0 piece.characters) :
    StartsOf (before ++ piece.characters) (state.indexAfter piece).starts ∧
      (state.indexAfter piece).lastOffset = state.index.lastOffset ∧
      (state.indexAfter piece).Truthful source := by
  have nonempty : 0 < state.index.starts.size := by
    have size := congrArg List.length knows.starts
    simp at size
    omega
  have later : ∀ start ∈ piece.breaks, 0 < start := by
    rw [breaks]
    exact fun start member => lt_of_mem_lineBreaks member
  obtain ⟨starts, lastOffset, truthful⟩ := foldl_record state.offset piece.breaks later nonempty
    knows.truthful (knows.offset ▸ knows.mapped)
  refine ⟨?_, lastOffset, truthful⟩
  unfold StartsOf
  rw [State.indexAfter, starts, knows.starts, breaks, lineBreaks_add, lineBreaks_append,
    knows.offset]
  simp

section Taking

variable {source : String} {before : List Char} {state : State} {piece : Piece}

/-- The lines that a piece has just reported begin behind its own place, so they change
neither its line nor its column. -/
theorem Knows.locate (knows : Knows source before state)
    (breaks : piece.breaks = lineBreaks [] 0 piece.characters)
    (within : before ++ piece.characters <+: source.toList) :
    ((state.indexAfter piece).locate source state.offset).1 = .behind before ∧
      ((state.indexAfter piece).locate source state.offset).2.Truthful source := by
  obtain ⟨starts, _, truthful⟩ := knows.indexAfter breaks
  have ordered := starts.ordered within
  have boundary : Boundary source (byteSize before) :=
    ⟨before, (List.prefix_append ..).trans within, rfl⟩
  rw [knows.offset]
  refine ⟨?_, LineIndex.locate_truthful ordered truthful boundary⟩
  rw [LineIndex.locate_fst ordered truthful boundary, starts.counted within]

theorem Knows.take_skipped (knows : Knows source before state)
    (breaks : piece.breaks = lineBreaks [] 0 piece.characters)
    (skipped : piece.content = .skipped) :
    ∃ next, state.take source piece = .ok next ∧
      Knows source (before ++ piece.characters) next ∧ next.read = state.read := by
  obtain ⟨starts, lastOffset, truthful⟩ := knows.indexAfter breaks
  have taken : state.take source piece = .ok
      ⟨state.offset + byteSize piece.characters, state.indexAfter piece, state.read⟩ := by
    rw [State.take, skipped]
  refine ⟨_, taken, ⟨?_, starts, truthful, ?_⟩, rfl⟩
  · rw [knows.offset, byteSize_append]
  · have mapped := knows.mapped
    rw [lastOffset, byteSize_append]
    omega

theorem Knows.take_token {token : Token} (knows : Knows source before state)
    (breaks : piece.breaks = lineBreaks [] 0 piece.characters)
    (within : before ++ piece.characters <+: source.toList)
    (read : piece.content = .token token) :
    ∃ next, state.take source piece = .ok next ∧
      Knows source (before ++ piece.characters) next ∧
      next.read = (token, .behind before) :: state.read := by
  obtain ⟨starts, _, _⟩ := knows.indexAfter breaks
  obtain ⟨position, truthful⟩ := knows.locate breaks within
  have taken : state.take source piece = .ok
      ⟨state.offset + byteSize piece.characters,
        ((state.indexAfter piece).locate source state.offset).2,
        (token, .behind before) :: state.read⟩ := by
    rw [State.take, read, ← position]
  refine ⟨_, taken, ⟨?_, starts, truthful, ?_⟩, rfl⟩
  · rw [knows.offset, byteSize_append]
  · rw [LineIndex.locate_lastOffset, knows.offset, byteSize_append]
    omega

theorem Knows.take_fault {cause : LexCause} (knows : Knows source before state)
    (breaks : piece.breaks = lineBreaks [] 0 piece.characters)
    (within : before ++ piece.characters <+: source.toList)
    (fault : piece.content = .fault cause) :
    state.take source piece = .error ⟨cause, .behind before⟩ := by
  rw [State.take, fault, (knows.locate breaks within).1]

/-- The end of the text is located like a piece without characters. -/
theorem Knows.locate_end (knows : Knows source source.toList state) :
    (state.index.locate source source.utf8ByteSize).1 = .behind source.toList := by
  have starts : StartsOf (source.toList ++ []) state.index.starts := by
    simpa using knows.starts
  have ordered := knows.starts.ordered List.prefix_rfl
  have boundary : Boundary source (byteSize source.toList) := ⟨_, List.prefix_rfl, rfl⟩
  rw [← byteSize_toList, LineIndex.locate_fst ordered knows.truthful boundary,
    starts.counted (by simp)]

end Taking

end Lexer

end WindowScript
