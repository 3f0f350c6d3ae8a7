import WindowScript.Proofs.Python.Reading

/-!
# Delimiters of expressions

A scanner of Python code that knows quotes and brackets. What is written for an expression
stays on its line, and leaves the scanner as it found it.
-/

set_option autoImplicit false

namespace WindowScript.Python

/-- Where a scanner is: between the words of the code, inside a text, or behind a backslash
in a text. -/
inductive Place where
  | code
  | quoted (quote : Char)
  | escaped (quote : Char)
deriving DecidableEq

/-- A scanner with the brackets that are still to be closed, innermost first, each as the one
that closes it. -/
structure Scanner where
  awaited : List Char
  place : Place
deriving DecidableEq

namespace Scanner

def start : Scanner := ⟨[], .code⟩

def closing? : Char → Option Char
  | '(' => some ')'
  | '[' => some ']'
  | '\x7b' => some '\x7d'
  | _ => none

def isClosing (character : Char) : Bool :=
  character = ')' || character = ']' || character = '\x7d'

/-- Goes on by a character. No bracket is closed but by the one awaited first. -/
def step (scanner : Scanner) (character : Char) : Option Scanner :=
  match scanner.place with
  | .escaped quote => some ⟨scanner.awaited, .quoted quote⟩
  | .quoted quote =>
      if character = '\x5c' then some ⟨scanner.awaited, .escaped quote⟩
      else if character = quote then some ⟨scanner.awaited, .code⟩
      else some scanner
  | .code =>
      if character = '\x22' ∨ character = '\x27' then
        some ⟨scanner.awaited, .quoted character⟩
      else
        match closing? character with
        | some closing => some ⟨closing :: scanner.awaited, .code⟩
        | none =>
            if isClosing character then
              match scanner.awaited with
              | [] => none
              | first :: rest => if first = character then some ⟨rest, .code⟩ else none
            else some scanner

def scan (scanner : Scanner) : List Char → Option Scanner
  | [] => some scanner
  | character :: rest => (scanner.step character).bind fun next => next.scan rest

private theorem scan_append (scanner : Scanner) (left right : List Char) :
    scanner.scan (left ++ right) = (scanner.scan left).bind fun next => next.scan right := by
  induction left generalizing scanner with
  | nil => rfl
  | cons character left ih =>
      rw [List.cons_append, scan, scan, Option.bind_assoc]
      congr 1
      funext next
      exact ih next

end Scanner

/-!
## Texts that fit into a line
-/

/-- A text that stays on its line and takes a scanner of code from some awaited brackets to
others. -/
structure Takes (before after : List Char) (text : String) : Prop where
  inline : '\n' ∉ text.toList
  scanned : ∀ awaited, Scanner.scan ⟨before ++ awaited, .code⟩ text.toList =
    some ⟨after ++ awaited, .code⟩

/-- A text that stays on its line and closes what it opens. -/
abbrev Contained (text : String) : Prop := Takes [] [] text

namespace Takes

variable {before between after : List Char} {left right text : String}

theorem append (begun : Takes before between left) (ended : Takes between after right) :
    Takes before after (left ++ right) where
  inline := by
    rw [String.toList_append, List.mem_append, not_or]
    exact ⟨begun.inline, ended.inline⟩
  scanned := by
    intro awaited
    rw [String.toList_append, Scanner.scan_append, begun.scanned, Option.bind_some, ended.scanned]

/-- Inside other brackets. -/
theorem within (taken : Contained text) (outer : List Char) : Takes outer outer text where
  inline := taken.inline
  scanned := fun awaited => taken.scanned (outer ++ awaited)

end Takes

/-- Whether a character is no delimiter, no colon and no newline. -/
def isNeutral (character : Char) : Bool :=
  character ∉ ['\n', ':', '\x22', '\x27', '(', ')', '[', ']', '\x7b', '\x7d']

private theorem step_neutral {character : Char} (neutral : isNeutral character = true)
    (awaited : List Char) :
    Scanner.step ⟨awaited, .code⟩ character = some ⟨awaited, .code⟩ := by
  simp only [isNeutral, List.mem_cons, List.not_mem_nil, or_false, not_or, decide_eq_true_eq]
    at neutral
  obtain ⟨_, _, double, single, _, closeRound, _, closeSquare, _, closeCurly⟩ := neutral
  simp [Scanner.step, Scanner.closing?, Scanner.isClosing, double, single, closeRound, closeSquare,
    closeCurly]

theorem contained_of_neutral {text : String} (neutral : text.toList.all isNeutral = true) :
    Contained text where
  inline := fun member => nomatch List.all_eq_true.mp neutral _ member
  scanned := by
    intro awaited
    generalize text.toList = characters at neutral
    induction characters with
    | nil => rfl
    | cons character rest ih =>
        rw [List.all_cons, Bool.and_eq_true] at neutral
        rw [Scanner.scan, step_neutral neutral.1]
        exact ih neutral.2

theorem isNeutral_of_isNameCharacter {character : Char}
    (named : Reader.isNameCharacter character = true) : isNeutral character = true :=
  decide_eq_true (Reader.notMem_of_all Reader.isNameCharacter (by decide) named)

theorem isNeutral_of_isNumeralCharacter {character : Char}
    (numeral : Real.isNumeralCharacter character = true) : isNeutral character = true :=
  decide_eq_true (Reader.notMem_of_all Real.isNumeralCharacter (by decide) numeral)

/-!
## Texts between quotes
-/

/-- A character behind an opening quote that does not close it. -/
theorem step_quoted {quote character : Char} (backslash : character ≠ '\x5c')
    (other : character ≠ quote) (awaited : List Char) :
    Scanner.step ⟨awaited, .quoted quote⟩ character = some ⟨awaited, .quoted quote⟩ := by
  simp [Scanner.step, backslash, other]

private theorem scan_quoted {quote : Char} {characters : List Char}
    (inside : ∀ character ∈ characters, character ≠ '\x5c' ∧ character ≠ quote)
    (awaited : List Char) :
    Scanner.scan ⟨awaited, .quoted quote⟩ characters = some ⟨awaited, .quoted quote⟩ := by
  induction characters with
  | nil => rfl
  | cons character rest ih =>
      obtain ⟨here, later⟩ := List.forall_mem_cons.mp inside
      rw [Scanner.scan, step_quoted here.1 here.2]
      exact ih later

theorem digitChar_plain :
    ∀ digit < 16, Nat.digitChar digit ≠ '\x5c' ∧ Nat.digitChar digit ≠ '\x22' := by
  decide

/-- What is written for a character of a text stays in the text and on its line. -/
theorem scan_escape (character : Char) (awaited : List Char) :
    Scanner.scan ⟨awaited, .quoted '\x22'⟩ (escape character) = some ⟨awaited, .quoted '\x22'⟩ ∧
      '\n' ∉ escape character := by
  unfold escape
  split
  · next special => rcases special with rfl | rfl <;> exact ⟨rfl, by decide⟩
  split
  · exact ⟨rfl, by decide⟩
  split
  · exact ⟨rfl, by decide⟩
  split
  · exact ⟨rfl, by decide⟩
  split
  · have digits (place : Nat) := digitChar_plain (place % 16) (Nat.mod_lt _ (by decide))
    constructor
    · change Scanner.scan ⟨awaited, .quoted '\x22'⟩ (fourDigits character.toNat) = _
      apply scan_quoted
      simp [fourDigits, digits]
    · simp [fourDigits]
  · next special newline _ _ _ =>
      rw [not_or] at special
      exact ⟨scan_quoted (by simpa using special) awaited, by simpa using Ne.symm newline⟩

private theorem contained_literal (value : String) : Contained (literal value) := by
  have inner (characters awaited : List Char) :
      Scanner.scan ⟨awaited, .quoted '\x22'⟩ (characters.flatMap escape) =
          some ⟨awaited, .quoted '\x22'⟩ ∧ '\n' ∉ characters.flatMap escape := by
    induction characters with
    | nil => exact ⟨rfl, by simp⟩
    | cons character rest ih =>
        obtain ⟨here, inline⟩ := scan_escape character awaited
        rw [List.flatMap_cons, Scanner.scan_append, here, List.mem_append, not_or]
        exact ⟨ih.1, inline, ih.2⟩
  constructor
  · have inline := (inner value.toList []).2
    rw [literal, String.toList_ofList, List.mem_cons, List.mem_append, List.mem_singleton]
    simp [inline]
  · intro awaited
    rw [literal, String.toList_ofList, Scanner.scan]
    change Scanner.scan ⟨awaited, .quoted '\x22'⟩ _ = _
    rw [Scanner.scan_append, (inner value.toList awaited).1]
    rfl

/-- A key between single quotes and the brackets of a subscript. -/
theorem contained_subscript {key : String} (word : IsWord key.toList) :
    Contained ("['" ++ key ++ "']") := by
  have plain := IsWord.plain word
  have spelled : ("['" ++ key ++ "']").toList =
      '[' :: '\x27' :: (key.toList ++ ['\x27', ']']) := by simp
  constructor
  · rw [spelled]
    simpa using fun member => (plain _ member).2.2.1 rfl
  · intro awaited
    have inside := scan_quoted (fun character member =>
      ⟨(plain character member).2.2.2.2, (plain character member).2.1⟩) (']' :: awaited)
    rw [spelled]
    change Scanner.scan ⟨']' :: awaited, .quoted '\x27'⟩ _ = _
    rw [Scanner.scan_append, inside]
    rfl

/-!
## Expressions
-/

/-- A contained text that does not end in a colon. -/
structure Fits (text : String) : Prop where
  contained : Contained text
  last : text.toList.getLast? ≠ some ':'

theorem fits_of_neutral {text : String} (neutral : text.toList.all isNeutral = true) :
    Fits text where
  contained := contained_of_neutral neutral
  last := fun ends => nomatch List.all_eq_true.mp neutral _ (List.mem_of_getLast? ends)

/-- A text ends as its second part does. -/
theorem fits_append {between : List Char} {left right : String} (begun : Takes [] between left)
    (ended : Takes between [] right) {character : Char}
    (last : right.toList.getLast? = some character) (other : character ≠ ':') :
    Fits (left ++ right) where
  contained := begun.append ended
  last := by
    rw [String.toList_append, List.getLast?_append, last, Option.some_or]
    simpa using other

theorem neutral_name {label : String} (word : IsWord label.toList) :
    (name label).toList.all isNeutral = true := by
  obtain ⟨first, rest, spelled, starts, all⟩ := exists_toList_name word
  rw [spelled, List.all_eq_true, List.forall_mem_cons]
  have named : Reader.isNameCharacter first = true := by simp [Reader.isNameCharacter, starts]
  exact ⟨isNeutral_of_isNameCharacter named, fun character member =>
    isNeutral_of_isNameCharacter (all character member)⟩

private theorem IsNumber.neutral {spelling : List Char} (number : IsNumber spelling) :
    spelling.all isNeutral = true :=
  List.all_eq_true.mpr fun character member =>
    isNeutral_of_isNumeralCharacter (number.numeric character member)

theorem takes_opening : Takes [] [')'] "(" := ⟨by decide, fun _ => rfl⟩

theorem takes_closing : Takes [')'] [] ")" := ⟨by decide, fun _ => rfl⟩

theorem contained_comma : Contained ", " := contained_of_neutral (by decide)

theorem contained_separated {texts : List String} (each : ∀ text ∈ texts, Contained text) :
    Contained (separated texts) := by
  induction texts with
  | nil => exact ⟨by decide, fun _ => rfl⟩
  | cons text rest ih =>
      obtain ⟨first, later⟩ := List.forall_mem_cons.mp each
      rw [separated_cons]
      split
      · exact first
      · exact (first.append contained_comma).append (ih later)

private theorem contained_expressions {items : List Expr}
    (each : ∀ item ∈ items, Contained (expression item)) :
    Contained (separated (expressions items)) := by
  apply contained_separated
  rw [expressions_eq, List.forall_mem_map]
  exact each

private theorem fits_of_direct {allowed : String → Prop} {item : Expr}
    (direct : item.Direct allowed) : Fits (expression item) := by
  induction direct with
  | integer nonnegative => exact fits_of_neutral (isNumber_integer nonnegative).neutral
  | real finite => exact fits_of_neutral (isNumber_real finite).neutral
  | @text value position =>
      refine ⟨contained_literal value, ?_⟩
      rw [expression, literal, String.toList_ofList, ← List.cons_append, List.getLast?_concat]
      simp
  | @boolean value position =>
      have both : Fits "True" ∧ Fits "False" :=
        ⟨fits_of_neutral (by decide), fits_of_neutral (by decide)⟩
      cases value
      · exact both.2
      · exact both.1
  | name word _ => exact fits_of_neutral (neutral_name word)
  | @binary operator left right position _ _ leftIH rightIH =>
      have spelling : Contained operator.spelling :=
        contained_of_neutral (by cases operator <;> decide)
      have blank : Contained " " := contained_of_neutral (by decide)
      have inside := (((takes_opening.append (leftIH.contained.within _)).append
        (blank.within _)).append (spelling.within _)).append (blank.within _)
      exact fits_append (inside.append (rightIH.contained.within _)) takes_closing rfl (by decide)
  | @record fields position _ fieldsIH =>
      have opened : Takes [] ['\x7d'] "\x7b" := ⟨by decide, fun _ => rfl⟩
      have inside : Contained (separated (entries fields)) := by
        apply contained_separated
        rw [entries_eq, List.forall_mem_map]
        intro field member
        exact ((contained_literal field.1).append ⟨by decide, fun _ => rfl⟩).append
          (fieldsIH field member).contained
      exact fits_append (opened.append (inside.within _)) ⟨by decide, fun _ => rfl⟩ rfl (by decide)
  | @access object key position _ word objectIH =>
      have text : expression (.access object key position) =
          expression object ++ ("['" ++ key ++ "']") := by
        simp only [expression, String.append_assoc]
      have last : ("['" ++ key ++ "']").toList.getLast? = some ']' := by
        rw [String.toList_append, List.getLast?_append]
        rfl
      rw [text]
      exact fits_append objectIH.contained (contained_subscript word) last (by decide)
  | list _ itemsIH =>
      have opened : Takes [] [']'] "[" := ⟨by decide, fun _ => rfl⟩
      have inside := contained_expressions fun item member => (itemsIH item member).contained
      exact fits_append (opened.append (inside.within _)) ⟨by decide, fun _ => rfl⟩ rfl (by decide)
  | call word _ argumentsIH =>
      have inside := contained_expressions fun argument member =>
        (argumentsIH argument member).contained
      have called := (contained_of_neutral (neutral_name word)).append takes_opening
      exact fits_append (called.append (inside.within _)) takes_closing rfl (by decide)

theorem fits_expression {item : Expr} (made : item.MadeOf Token.Spelled) :
    Fits (expression item) := by
  rw [← expression_desugar]
  exact fits_of_direct made.direct

end WindowScript.Python
