import Mathlib.Data.List.TakeWhile
import WindowScript.Proofs.Number.Texts
import WindowScript.Proofs.Program.Vocabulary
import WindowScript.Proofs.Value.Equality
import WindowScript.Value.Display

/-!
# What a shown value is

The first character of a value that is shown in a list or a record tells its kind, and its
text ends where the value does: texts at the quote that is not escaped, integers in front of the
first character that is no digit, lists and records at their own closing delimiter. So the value
can be told from its text, whatever characters the texts in it hold and whatever stands behind it.
-/

set_option autoImplicit false

namespace WindowScript

/-- A value of nothing but null, integers, booleans, texts, lists, and records whose names are
words. -/
inductive Value.Legible : Value → Prop where
  | absent : Legible .absent
  | integer {value : Integer} : Legible (.integer value)
  | boolean {value : Bool} : Legible (.boolean value)
  | text {value : String} : Legible (.text value)
  | list {items : List Value} : (∀ item ∈ items, Legible item) → Legible (.list items)
  | record {entries : List (String × Value)} :
      (∀ entry ∈ entries, IsWord entry.1.toList) → (∀ entry ∈ entries, Legible entry.2) →
      Legible (.record entries)

/-!
## Runs of characters
-/

/-- Some characters do not begin with one of a class. -/
def Leaves (among : Char → Bool) (characters : List Char) : Prop :=
  ∀ first ∈ characters.head?, among first = false

@[simp] theorem leaves_cons {among : Char → Bool} {first : Char} {rest : List Char} :
    Leaves among (first :: rest) ↔ among first = false := by
  simp [Leaves]

private theorem takeWhile_run {among : Char → Bool} {run rest : List Char}
    (inside : ∀ character ∈ run, among character = true) (leaves : Leaves among rest) :
    (run ++ rest).takeWhile among = run := by
  have stops : rest.takeWhile among = [] := by
    cases rest with
    | nil => rfl
    | cons first rest => simp [leaves_cons.mp leaves]
  rw [List.takeWhile_append_of_pos inside, stops, List.append_nil]

/-- Where runs of one class come to an end is told by what stands behind them. -/
theorem run_unique {among : Char → Bool} {run other rest behind : List Char}
    (inside : ∀ character ∈ run, among character = true) (leaves : Leaves among rest)
    (otherInside : ∀ character ∈ other, among character = true) (otherLeaves : Leaves among behind)
    (same : run ++ rest = other ++ behind) : run = other ∧ rest = behind := by
  have runs : run = other := by
    rw [← takeWhile_run inside leaves, same, takeWhile_run otherInside otherLeaves]
  subst runs
  exact ⟨rfl, List.append_cancel_left same⟩

/-!
## Integers and texts
-/

private theorem Integer.toList_text_of_neg {value : Integer} (negative : value.toInt < 0) :
    (text value).toList = '-' :: Nat.toDigits 10 value.toInt.natAbs := by
  unfold text
  rw [String.toList_ofList, if_pos negative]

private theorem Integer.natAbs_unique {left right : Nat} {rest behind : List Char}
    (leaves : Leaves Char.isDigit rest) (otherLeaves : Leaves Char.isDigit behind)
    (same : Nat.toDigits 10 left ++ rest = Nat.toDigits 10 right ++ behind) :
    left = right ∧ rest = behind := by
  obtain ⟨digits, rests⟩ := run_unique (Real.digits_toDigits left) leaves
    (Real.digits_toDigits right) otherLeaves same
  refine ⟨?_, rests⟩
  rw [← Real.value_toDigits left, digits, Real.value_toDigits]

/-- No digit is a sign. -/
theorem Integer.toDigits_append_ne (number : Nat) (rest behind : List Char) :
    Nat.toDigits 10 number ++ rest ≠ '-' :: behind := by
  intro same
  have nonempty : Nat.toDigits 10 number ≠ [] := Nat.toDigits_ne_nil
  obtain ⟨first, digits, spelled⟩ := List.exists_cons_of_ne_nil nonempty
  rw [spelled, List.cons_append, List.cons.injEq] at same
  have digit := Real.digits_toDigits number first (by simp [spelled])
  rw [same.1] at digit
  cases digit

private theorem Integer.text_unique {left right : Integer} {rest behind : List Char}
    (leaves : Leaves Char.isDigit rest) (otherLeaves : Leaves Char.isDigit behind)
    (same : (text left).toList ++ rest = (text right).toList ++ behind) :
    left = right ∧ rest = behind := by
  rcases lt_or_ge left.toInt 0 with negative | positive <;>
    rcases lt_or_ge right.toInt 0 with otherNegative | otherPositive
  · rw [toList_text_of_neg negative, toList_text_of_neg otherNegative] at same
    obtain ⟨sizes, rests⟩ := natAbs_unique leaves otherLeaves (List.cons_injective same)
    exact ⟨Int64.toInt_inj.mp (by omega), rests⟩
  · rw [toList_text_of_neg negative, toList_text otherPositive] at same
    exact absurd same.symm (toDigits_append_ne _ _ _)
  · rw [toList_text positive, toList_text_of_neg otherNegative] at same
    exact absurd same (toDigits_append_ne _ _ _)
  · rw [toList_text positive, toList_text otherPositive] at same
    obtain ⟨sizes, rests⟩ := natAbs_unique leaves otherLeaves same
    exact ⟨Int64.toInt_inj.mp (by omega), rests⟩

namespace Value

/-- How a character is shown between quotes when both of the escapes are done. -/
def showCharacter (character : Char) : List Char :=
  if character = '\x5c' ∨ character = '\x27' then ['\x5c', character] else [character]

/-- The quotes are escaped behind the backslashes, and the backslashes that escape other
backslashes stay as they are. -/
theorem escapeEach_escapeEach (characters : List Char) :
    escapeEach '\x27' (escapeEach '\x5c' characters) = characters.flatMap showCharacter := by
  unfold escapeEach
  rw [List.flatMap_assoc]
  congr 1
  funext character
  unfold showCharacter
  by_cases backslash : character = '\x5c'
  · simp [backslash]
  · by_cases quote : character = '\x27' <;> simp [backslash, quote]

/-- A character stands for itself unless it could end the text or hide what ends it. -/
theorem showCharacter_cases (character : Char) :
    (∃ mark, mark = character ∧ showCharacter character = ['\x5c', mark]) ∨
      (character ≠ '\x5c' ∧ character ≠ '\x27' ∧ showCharacter character = [character]) := by
  unfold showCharacter
  split
  · exact .inl ⟨character, rfl, rfl⟩
  · next other =>
      rw [not_or] at other
      exact .inr ⟨other.1, other.2, rfl⟩

/-- A quote that is not escaped is the end of the text. -/
theorem flatMap_showCharacter_unique {shown other rest behind : List Char}
    (same : shown.flatMap showCharacter ++ '\x27' :: rest =
      other.flatMap showCharacter ++ '\x27' :: behind) : shown = other ∧ rest = behind := by
  have ends {first : Char} {tail rest behind : List Char} :
      '\x27' :: rest ≠ (first :: tail).flatMap showCharacter ++ '\x27' :: behind := by
    intro same
    rw [List.flatMap_cons] at same
    rcases showCharacter_cases first with ⟨mark, -, written⟩ | ⟨-, noQuote, written⟩
    · rw [written] at same
      cases same
    · rw [written, List.cons_append, List.cons_append, List.cons.injEq] at same
      exact noQuote same.1.symm
  induction shown generalizing other with
  | nil =>
      cases other with
      | nil => exact ⟨rfl, (List.cons.inj same).2⟩
      | cons first tail => exact absurd same ends
  | cons character shown ih =>
      cases other with
      | nil => exact absurd same.symm ends
      | cons first tail =>
          simp only [List.flatMap_cons, List.append_assoc] at same
          rcases showCharacter_cases character with ⟨mark, rfl, written⟩ | ⟨plain, -, written⟩ <;>
            rcases showCharacter_cases first with ⟨second, rfl, spelled⟩ | ⟨bare, -, spelled⟩
          all_goals
            rw [written, spelled] at same
            simp only [List.cons_append, List.nil_append, List.cons.injEq] at same
          · obtain ⟨later, rests⟩ := ih same.2.2
            exact ⟨by rw [same.2.1, later], rests⟩
          · exact absurd same.1.symm bare
          · exact absurd same.1 plain
          · obtain ⟨later, rests⟩ := ih same.2
            exact ⟨by rw [same.1, later], rests⟩

/-!
## Lists and records
-/

/-- The characters of a value that stands in a list or a record. -/
def shown (value : Value) : List Char := (display true value).toList

/-- The items of a list behind the first one. -/
def laterItems (items : List Value) : List Char :=
  items.flatMap fun item => ',' :: ' ' :: shown item

def shownEntries (entries : List (String × Value)) : List Char :=
  entries.flatMap fun entry => entry.1.toList ++ ' ' :: '=' :: ' ' :: shown entry.2 ++ [';', ' ']

private theorem shownEntries_cons (entry : String × Value) (rest : List (String × Value)) :
    shownEntries (entry :: rest) =
      entry.1.toList ++ ' ' :: '=' :: ' ' :: shown entry.2 ++ [';', ' '] ++ shownEntries rest :=
  List.flatMap_cons

private theorem toList_displayItems (before : String) (first : Value) (rest : List Value) :
    (displayItems before (first :: rest)).toList =
      before.toList ++ shown first ++ laterItems rest := by
  induction rest generalizing before first with
  | nil => simp [displayItems, shown, laterItems]
  | cons next rest ih =>
      rw [displayItems, ih]
      simp [shown, laterItems]

private theorem toList_displayEntries (before : String) (entries : List (String × Value)) :
    (displayEntries before entries).toList = before.toList ++ shownEntries entries := by
  induction entries generalizing before with
  | nil => simp [displayEntries, shownEntries]
  | cons entry rest ih =>
      obtain ⟨name, value⟩ := entry
      rw [displayEntries, ih]
      simp [shown, shownEntries]

private theorem shown_text (value : String) :
    shown (.text value) = '\x27' :: (value.toList.flatMap showCharacter ++ ['\x27']) := by
  simp [shown, display, showText, escapeEach_escapeEach]

private theorem shown_nil : shown (.list []) = ['[', ']'] := by
  simp [shown, display, displayItems]

private theorem shown_list (first : Value) (rest : List Value) :
    shown (.list (first :: rest)) = '[' :: (shown first ++ laterItems rest ++ [']']) := by
  simp [shown, display, toList_displayItems]

private theorem shown_empty : shown (.record []) = ['\x7b', '\x7d'] := by
  simp [shown, display]

private theorem shown_record (first : String × Value) (rest : List (String × Value)) :
    shown (.record (first :: rest)) =
      '\x7b' :: ' ' :: (shownEntries (first :: rest) ++ ['\x7d']) := by
  simp [shown, display, toList_displayEntries]

/-!
## Kinds
-/

/-- The kind that a first character tells. -/
def kindOf? (first : Char) : Option Kind :=
  if first = 'n' then some .null
  else if first = 't' ∨ first = 'f' then some .bool
  else if first = '\x27' then some .str
  else if first = '[' then some .list
  else if first = '\x7b' then some .record
  else if first = '-' ∨ first.isDigit then some .int
  else none

private theorem kindOf?_of_isDigit {first : Char} (digit : first.isDigit = true) :
    kindOf? first = some .int := by
  have other (mark : Char) (none : mark.isDigit = false) : first ≠ mark := by
    rintro rfl
    rw [digit] at none
    cases none
  simp [kindOf?, digit, other 'n' rfl, other 't' rfl, other 'f' rfl,
    other '\x27' rfl, other '[' rfl, other '\x7b' rfl]

private theorem Legible.exists_first {value : Value} (legible : value.Legible) :
    ∃ first tail, shown value = first :: tail ∧ kindOf? first = some value.kind := by
  cases legible with
  | absent => exact ⟨'n', _, rfl, rfl⟩
  | @integer value =>
      rcases lt_or_ge value.toInt 0 with negative | positive
      · exact ⟨'-', _, Integer.toList_text_of_neg negative, rfl⟩
      · have nonempty : Nat.toDigits 10 value.toInt.natAbs ≠ [] := Nat.toDigits_ne_nil
        obtain ⟨first, tail, spelled⟩ := List.exists_cons_of_ne_nil nonempty
        have digit := Real.digits_toDigits value.toInt.natAbs first (by simp [spelled])
        exact ⟨first, tail, (Integer.toList_text positive).trans spelled, kindOf?_of_isDigit digit⟩
  | @boolean value => cases value <;> exact ⟨_, _, rfl, rfl⟩
  | text => exact ⟨'\x27', _, shown_text _, rfl⟩
  | @list items =>
      cases items with
      | nil => exact ⟨'[', _, shown_nil, rfl⟩
      | cons first rest => exact ⟨'[', _, shown_list first rest, rfl⟩
  | @record entries =>
      cases entries with
      | nil => exact ⟨'\x7b', _, shown_empty, rfl⟩
      | cons first rest => exact ⟨'\x7b', _, shown_record first rest, rfl⟩

private theorem Legible.kind_eq {value other : Value} (legible : value.Legible)
    (otherLegible : other.Legible) {rest behind : List Char}
    (same : shown value ++ rest = shown other ++ behind) : value.kind = other.kind := by
  obtain ⟨first, tail, written, tells⟩ := legible.exists_first
  obtain ⟨second, others, spelled, otherTells⟩ := otherLegible.exists_first
  rw [written, spelled, List.cons_append, List.cons_append, List.cons.injEq] at same
  rw [same.1, otherTells] at tells
  exact (Option.some.inj tells).symm

/-- No value begins as a list ends. -/
theorem Legible.shown_ne {value : Value} (legible : value.Legible) (rest behind : List Char) :
    ']' :: rest ≠ shown value ++ behind := by
  obtain ⟨first, tail, written, tells⟩ := legible.exists_first
  intro same
  rw [written, List.cons_append, List.cons.injEq] at same
  rw [← same.1] at tells
  cases tells

/-!
## Values
-/

/-- A value can be told from its text in front of anything that is no digit. -/
def Told (value : Value) : Prop :=
  ∀ ⦃other⦄, other.Legible → ∀ ⦃rest behind⦄, Leaves Char.isDigit rest →
    Leaves Char.isDigit behind → shown value ++ rest = shown other ++ behind →
      value = other ∧ rest = behind

private theorem leaves_laterItems (items : List Value) (rest : List Char) :
    Leaves Char.isDigit (laterItems items ++ ']' :: rest) := by
  cases items <;> exact leaves_cons.mpr rfl

private theorem laterItems_unique {items others : List Value} (told : ∀ item ∈ items, Told item)
    (legible : ∀ item ∈ others, item.Legible) {rest behind : List Char}
    (same : laterItems items ++ ']' :: rest = laterItems others ++ ']' :: behind) :
    items = others ∧ rest = behind := by
  induction items generalizing others with
  | nil =>
      cases others with
      | nil => exact ⟨rfl, (List.cons.inj same).2⟩
      | cons other others => cases same
  | cons item items ih =>
      cases others with
      | nil => cases same
      | cons other others =>
          obtain ⟨itemTold, itemsTold⟩ := List.forall_mem_cons.mp told
          obtain ⟨otherLegible, othersLegible⟩ := List.forall_mem_cons.mp legible
          simp only [laterItems, List.flatMap_cons, List.cons_append, List.append_assoc,
            List.cons.injEq, true_and] at same
          obtain ⟨here, later⟩ := itemTold otherLegible (leaves_laterItems items rest)
            (leaves_laterItems others behind) same
          obtain ⟨tails, rests⟩ := ih itemsTold othersLegible later
          exact ⟨by rw [here, tails], rests⟩

private theorem told_list {items : List Value} (legible : ∀ item ∈ items, item.Legible)
    (told : ∀ item ∈ items, Told item) : Told (.list items) := by
  intro other otherLegible rest behind _ _ same
  have kinds := (Legible.list legible).kind_eq otherLegible same
  cases otherLegible with
  | @list others othersLegible =>
      cases items with
      | nil =>
          cases others with
          | nil =>
              rw [shown_nil] at same
              exact ⟨rfl, List.append_cancel_left same⟩
          | cons other others =>
              rw [shown_nil, shown_list] at same
              simp only [List.cons_append, List.append_assoc, List.cons.injEq, true_and] at same
              exact absurd same ((othersLegible _ (.head _)).shown_ne _ _)
      | cons item items =>
          cases others with
          | nil =>
              rw [shown_nil, shown_list] at same
              simp only [List.cons_append, List.append_assoc, List.cons.injEq, true_and] at same
              exact absurd same.symm ((legible _ (.head _)).shown_ne _ _)
          | cons other others =>
              obtain ⟨itemTold, itemsTold⟩ := List.forall_mem_cons.mp told
              obtain ⟨otherLegible, othersLegible⟩ := List.forall_mem_cons.mp othersLegible
              simp only [shown_list, List.cons_append, List.append_assoc, List.cons.injEq,
                true_and, List.nil_append] at same
              obtain ⟨here, later⟩ := itemTold otherLegible (leaves_laterItems items rest)
                (leaves_laterItems others behind) same
              obtain ⟨tails, rests⟩ := laterItems_unique itemsTold othersLegible later
              exact ⟨by rw [here, tails], rests⟩
  | _ => cases kinds

/-- A blank stands behind the name of an entry, and none in it. -/
theorem word_unique {word other : String} (isWord : IsWord word.toList)
    (otherIsWord : IsWord other.toList) {rest behind : List Char}
    (same : word.toList ++ ' ' :: rest = other.toList ++ ' ' :: behind) :
    word = other ∧ rest = behind := by
  have inside {name : String} (isWord : IsWord name.toList) :
      ∀ character ∈ name.toList, Lexer.continuesWord character = true := by
    obtain ⟨first, tail, spelled, starts, goesOn⟩ := isWord
    rw [spelled, List.forall_mem_cons]
    exact ⟨by simp [Lexer.continuesWord, starts], goesOn⟩
  obtain ⟨words, rests⟩ := run_unique (inside isWord) (leaves_cons.mpr rfl) (inside otherIsWord)
    (leaves_cons.mpr rfl) same
  exact ⟨String.toList_inj.mp words, (List.cons.inj rests).2⟩

/-- No entry begins as a record ends. -/
theorem shownEntries_ne {entry : String × Value} (isWord : IsWord entry.1.toList)
    (entries : List (String × Value)) (rest behind : List Char) :
    '\x7d' :: rest ≠ shownEntries (entry :: entries) ++ behind := by
  obtain ⟨first, tail, spelled, starts, -⟩ := isWord
  intro same
  rw [shownEntries, List.flatMap_cons, spelled] at same
  simp only [List.cons_append, List.cons.injEq] at same
  rw [← same.1] at starts
  cases starts

private theorem shownEntries_unique {entries others : List (String × Value)}
    (words : ∀ entry ∈ entries, IsWord entry.1.toList) (told : ∀ entry ∈ entries, Told entry.2)
    (otherWords : ∀ entry ∈ others, IsWord entry.1.toList)
    (legible : ∀ entry ∈ others, entry.2.Legible)
    {rest behind : List Char}
    (same : shownEntries entries ++ '\x7d' :: rest = shownEntries others ++ '\x7d' :: behind) :
    entries = others ∧ rest = behind := by
  induction entries generalizing others with
  | nil =>
      cases others with
      | nil => exact ⟨rfl, (List.cons.inj same).2⟩
      | cons other others => exact absurd same (shownEntries_ne (otherWords _ (.head _)) _ _ _)
  | cons entry entries ih =>
      cases others with
      | nil => exact absurd same.symm (shownEntries_ne (words _ (.head _)) _ _ _)
      | cons other others =>
          obtain ⟨name, value⟩ := entry
          obtain ⟨otherName, otherValue⟩ := other
          obtain ⟨isWord, laterWords⟩ := List.forall_mem_cons.mp words
          obtain ⟨valueTold, laterTold⟩ := List.forall_mem_cons.mp told
          obtain ⟨otherIsWord, laterOtherWords⟩ := List.forall_mem_cons.mp otherWords
          obtain ⟨otherLegible, laterLegible⟩ := List.forall_mem_cons.mp legible
          simp only [shownEntries_cons, List.cons_append, List.append_assoc, List.nil_append]
            at same
          obtain ⟨rfl, values⟩ := word_unique isWord otherIsWord same
          simp only [List.cons.injEq, true_and] at values
          obtain ⟨rfl, later⟩ := valueTold otherLegible (leaves_cons.mpr rfl) (leaves_cons.mpr rfl)
            values
          simp only [List.cons.injEq, true_and] at later
          obtain ⟨rfl, rests⟩ := ih laterWords laterTold laterOtherWords laterLegible later
          exact ⟨rfl, rests⟩

private theorem told_record {entries : List (String × Value)}
    (words : ∀ entry ∈ entries, IsWord entry.1.toList)
    (legible : ∀ entry ∈ entries, entry.2.Legible)
    (told : ∀ entry ∈ entries, Told entry.2) : Told (.record entries) := by
  intro other otherLegible rest behind _ _ same
  have kinds := (Legible.record words legible).kind_eq otherLegible same
  cases otherLegible with
  | @record others otherWords othersLegible =>
      cases entries with
      | nil =>
          cases others with
          | nil =>
              rw [shown_empty] at same
              exact ⟨rfl, List.append_cancel_left same⟩
          | cons other others =>
              rw [shown_empty, shown_record] at same
              cases same
      | cons entry entries =>
          cases others with
          | nil =>
              rw [shown_empty, shown_record] at same
              cases same
          | cons other others =>
              simp only [shown_record, List.cons_append, List.append_assoc, List.cons.injEq,
                true_and, List.nil_append] at same
              obtain ⟨all, rests⟩ := shownEntries_unique words told otherWords othersLegible same
              exact ⟨by rw [all], rests⟩
  | _ => cases kinds

private theorem Legible.told {value : Value} (legible : value.Legible) : Told value := by
  induction value using Value.structural with
  | list items ih =>
      cases legible with
      | list each => exact told_list each fun item member => ih item member (each item member)
  | record entries ih =>
      cases legible with
      | record words each =>
          exact told_record words each fun entry member => ih entry member (each entry member)
  | absent =>
      intro other otherLegible rest behind _ _ same
      have kinds := legible.kind_eq otherLegible same
      cases otherLegible with
      | absent => exact ⟨rfl, List.append_cancel_left same⟩
      | _ => cases kinds
  | integer value =>
      intro other otherLegible rest behind leaves otherLeaves same
      have kinds := legible.kind_eq otherLegible same
      cases otherLegible with
      | integer =>
          obtain ⟨rfl, rests⟩ := Integer.text_unique leaves otherLeaves same
          exact ⟨rfl, rests⟩
      | _ => cases kinds
  | boolean value =>
      intro other otherLegible rest behind _ _ same
      have kinds := legible.kind_eq otherLegible same
      cases otherLegible with
      | @boolean held =>
          cases value <;> cases held
          · exact ⟨rfl, List.append_cancel_left same⟩
          · cases same
          · cases same
          · exact ⟨rfl, List.append_cancel_left same⟩
      | _ => cases kinds
  | text value =>
      intro other otherLegible rest behind _ _ same
      have kinds := legible.kind_eq otherLegible same
      cases otherLegible with
      | text =>
          simp only [shown_text, List.cons_append, List.append_assoc, List.cons.injEq, true_and,
            List.nil_append] at same
          obtain ⟨characters, rests⟩ := flatMap_showCharacter_unique same
          exact ⟨by rw [String.toList_inj.mp characters], rests⟩
      | _ => cases kinds
  | real | function | builtin | gui => cases legible

end Value

open Value in
/-- Two values are the same as soon as lists of them alone are shown alike. No text in them can
pass for further items, entries or closing delimiters. -/
theorem display_singleton_eq_iff {left right : Value} (legible : left.Legible)
    (otherLegible : right.Legible) :
    display false (.list [left]) = display false (.list [right]) ↔ left = right := by
  refine ⟨fun same => ?_, fun same => by rw [same]⟩
  have characters : shown (.list [left]) = shown (.list [right]) := congrArg String.toList same
  simp only [shown_list, laterItems, List.flatMap_nil, List.append_nil, List.cons.injEq,
    true_and] at characters
  exact (legible.told otherLegible (leaves_cons.mpr rfl) (leaves_cons.mpr rfl) characters).1

/-- `['a', 'b', { k-1 = -7; }]` as the only item of a list. -/
def threeItems : Value :=
  .list [.text "a", .text "b", .record [("k-1", .integer (-7))]]

/-- A text that spells the first two of these items, in front of the third. -/
def imitatingText : Value :=
  .list [.text "a\x27, \x27b", .record [("k-1", .integer (-7))]]

open Value in
theorem display_singleton_eq_iff_imitatingText :
    threeItems.Legible ∧ imitatingText.Legible ∧
      (display false (.list [threeItems]) = display false (.list [imitatingText]) ↔
        threeItems = imitatingText) ∧
      display false (.list [threeItems]) ≠ display false (.list [imitatingText]) := by
  have continues : ∀ character ∈ ['-', '1'], Lexer.continuesWord character = true :=
    List.forall_mem_cons.mpr ⟨rfl, List.forall_mem_singleton.mpr rfl⟩
  have word : IsWord "k-1".toList := ⟨'k', ['-', '1'], rfl, rfl, continues⟩
  have record : (Value.record [("k-1", .integer (-7))]).Legible :=
    .record (by simpa using word) (by simpa using .integer)
  have legible : threeItems.Legible := by
    refine .list ?_
    simp only [List.forall_mem_cons]
    exact ⟨.text, .text, record, by simp⟩
  have otherLegible : imitatingText.Legible := by
    refine .list ?_
    simp only [List.forall_mem_cons]
    exact ⟨.text, record, by simp⟩
  have told := display_singleton_eq_iff legible otherLegible
  exact ⟨legible, otherLegible, told, mt told.mp (by simp [threeItems, imitatingText])⟩

end WindowScript
