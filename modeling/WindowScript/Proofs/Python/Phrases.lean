import WindowScript.Program.Expr
import WindowScript.Proofs.Number.Texts
import WindowScript.Python.Text

/-!
# Reading Python expressions

A reader of the part of Python in which expressions are written: numbers, names, texts
between quotes, operations between brackets, displays of lists and dictionaries, subscripts
and calls. Blanks may stand in front of any part of a phrase. What the reader does not know
it does not read.
-/

set_option autoImplicit false

namespace WindowScript.Python

/-- A Python expression. Numbers and names are kept as they are spelled, texts as what they
stand for. -/
inductive Phrase where
  | number (spelling : String)
  | name (spelling : String)
  | text (value : String)
  | operation (operator : Operator) (left right : Phrase)
  | dictionary (entries : List (String × Phrase))
  | subscript (object : Phrase) (key : String)
  | list (items : List Phrase)
  | call (callee : String) (arguments : List Phrase)

/-- A reader takes its result off the front of some characters. -/
abbrev Reader (α : Type) := List Char → Option (α × List Char)

namespace Reader

def isNameCharacter (character : Char) : Bool := startsIdentifier character || character.isDigit

def blanks (input : List Char) : List Char := input.dropWhile (· = ' ')

/-- What stands behind a mark, if it comes next. -/
def mark (expected : Char) (input : List Char) : Option (List Char) :=
  match blanks input with
  | [] => none
  | first :: rest => if first = expected then some rest else none

def hexadecimal? (character : Char) : Option Nat :=
  if character.isDigit then some (character.toNat - '0'.toNat)
  else if 'a' ≤ character ∧ character ≤ 'f' then some (character.toNat - 'a'.toNat + 10)
  else if 'A' ≤ character ∧ character ≤ 'F' then some (character.toNat - 'A'.toNat + 10)
  else none

/-- The character with a code of four hexadecimal digits. Halves of a pair are none. -/
def codePoint? (first second third fourth : Char) : Option Char := do
  let code := ((← hexadecimal? first) * 16 + (← hexadecimal? second)) * 16 +
    (← hexadecimal? third)
  let code := code * 16 + (← hexadecimal? fourth)
  if code.isValidChar then some (Char.ofNat code) else none

/-- The character that a backslash and another character stand for. -/
def escaped? : Char → Option Char
  | '\x5c' => some '\x5c'
  | '\x22' => some '\x22'
  | '\x27' => some '\x27'
  | 'n' => some '\n'
  | 'r' => some '\r'
  | 't' => some '\t'
  | _ => none

/-- Reads a text behind its opening quote, up to the closing one. No line ends in it. -/
def quoted (quote : Char) : Reader (List Char)
  | [] => none
  | '\x5c' :: 'u' :: first :: second :: third :: fourth :: rest => do
      let character ← codePoint? first second third fourth
      let (value, behind) ← quoted quote rest
      some (character :: value, behind)
  | '\x5c' :: next :: rest => do
      let character ← escaped? next
      let (value, behind) ← quoted quote rest
      some (character :: value, behind)
  | character :: rest =>
      if character = quote then some ([], rest)
      else if character = '\n' ∨ character = '\r' ∨ character = '\x5c' then none
      else do
        let (value, behind) ← quoted quote rest
        some (character :: value, behind)

/-- Reads a text with quotes of either kind around it. -/
def text : Reader String := fun input =>
  match blanks input with
  | first :: rest =>
      if first = '\x22' ∨ first = '\x27' then
        (quoted first rest).map fun (value, behind) => (String.ofList value, behind)
      else none
  | [] => none

def operator : Reader Operator := fun input =>
  match blanks input with
  | '+' :: rest => some (.add, rest)
  | '-' :: rest => some (.sub, rest)
  | '*' :: rest => some (.mul, rest)
  | '/' :: rest => some (.div, rest)
  | '=' :: '=' :: rest => some (.equal, rest)
  | _ => none

/-- Reads items up to a closing mark, with commas between them and maybe one behind the last.
Each round reads a character, so the number of characters bounds the number of rounds. -/
def items {α : Type} (one : Reader α) (closing : Char) : Nat → Reader (List α)
  | 0, _ => none
  | rounds + 1, input =>
      match mark closing input with
      | some rest => some ([], rest)
      | none => do
          let (first, behind) ← one input
          match mark ',' behind with
          | some rest => do
              let (others, final) ← items one closing rounds rest
              some (first :: others, final)
          | none => do
              let rest ← mark closing behind
              some ([first], rest)

/-- Reads an entry of a dictionary, the key of which is a text. -/
def entry (phrase : Reader Phrase) : Reader (String × Phrase) := fun input => do
  let (key, rest) ← text input
  let rest ← mark ':' rest
  let (value, rest) ← phrase rest
  some ((key, value), rest)

/-- Reads what may be subscripted. A name with a bracket right behind it is called. -/
def primary (rounds : Nat) (phrase : Reader Phrase) : Reader Phrase := fun input =>
  match blanks input with
  | [] => none
  | '(' :: rest => do
      let (left, rest) ← phrase rest
      let (operator, rest) ← operator rest
      let (right, rest) ← phrase rest
      let rest ← mark ')' rest
      some (.operation operator left right, rest)
  | '[' :: rest => do
      let (found, rest) ← items phrase ']' rounds rest
      some (.list found, rest)
  | '\x7b' :: rest => do
      let (found, rest) ← items (entry phrase) '\x7d' rounds rest
      some (.dictionary found, rest)
  | first :: rest =>
      if startsIdentifier first then
        let spelling := String.ofList (first :: rest.takeWhile isNameCharacter)
        match rest.dropWhile isNameCharacter with
        | '(' :: behind => do
            let (found, rest) ← items phrase ')' rounds behind
            some (.call spelling found, rest)
        | behind => some (.name spelling, behind)
      else if first.isDigit ∨ first = '-' then
        some (.number (String.ofList (first :: rest.takeWhile Real.isNumeralCharacter)),
          rest.dropWhile Real.isNumeralCharacter)
      else do
        let (value, rest) ← text (first :: rest)
        some (.text value, rest)

/-- Reads the subscripts right behind a phrase. -/
def subscripts : Nat → Phrase → Reader Phrase
  | 0, _, _ => none
  | rounds + 1, object, '[' :: rest => do
      let (key, rest) ← text rest
      let rest ← mark ']' rest
      subscripts rounds (.subscript object key) rest
  | _ + 1, object, rest => some (object, rest)

/-- Reads a phrase in which phrases nest at most `depth` deep. -/
def phrase (rounds : Nat) : Nat → Reader Phrase
  | 0, _ => none
  | depth + 1, input => do
      let (found, rest) ← primary rounds (phrase rounds depth) input
      subscripts rounds found rest

end Reader

/-- Reads a text as one phrase. The length of the text bounds rounds and nesting. -/
def Phrase.read? (source : String) : Option Phrase :=
  let bound := source.toList.length + 1
  match Reader.phrase bound bound source.toList with
  | some (found, []) => some found
  | _ => none

namespace Reader

/-!
## Marks and texts
-/

theorem blanks_of_ne {first : Char} (visible : first ≠ ' ') (rest : List Char) :
    blanks (first :: rest) = first :: rest := by
  simp [blanks, visible]

@[simp] theorem mark_blank (expected : Char) (input : List Char) :
    mark expected (' ' :: input) = mark expected input := rfl

private theorem mark_self {expected : Char} (visible : expected ≠ ' ') (rest : List Char) :
    mark expected (expected :: rest) = some rest := by
  simp [mark, blanks_of_ne visible]

private theorem mark_of_ne {first expected : Char} (visible : first ≠ ' ')
    (other : first ≠ expected) (rest : List Char) : mark expected (first :: rest) = none := by
  simp [mark, blanks_of_ne visible, other]

private theorem hexadecimal?_digitChar :
    ∀ digit < 16, hexadecimal? (Nat.digitChar digit) = some digit := by
  decide

theorem codePoint?_fourDigits (character : Char) (small : character.toNat < 0x10000) :
    codePoint? (Nat.digitChar (character.toNat / 4096 % 16))
      (Nat.digitChar (character.toNat / 256 % 16)) (Nat.digitChar (character.toNat / 16 % 16))
      (Nat.digitChar (character.toNat % 16)) = some character := by
  have digit (place : Nat) : hexadecimal? (Nat.digitChar (place % 16)) = some (place % 16) :=
    hexadecimal?_digitChar _ (Nat.mod_lt _ (by decide))
  have code : ((character.toNat / 4096 % 16 * 16 + character.toNat / 256 % 16) * 16 +
      character.toNat / 16 % 16) * 16 + character.toNat % 16 = character.toNat := by omega
  have valid : character.toNat.isValidChar := character.valid
  simp only [codePoint?, digit, Option.bind_eq_bind, Option.bind_some, code, if_pos valid,
    Char.ofNat_toNat]

/-- One more character in front of a text that is read. -/
def onto (character : Char) (found : List Char × List Char) : List Char × List Char :=
  (character :: found.1, found.2)

private theorem quoted_plain {quote character : Char} (other : character ≠ quote)
    (plain : character ≠ '\n' ∧ character ≠ '\r' ∧ character ≠ '\x5c') (rest : List Char) :
    quoted quote (character :: rest) = (quoted quote rest).map (onto character) := by
  obtain ⟨newline, carriage, backslash⟩ := plain
  rw [quoted.eq_def]
  split
  · next whole => cases whole
  · next whole => cases whole; exact absurd rfl backslash
  · next whole => cases whole; exact absurd rfl backslash
  · next whole =>
      cases whole
      simp only [other, newline, carriage, backslash, or_self, if_false]
      cases quoted quote rest <;> rfl

private theorem quoted_escaped {next character : Char} (known : escaped? next = some character)
    (quote : Char) (rest : List Char) :
    quoted quote ('\x5c' :: next :: rest) = (quoted quote rest).map (onto character) := by
  rw [quoted.eq_def]
  split
  · next whole => cases whole
  · next whole => cases whole; cases known
  · next whole =>
      cases whole
      simp only [known, Option.bind_eq_bind, Option.bind_some]
      cases quoted quote rest <;> rfl
  · next whole => cases whole; simp_all

/-- What is written for a character is read as the character. -/
theorem quoted_escape (character : Char) (rest : List Char) :
    quoted '\x22' (escape character ++ rest) =
      (quoted '\x22' rest).map (onto character) := by
  unfold escape
  split
  · next special => rcases special with rfl | rfl <;> exact quoted_escaped rfl _ rest
  split
  · next newline => exact quoted_escaped (newline ▸ rfl) _ rest
  split
  · next carriage => exact quoted_escaped (carriage ▸ rfl) _ rest
  split
  · next tab => exact quoted_escaped (tab ▸ rfl) _ rest
  split
  · next control =>
      have small : character.toNat < 0x10000 := by
        simp only [isControl, Bool.or_eq_true, Bool.and_eq_true, decide_eq_true_eq] at control
        omega
      simp only [fourDigits, List.cons_append, List.nil_append, quoted,
        codePoint?_fourDigits character small, Option.bind_eq_bind, Option.bind_some]
      cases quoted '\x22' rest <;> rfl
  · next special newline carriage tab control =>
      rw [not_or] at special
      exact quoted_plain special.2 ⟨newline, carriage, special.1⟩ rest

private theorem quoted_flatMap_escape (value rest : List Char) :
    quoted '\x22' (value.flatMap escape ++ '\x22' :: rest) = some (value, rest) := by
  induction value with
  | nil => rfl
  | cons character value ih =>
      rw [List.flatMap_cons, List.append_assoc, quoted_escape, ih]
      rfl

private theorem text_literal (value : String) (rest : List Char) :
    text ((literal value).toList ++ rest) = some (value, rest) := by
  rw [literal, String.toList_ofList, List.cons_append, List.append_assoc, List.singleton_append]
  simp only [text, blanks_of_ne (by decide : '\x22' ≠ ' '), true_or, if_true,
    quoted_flatMap_escape, Option.map_some, String.ofList_toList]

/-- A character that stands for itself between quotes of either kind. -/
def Plain (character : Char) : Prop :=
  character ≠ '\x22' ∧ character ≠ '\x27' ∧ character ≠ '\n' ∧ character ≠ '\r' ∧
    character ≠ '\x5c'

private theorem text_plain {key : List Char} (plain : ∀ character ∈ key, Plain character)
    (rest : List Char) :
    text ('\x27' :: (key ++ '\x27' :: rest)) = some (String.ofList key, rest) := by
  have found : quoted '\x27' (key ++ '\x27' :: rest) = some (key, rest) := by
    induction key with
    | nil => rfl
    | cons character key ih =>
        obtain ⟨here, later⟩ := List.forall_mem_cons.mp plain
        rw [List.cons_append, quoted_plain here.2.1 here.2.2, ih later]
        rfl
  simp only [text, blanks_of_ne (by decide : '\x27' ≠ ' '), or_true, if_true, found,
    Option.map_some]

private theorem operator_spelling (written : Operator) (rest : List Char) :
    operator (' ' :: (written.spelling.toList ++ ' ' :: rest)) = some (written, ' ' :: rest) := by
  cases written <;> rfl

/-!
## Sequences
-/

section

variable {α : Type} {one : Reader α} {closing : Char}

private theorem items_blank (skips : ∀ input, one (' ' :: input) = one input) (rounds : Nat)
    (input : List Char) :
    items one closing rounds (' ' :: input) = items one closing rounds input := by
  cases rounds with
  | zero => rfl
  | succ rounds => simp only [items, mark_blank, skips]

/-- Characters that are read as a value wherever a comma or a closing mark follows. -/
structure Item (one : Reader α) (closing : Char) (characters : List Char) (value : α) : Prop where
  begins : ∃ first rest, characters = first :: rest ∧ first ≠ ' ' ∧ first ≠ closing
  reads : ∀ next rest, next = ',' ∨ next = closing →
    one (characters ++ next :: rest) = some (value, next :: rest)

private theorem items_intercalate {β : Type} {spell : β → List Char} {mean : β → α}
    (skips : ∀ input, one (' ' :: input) = one input) (visible : closing ≠ ' ')
    (other : closing ≠ ',') {sources : List β}
    (each : ∀ source ∈ sources, Item one closing (spell source) (mean source)) {rounds : Nat}
    (enough : sources.length < rounds) (rest : List Char) :
    items one closing rounds ([',', ' '].intercalate (sources.map spell) ++ closing :: rest) =
      some (sources.map mean, rest) := by
  induction sources generalizing rounds with
  | nil =>
      obtain ⟨rounds, rfl⟩ := Nat.exists_eq_succ_of_ne_zero (Nat.ne_of_gt enough)
      rw [List.map_nil, List.intercalate_nil, List.nil_append, items, mark_self visible]
      rfl
  | cons source sources ih =>
      obtain ⟨rounds, rfl⟩ := Nat.exists_eq_succ_of_ne_zero (Nat.ne_of_gt (Nat.zero_lt_of_lt enough))
      obtain ⟨item, later⟩ := List.forall_mem_cons.mp each
      obtain ⟨first, more, spelled, shown, opened⟩ := item.begins
      have unclosed (behind : List Char) :
          mark closing (spell source ++ behind) = none := by
        rw [spelled]
        exact mark_of_ne shown opened _
      cases sources with
      | nil =>
          have read := item.reads closing rest (.inr rfl)
          rw [List.map_singleton, List.intercalate_singleton, items, unclosed]
          simp only [read, Option.bind_eq_bind, Option.bind_some, mark_of_ne visible other,
            mark_self visible, List.map_singleton]
      | cons next sources =>
          have others := ih later (Nat.lt_of_succ_lt_succ enough)
          have read := item.reads ','
            (' ' :: ([',', ' '].intercalate ((next :: sources).map spell) ++ closing :: rest))
            (.inl rfl)
          have split : [',', ' '].intercalate ((source :: next :: sources).map spell) ++
              closing :: rest = spell source ++ ',' :: ' ' ::
                ([',', ' '].intercalate ((next :: sources).map spell) ++ closing :: rest) := by
            simp [List.intercalate_cons_cons]
          rw [split, items, unclosed]
          simp only [read, Option.bind_eq_bind, Option.bind_some,
            mark_self (by decide : ',' ≠ ' '), items_blank skips, others]
          rfl

end

/-!
## Phrases
-/

/-- The characters that end a phrase. -/
def delimiters : List Char := [' ', ',', ')', ']', '\x7d']

def Ends (rest : List Char) : Prop := ∀ first, rest.head? = some first → first ∈ delimiters

/-- What may stand behind a phrase that can still be subscripted. -/
def Goes (rest : List Char) : Prop := ∀ first, rest.head? = some first → first ∈ '[' :: delimiters

private theorem Ends.goes {rest : List Char} (ends : Ends rest) : Goes rest :=
  fun first leads => List.mem_cons_of_mem _ (ends first leads)

private theorem ends_nil : Ends [] := by simp [Ends]

private theorem ends_cons {first : Char} (delimits : first ∈ delimiters) (rest : List Char) :
    Ends (first :: rest) := by
  intro leads found
  cases found
  exact delimits

/-- A character is not among others that lack one of its properties. -/
theorem notMem_of_all (property : Char → Bool) {characters : List Char}
    (free : characters.all (fun character => !property character) = true) {character : Char}
    (holds : property character = true) : character ∉ characters := by
  intro member
  have lacks := List.all_eq_true.mp free character member
  rw [holds] at lacks
  cases lacks

private theorem span_goes {property : Char → Bool}
    (free : ('[' :: delimiters).all (fun character => !property character) = true)
    {spelling rest : List Char} (all : ∀ character ∈ spelling, property character = true)
    (goes : Goes rest) :
    (spelling ++ rest).takeWhile property = spelling ∧
      (spelling ++ rest).dropWhile property = rest := by
  rw [List.takeWhile_append_of_pos all, List.dropWhile_append_of_pos all]
  cases rest with
  | nil => simp
  | cons first rest =>
      have stop : property first ≠ true := fun holds =>
        notMem_of_all property free holds (goes first rfl)
      simp [stop]

/-- Characters that are read as a phrase, up to the subscripts behind it. -/
def Arrives (characters : List Char) (found : Phrase) : Prop :=
  ∀ rounds depth rest, characters.length < rounds → characters.length < depth → Goes rest →
    ∃ left, rounds ≤ left + characters.length ∧
      phrase rounds depth (characters ++ rest) = subscripts left found rest

private theorem phrase_blank (rounds depth : Nat) (input : List Char) :
    phrase rounds depth (' ' :: input) = phrase rounds depth input := by
  cases depth <;> rfl

private theorem subscripts_of_ends {left : Nat} (positive : 0 < left) (found : Phrase)
    {rest : List Char} (ends : Ends rest) : subscripts left found rest = some (found, rest) := by
  obtain ⟨left, rfl⟩ := Nat.exists_eq_succ_of_ne_zero positive.ne'
  rw [subscripts.eq_def]
  split
  · omega
  · next whole => cases whole; exact absurd (ends '[' rfl) (by decide)
  · next whole _ => cases whole; rfl

private theorem Arrives.reads {characters : List Char} {found : Phrase}
    (arrives : Arrives characters found) {rounds depth : Nat} (enough : characters.length < rounds)
    (deep : characters.length < depth)
    {rest : List Char} (ends : Ends rest) :
    phrase rounds depth (characters ++ rest) = some (found, rest) := by
  obtain ⟨left, few, reached⟩ := arrives rounds depth rest enough deep ends.goes
  rw [reached, subscripts_of_ends (by omega) found ends]

theorem Arrives.read? {source : String} {found : Phrase}
    (arrives : Arrives source.toList found) : Phrase.read? source = some found := by
  have whole := arrives.reads (Nat.lt_succ_self _) (Nat.lt_succ_self _) ends_nil
  rw [List.append_nil] at whole
  simp only [Phrase.read?, whole]

private theorem arrives_of_primary {characters : List Char} {found : Phrase}
    (reads : ∀ rounds depth rest, characters.length < rounds → characters.length ≤ depth →
      Goes rest → primary rounds (phrase rounds depth) (characters ++ rest) = some (found, rest)) :
    Arrives characters found := by
  intro rounds depth rest enough deep goes
  obtain ⟨depth, rfl⟩ := Nat.exists_eq_succ_of_ne_zero (Nat.ne_of_gt (Nat.zero_lt_of_lt deep))
  refine ⟨rounds, Nat.le_add_right _ _, ?_⟩
  rw [phrase, reads rounds depth rest enough (Nat.le_of_lt_succ deep) goes]
  rfl

theorem arrives_subscript {characters : List Char} {found : Phrase}
    (arrives : Arrives characters found) {key : List Char}
    (plain : ∀ character ∈ key, Plain character) :
    Arrives (characters ++ '[' :: '\x27' :: (key ++ ['\x27', ']']))
      (.subscript found (String.ofList key)) := by
  intro rounds depth rest enough deep goes
  have opens : Goes ('[' :: '\x27' :: (key ++ '\x27' :: ']' :: rest)) := by
    intro first leads
    cases leads
    exact List.mem_cons_self
  simp only [List.length_append, List.length_cons] at enough deep ⊢
  obtain ⟨left, few, reached⟩ := arrives rounds depth _ (by omega) (by omega) opens
  obtain ⟨left, rfl⟩ : ∃ fewer, left = fewer + 1 := ⟨left - 1, by omega⟩
  refine ⟨left, by omega, ?_⟩
  have split : characters ++ '[' :: '\x27' :: (key ++ ['\x27', ']']) ++ rest =
      characters ++ '[' :: '\x27' :: (key ++ '\x27' :: ']' :: rest) := by simp
  rw [split, reached, subscripts]
  simp only [text_plain plain, Option.bind_eq_bind, Option.bind_some,
    mark_self (by decide : ']' ≠ ' ')]

/-- The brackets begin phrases of their own. -/
theorem primary_word {first : Char} (starts : startsIdentifier first = true) (rounds : Nat)
    (inner : Reader Phrase) (rest : List Char) :
    primary rounds inner (first :: rest) =
      let spelling := String.ofList (first :: rest.takeWhile isNameCharacter)
      match rest.dropWhile isNameCharacter with
      | '(' :: behind => do
          let (found, rest) ← items inner ')' rounds behind
          some (.call spelling found, rest)
      | behind => some (.name spelling, behind) := by
  have visible : first ≠ ' ' := by rintro rfl; cases starts
  unfold primary
  rw [blanks_of_ne visible]
  split
  · next whole => cases whole
  · next whole => cases whole; cases starts
  · next whole => cases whole; cases starts
  · next whole => cases whole; cases starts
  · next whole => cases whole; rw [if_pos starts]

section

variable {first : Char} {spelling : List Char} (starts : startsIdentifier first = true)
  (all : ∀ character ∈ spelling, isNameCharacter character = true)

include starts all

theorem arrives_name : Arrives (first :: spelling) (.name (String.ofList (first :: spelling))) := by
  apply arrives_of_primary
  intro rounds depth rest enough deep goes
  obtain ⟨taken, dropped⟩ := span_goes (by decide) all goes
  rw [List.cons_append, primary_word starts, taken, dropped]
  cases rest with
  | nil => rfl
  | cons next rest =>
      dsimp only
      split
      · next opening =>
          cases opening
          exact absurd (goes '(' rfl) (by decide)
      · rfl

end

private theorem not_startsIdentifier {first : Char} (starts : first.isDigit = true ∨ first = '-') :
    startsIdentifier first = false := by
  rcases starts with digit | rfl
  · by_contra named
    simp only [startsIdentifier, Char.isDigit, Char.le_def, UInt32.le_iff_toNat_le,
      Bool.not_eq_false, Bool.or_eq_true, Bool.and_eq_true, decide_eq_true_eq] at digit named
    rcases named with named | rfl
    · have least : '9'.val.toNat = 57 ∧ 'A'.val.toNat = 65 ∧ 'a'.val.toNat = 97 := by decide
      omega
    · revert digit
      decide
  · decide

theorem arrives_number {first : Char} {spelling : List Char}
    (starts : first.isDigit = true ∨ first = '-')
    (all : ∀ character ∈ spelling, Real.isNumeralCharacter character = true) :
    Arrives (first :: spelling) (.number (String.ofList (first :: spelling))) := by
  apply arrives_of_primary
  intro rounds depth rest enough deep goes
  obtain ⟨taken, dropped⟩ := span_goes (by decide) all goes
  have visible : first ≠ ' ' := by rintro rfl; simp at starts
  have unnamed := not_startsIdentifier starts
  rw [List.cons_append]
  unfold primary
  rw [blanks_of_ne visible]
  split
  · next whole => cases whole
  · next whole => cases whole; simp at starts
  · next whole => cases whole; simp at starts
  · next whole => cases whole; simp at starts
  · next whole =>
      cases whole
      simp only [unnamed, Bool.false_eq_true, if_false, if_pos starts, taken, dropped]

theorem arrives_text (value : String) : Arrives (literal value).toList (.text value) := by
  apply arrives_of_primary
  intro rounds depth rest enough deep goes
  have read := text_literal value rest
  rw [literal, String.toList_ofList, List.cons_append] at read ⊢
  unfold primary
  rw [blanks_of_ne (by decide)]
  change (text _ >>= _) = _
  rw [read]
  rfl

/-- Characters that begin with none that could end a phrase. -/
def Opens (characters : List Char) : Prop :=
  ∃ first rest, characters = first :: rest ∧ first ∉ delimiters

theorem arrives_operation (operator : Operator) {left right : List Char} {first second : Phrase}
    (arrivesLeft : Arrives left first) (arrivesRight : Arrives right second) :
    Arrives ('(' :: (left ++ ' ' :: (operator.spelling.toList ++ ' ' :: (right ++ [')']))))
      (.operation operator first second) := by
  apply arrives_of_primary
  intro rounds depth rest enough deep goes
  simp only [List.length_cons, List.length_append] at enough deep
  have split : '(' :: (left ++ ' ' :: (operator.spelling.toList ++ ' ' :: (right ++ [')']))) ++
      rest = '(' :: (left ++ ' ' :: (operator.spelling.toList ++ ' ' ::
        (right ++ ')' :: rest))) := by simp
  have readLeft (behind : List Char) :
      phrase rounds depth (left ++ ' ' :: behind) = some (first, ' ' :: behind) :=
    arrivesLeft.reads (by omega) (by omega) (ends_cons (by decide) behind)
  have readRight :
      phrase rounds depth (right ++ ')' :: rest) = some (second, ')' :: rest) :=
    arrivesRight.reads (by omega) (by omega) (ends_cons (by decide) rest)
  rw [split, primary, blanks_of_ne (by decide)]
  simp only [readLeft, Option.bind_eq_bind, Option.bind_some, operator_spelling, phrase_blank,
    readRight, mark_self (by decide : ')' ≠ ' ')]

/-!
## Sequences of phrases
-/

section

variable {texts : List (List Char)}

private theorem length_le_intercalate {characters : List Char} (member : characters ∈ texts) :
    characters.length ≤ ([',', ' '].intercalate texts).length := by
  induction texts with
  | nil => cases member
  | cons first rest ih =>
      cases rest with
      | nil =>
          rw [List.mem_singleton.mp member, List.intercalate_singleton]
      | cons second others =>
          rw [List.intercalate_cons_cons, List.length_append, List.length_append]
          rcases List.mem_cons.mp member with rfl | later
          · omega
          · exact (ih later).trans (Nat.le_add_left _ _)

private theorem length_le_length_intercalate (filled : ∀ characters ∈ texts, Opens characters) :
    texts.length ≤ ([',', ' '].intercalate texts).length := by
  induction texts with
  | nil => exact Nat.zero_le _
  | cons first rest ih =>
      obtain ⟨here, later⟩ := List.forall_mem_cons.mp filled
      obtain ⟨character, more, rfl, _⟩ := here
      cases rest with
      | nil => simp
      | cons second others =>
          have counted := ih later
          rw [List.intercalate_cons_cons, List.length_append, List.length_append]
          simp only [List.length_cons] at counted ⊢
          omega

end

section

variable {β : Type} {spell : β → List Char} {mean : β → Phrase} {sources : List β}
  (each : ∀ source ∈ sources, Opens (spell source) ∧ Arrives (spell source) (mean source))

include each

private theorem items_phrases {closing : Char} (closes : closing ∈ [')', ']']) {rounds depth : Nat}
    (enough : ([',', ' '].intercalate (sources.map spell)).length < rounds)
    (deep : ([',', ' '].intercalate (sources.map spell)).length < depth) (rest : List Char) :
    items (phrase rounds depth) closing rounds
        ([',', ' '].intercalate (sources.map spell) ++ closing :: rest) =
      some (sources.map mean, rest) := by
  have delimits : closing ∈ delimiters ∧ closing ≠ ' ' ∧ closing ≠ ',' := by
    rcases List.mem_pair.mp closes with rfl | rfl <;> decide
  have count : sources.length ≤ ([',', ' '].intercalate (sources.map spell)).length := by
    rw [← List.length_map spell]
    apply length_le_length_intercalate
    rw [List.forall_mem_map]
    exact fun source member => (each source member).1
  refine items_intercalate (phrase_blank rounds depth) delimits.2.1 delimits.2.2 ?_
    (count.trans_lt enough) rest
  intro source member
  have short := length_le_intercalate (List.mem_map_of_mem (f := spell) member)
  obtain ⟨⟨first, more, spelled, opens⟩, arrives⟩ := each source member
  constructor
  · refine ⟨first, more, spelled, ?_, ?_⟩ <;> rintro rfl
    · exact opens (by decide)
    · exact opens delimits.1
  · intro next behind follows
    apply arrives.reads (by omega) (by omega)
    apply ends_cons
    rcases follows with rfl | rfl
    · decide
    · exact delimits.1

theorem arrives_list :
    Arrives ('[' :: ([',', ' '].intercalate (sources.map spell) ++ [']']))
      (.list (sources.map mean)) := by
  apply arrives_of_primary
  intro rounds depth rest enough deep goes
  simp only [List.length_cons, List.length_append] at enough deep
  have read : items (phrase rounds depth) ']' rounds
      ([',', ' '].intercalate (sources.map spell) ++ ']' :: rest) = some (sources.map mean, rest) :=
    items_phrases each (by decide) (by omega) (by omega) rest
  rw [List.cons_append, List.append_assoc, List.singleton_append, primary,
    blanks_of_ne (by decide)]
  simp only [read, Option.bind_eq_bind, Option.bind_some]

theorem arrives_call {first : Char} {spelling : List Char} (starts : startsIdentifier first = true)
    (all : ∀ character ∈ spelling, isNameCharacter character = true) :
    Arrives (first :: (spelling ++ '(' :: ([',', ' '].intercalate (sources.map spell) ++ [')'])))
      (.call (String.ofList (first :: spelling)) (sources.map mean)) := by
  apply arrives_of_primary
  intro rounds depth rest enough deep goes
  simp only [List.length_cons, List.length_append] at enough deep
  have read : items (phrase rounds depth) ')' rounds
      ([',', ' '].intercalate (sources.map spell) ++ ')' :: rest) = some (sources.map mean, rest) :=
    items_phrases each (by decide) (by omega) (by omega) rest
  have split : first :: (spelling ++ '(' ::
      ([',', ' '].intercalate (sources.map spell) ++ [')'])) ++ rest =
      first :: (spelling ++ '(' :: ([',', ' '].intercalate (sources.map spell) ++ ')' :: rest)) := by
    simp
  rw [split, primary_word starts, List.takeWhile_append_of_pos all,
    List.dropWhile_append_of_pos all]
  simp only [List.takeWhile_cons, List.dropWhile_cons, show isNameCharacter '(' = false by decide,
    Bool.false_eq_true, if_false, List.append_nil, read, Option.bind_eq_bind, Option.bind_some]

end

section

variable {β : Type} {spell : β → List Char} {mean : β → Phrase}

/-- How an entry of a dictionary is written. -/
def entryText (spell : β → List Char) (entry : String × β) : List Char :=
  (literal entry.1).toList ++ ':' :: ' ' :: spell entry.2

private theorem opens_entryText (entry : String × β) : Opens (entryText spell entry) := by
  refine ⟨'\x22', entry.1.toList.flatMap escape ++ ['\x22'] ++ ':' :: ' ' :: spell entry.2, ?_,
    by decide⟩
  rw [entryText, literal, String.toList_ofList, List.cons_append]

private theorem entry_entryText {rounds depth : Nat} {entry : String × β}
    (arrives : Arrives (spell entry.2) (mean entry.2)) (enough : (spell entry.2).length < rounds)
    (deep : (spell entry.2).length < depth) {rest : List Char} (ends : Ends rest) :
    Reader.entry (phrase rounds depth) (entryText spell entry ++ rest) =
      some ((entry.1, mean entry.2), rest) := by
  unfold Reader.entry entryText
  rw [List.append_assoc, text_literal]
  simp only [List.cons_append, Option.bind_eq_bind, Option.bind_some,
    mark_self (by decide : ':' ≠ ' '), phrase_blank, arrives.reads enough deep ends]

theorem arrives_dictionary {entries : List (String × β)}
    (each : ∀ entry ∈ entries, Arrives (spell entry.2) (mean entry.2)) :
    Arrives ('\x7b' :: ([',', ' '].intercalate (entries.map (entryText spell)) ++ ['\x7d']))
      (.dictionary (entries.map fun entry => (entry.1, mean entry.2))) := by
  apply arrives_of_primary
  intro rounds depth rest enough deep goes
  simp only [List.length_cons, List.length_append] at enough deep
  have count : entries.length ≤ ([',', ' '].intercalate (entries.map (entryText spell))).length := by
    rw [← List.length_map (entryText spell)]
    apply length_le_length_intercalate
    rw [List.forall_mem_map]
    exact fun entry _ => opens_entryText entry
  have item : ∀ entry ∈ entries, Item (Reader.entry (phrase rounds depth)) '\x7d'
      (entryText spell entry) (entry.1, mean entry.2) := by
    intro entry member
    have short := length_le_intercalate (List.mem_map_of_mem (f := entryText spell) member)
    have shorter : (spell entry.2).length ≤ (entryText spell entry).length := by
      simp only [entryText, List.length_append, List.length_cons]
      omega
    constructor
    · obtain ⟨first, more, spelled, opens⟩ : Opens (entryText spell entry) :=
        opens_entryText entry
      refine ⟨first, more, spelled, ?_, ?_⟩ <;> rintro rfl <;> exact opens (by decide)
    · intro next behind follows
      apply entry_entryText (each entry member) (by omega) (by omega)
      apply ends_cons
      rcases follows with rfl | rfl <;> decide
  have read := items_intercalate (fun _ => rfl) (by decide : '\x7d' ≠ ' ') (by decide) item
    (show entries.length < rounds by omega) rest
  rw [List.cons_append, List.append_assoc, List.singleton_append, primary,
    blanks_of_ne (by decide)]
  simp only [read, Option.bind_eq_bind, Option.bind_some]

end

end Reader

end WindowScript.Python
