import WindowScript.Proofs.Program.Direct
import WindowScript.Proofs.Python.Phrases

/-!
# Written expressions can be read

The Python text of an expression of a program is read as the phrase that the expression is
written as, with a call for every pipe.
-/

set_option autoImplicit false

namespace WindowScript.Python

mutual

/-- The phrase as which an expression without pipes is written. -/
def phrase : Expr → Phrase
  | .integer value _ => .number (Integer.text value)
  | .real value _ => .number (Real.text value)
  | .text value _ => .text value
  | .boolean value _ => .name (if value then "True" else "False")
  | .name label _ => .name (name label)
  | .binary operator left right _ => .operation operator (phrase left) (phrase right)
  | .record fields _ => .dictionary (fieldPhrases fields)
  | .access object key _ => .subscript (phrase object) key
  | .list items _ => .list (phrases items)
  | .call callee arguments _ => .call (name callee) (phrases arguments)
  | .pipe left _ _ => phrase left

def phrases : List Expr → List Phrase
  | [] => []
  | first :: rest => phrase first :: phrases rest

def fieldPhrases : List (String × Expr) → List (String × Phrase)
  | [] => []
  | (key, value) :: rest => (key, phrase value) :: fieldPhrases rest

end

theorem phrases_eq (items : List Expr) : phrases items = items.map phrase := by
  induction items with
  | nil => rfl
  | cons item rest ih => rw [phrases, List.map_cons, ih]

theorem fieldPhrases_eq (fields : List (String × Expr)) :
    fieldPhrases fields = fields.map fun field => (field.1, phrase field.2) := by
  induction fields with
  | nil => rfl
  | cons field rest ih => rw [fieldPhrases, List.map_cons, ih]

/-!
## Words
-/

/-- A character of a word stands for itself between quotes. -/
theorem plain_of_continuesWord {character : Char} (word : Lexer.continuesWord character = true) :
    Reader.Plain character := by
  refine ⟨?_, ?_, ?_, ?_, ?_⟩ <;> rintro rfl <;> cases word

theorem IsWord.plain {characters : List Char} (word : IsWord characters) :
    ∀ character ∈ characters, Reader.Plain character := by
  obtain ⟨first, rest, rfl, starts, goesOn⟩ := word
  rw [List.forall_mem_cons]
  refine ⟨plain_of_continuesWord ?_, fun character member =>
    plain_of_continuesWord (goesOn character member)⟩
  simp [Lexer.continuesWord, starts]

/-- A name in Python is a name of Python. -/
theorem exists_toList_name {label : String} (word : IsWord label.toList) :
    ∃ first rest, (name label).toList = first :: rest ∧ startsIdentifier first = true ∧
      ∀ character ∈ rest, Reader.isNameCharacter character = true := by
  obtain ⟨first, rest, spelled, starts, goesOn⟩ := word
  have kept : first ≠ '-' := by rintro rfl; cases starts
  rw [name, String.toList_ofList, spelled, List.map_cons, if_neg kept]
  refine ⟨first, _, rfl, starts, ?_⟩
  rw [List.forall_mem_map]
  intro character member
  have goes := goesOn character member
  split
  · decide
  · next visible =>
      have either : (Lexer.startsWord character || Numeral.isDigit character) = true := by
        simpa [Lexer.continuesWord, visible] using goes
      exact either

/-!
## Reading expressions
-/

private theorem toList_separated (texts : List String) :
    (separated texts).toList = [',', ' '].intercalate (texts.map String.toList) :=
  String.toList_intercalate

section

variable (position : Position)

private theorem toList_binary (operator : Operator) (left right : Expr) :
    (expression (.binary operator left right position)).toList =
      '(' :: ((expression left).toList ++ ' ' :: (operator.spelling.toList ++
        ' ' :: ((expression right).toList ++ [')']))) := by
  simp [expression]

private theorem toList_record (fields : List (String × Expr)) :
    (expression (.record fields position)).toList =
      '\x7b' :: ([',', ' '].intercalate (fields.map
        (Reader.entryText fun item => (expression item).toList)) ++ ['\x7d']) := by
  simp [expression, toList_separated, entries_eq, Function.comp_def]
  rfl

private theorem toList_access (object : Expr) (key : String) :
    (expression (.access object key position)).toList =
      (expression object).toList ++ '[' :: '\x27' :: (key.toList ++ ['\x27', ']']) := by
  simp [expression]

private theorem toList_list (items : List Expr) :
    (expression (.list items position)).toList =
      '[' :: ([',', ' '].intercalate (items.map fun item => (expression item).toList) ++
        [']']) := by
  simp [expression, toList_separated, expressions_eq, Function.comp_def]

private theorem toList_call (callee : String) (arguments : List Expr) :
    (expression (.call callee arguments position)).toList =
      (name callee).toList ++ '(' ::
        ([',', ' '].intercalate (arguments.map fun argument => (expression argument).toList) ++
          [')']) := by
  simp [expression, call, toList_separated, expressions_eq, Function.comp_def]

end

/-- An expression whose text is read as its phrase. -/
structure Written (item : Expr) : Prop where
  opens : Reader.Opens (expression item).toList
  arrives : Reader.Arrives (expression item).toList (phrase item)

private theorem written_of_toList {item : Expr} {spelling : List Char}
    (text : (expression item).toList = spelling) (opens : Reader.Opens spelling)
    (arrives : Reader.Arrives spelling (phrase item)) : Written item := by
  subst text
  exact ⟨opens, arrives⟩

/-- A spelling that begins as a number does and goes on with characters of numerals. -/
def IsNumber (spelling : List Char) : Prop :=
  ∃ first rest, spelling = first :: rest ∧ (first.isDigit = true ∨ first = '-') ∧
    Real.Numeric rest

theorem isNumber_integer {value : Integer} (nonnegative : 0 ≤ value.toInt) :
    IsNumber (Integer.text value).toList := by
  have digits := Integer.digits_text nonnegative
  rw [Integer.toList_text nonnegative] at digits ⊢
  obtain ⟨first, rest, spelled⟩ := List.exists_cons_of_ne_nil
    (Nat.toDigits_ne_nil (n := value.toInt.natAbs) (b := 10))
  rw [spelled] at digits ⊢
  obtain ⟨digit, others⟩ := List.forall_mem_cons.mp digits
  exact ⟨first, rest, rfl, .inl digit, Real.Digits.numeric others⟩

theorem isNumber_real {value : Float} (finite : Real.isFinite value = true) :
    IsNumber (Real.text value).toList := by
  obtain ⟨numeric, ⟨first, rest, spelled, digit⟩, _⟩ := Real.fractional_magnitudeText value
  rw [Real.toList_text finite]
  split
  · exact ⟨'-', _, rfl, .inr rfl, numeric⟩
  · rw [spelled] at numeric
    exact ⟨first, rest, spelled, .inl digit, (Real.numeric_cons.mp numeric).2⟩

theorem IsNumber.numeric {spelling : List Char} (number : IsNumber spelling) :
    Real.Numeric spelling := by
  obtain ⟨first, rest, rfl, starts, numeric⟩ := number
  refine Real.numeric_cons.mpr ⟨?_, numeric⟩
  rcases starts with digit | rfl
  · simp [Real.isNumeralCharacter, digit]
  · decide

private theorem IsNumber.opens {spelling : List Char} (number : IsNumber spelling) :
    Reader.Opens spelling := by
  obtain ⟨first, rest, rfl, starts, _⟩ := number
  refine ⟨first, rest, rfl, Reader.notMem_of_all (fun begin => begin.isDigit || begin = '-')
    (by decide) ?_⟩
  simpa using starts

private theorem IsNumber.arrives {spelling : String} (number : IsNumber spelling.toList) :
    Reader.Arrives spelling.toList (.number spelling) := by
  obtain ⟨first, rest, spelled, starts, numeric⟩ := number
  have arrives := Reader.arrives_number starts numeric
  rwa [← spelled, String.ofList_toList] at arrives

private theorem opens_of_startsIdentifier {first : Char} (starts : startsIdentifier first = true)
    (rest : List Char) : Reader.Opens (first :: rest) :=
  ⟨first, rest, rfl, Reader.notMem_of_all startsIdentifier (by decide) starts⟩

private theorem written_name {item : Expr} {spelling : String} (text : expression item = spelling)
    (read : phrase item = .name spelling)
    (named : ∃ first rest, spelling.toList = first :: rest ∧ startsIdentifier first = true ∧
      ∀ character ∈ rest, Reader.isNameCharacter character = true) : Written item := by
  obtain ⟨first, rest, spelled, starts, all⟩ := named
  have arrives := Reader.arrives_name starts all
  rw [← spelled, String.ofList_toList, ← read] at arrives
  constructor
  · rw [text, spelled]
    exact opens_of_startsIdentifier starts rest
  · rw [text]
    exact arrives

theorem written_of_direct {allowed : String → Prop} {item : Expr} (direct : item.Direct allowed) :
    Written item := by
  induction direct with
  | integer nonnegative =>
      have number := isNumber_integer nonnegative
      exact ⟨number.opens, number.arrives⟩
  | real finite =>
      have number := isNumber_real finite
      exact ⟨number.opens, number.arrives⟩
  | @text value position =>
      refine ⟨⟨'\x22', value.toList.flatMap escape ++ ['\x22'], ?_, by decide⟩,
        Reader.arrives_text value⟩
      rw [expression, literal, String.toList_ofList]
  | @boolean value position =>
      cases value
      · have text : expression (.boolean false position) = "False" := rfl
        exact written_name text rfl ⟨'F', ['a', 'l', 's', 'e'], by simp, by decide,
          List.all_eq_true.mp (by decide)⟩
      · have text : expression (.boolean true position) = "True" := rfl
        exact written_name text rfl ⟨'T', ['r', 'u', 'e'], by simp, by decide,
          List.all_eq_true.mp (by decide)⟩
  | name word _ => exact written_name rfl rfl (exists_toList_name word)
  | @binary operator left right position _ _ leftIH rightIH =>
      have arrives := Reader.arrives_operation operator leftIH.arrives rightIH.arrives
      exact written_of_toList (toList_binary position operator left right)
        ⟨'(', _, rfl, by decide⟩ arrives
  | @record fields position _ fieldsIH =>
      have arrives : Reader.Arrives
          ('\x7b' :: ([',', ' '].intercalate (fields.map
            (Reader.entryText fun item => (expression item).toList)) ++ ['\x7d']))
          (.dictionary (fields.map fun field => (field.1, phrase field.2))) :=
        Reader.arrives_dictionary fun field member => (fieldsIH field member).arrives
      rw [← fieldPhrases_eq] at arrives
      exact written_of_toList (toList_record position fields) ⟨'\x7b', _, rfl, by decide⟩ arrives
  | @access object key position _ word written =>
      have arrives := Reader.arrives_subscript written.arrives (IsWord.plain word)
      rw [String.ofList_toList] at arrives
      refine written_of_toList (toList_access position object key) ?_ arrives
      obtain ⟨first, rest, begins, opens⟩ := written.opens
      rw [begins]
      exact ⟨first, _, rfl, opens⟩
  | @list items position _ itemsIH =>
      have arrives := Reader.arrives_list fun item member =>
        ⟨(itemsIH item member).opens, (itemsIH item member).arrives⟩
      rw [← phrases_eq] at arrives
      exact written_of_toList (toList_list position items) ⟨'[', _, rfl, by decide⟩ arrives
  | @call callee arguments position word _ argumentsIH =>
      obtain ⟨first, rest, spelled, starts, all⟩ := exists_toList_name word
      have arrives := Reader.arrives_call
        (fun argument member => ⟨(argumentsIH argument member).opens,
          (argumentsIH argument member).arrives⟩) starts all
      rw [← spelled, String.ofList_toList, ← phrases_eq] at arrives
      have text := toList_call position callee arguments
      rw [spelled] at text
      exact written_of_toList text (opens_of_startsIdentifier starts _) arrives

/-- The text of an expression of a source is read as what its pipes stand for. -/
theorem read?_expression {item : Expr} (made : item.MadeOf Token.Spelled) :
    Phrase.read? (expression item) = some (phrase item.desugar) := by
  rw [← expression_desugar]
  exact (written_of_direct made.direct).arrives.read?

end WindowScript.Python
