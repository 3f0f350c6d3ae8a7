import WindowScript.Proofs.Program.Names
import WindowScript.Proofs.Python.Blocks
import WindowScript.Proofs.Python.Uniqueness

/-!
# Names in Python

A name of the language becomes a Python name by nothing but underscores in place of its
hyphens. Names that differ in more stay apart, and a program in Python binds only names that
its source binds and a few of its own.
-/

set_option autoImplicit false

namespace WindowScript.Python

/-!
## Names that become one
-/

/-- Names that are the same but for hyphens where the other has underscores. -/
def Alike (one other : String) : Prop :=
  List.Forall₂ (fun left right => left = right ∨ left ∈ ['-', '_'] ∧ right ∈ ['-', '_'])
    one.toList other.toList

/-- What a line binds that goes on in some way behind its first word. -/
def boundBehind? (word : String) : List Char → Option String
  | ' ' :: '=' :: ' ' :: _ => some word
  | ' ' :: rest =>
      if word = "def" ∨ word = "class" then
        some (String.ofList (rest.takeWhile Reader.isNameCharacter))
      else none
  | _ => none

/-- The name that a line of Python assigns a value, or that of the function or class it begins. -/
def boundName? (line : List Char) : Option String :=
  let code := Reader.blanks line
  boundBehind? (String.ofList (code.takeWhile Reader.isNameCharacter))
    (code.dropWhile Reader.isNameCharacter)

/-- The names that a program in Python binds for its interfaces, and that are not reserved in
its source. -/
inductive Own : String → Prop where
  | widget (number : Nat) : Own (widgetName number)
  | fixed {label : String} : label ∈ ["__init__", "central_widget", "layout", "app"] → Own label

private theorem boundName?_code (depth : Nat) (text : String) :
    boundName? (Line.code depth text).text.toList = boundName? text.toList := by
  have stripped : Reader.blanks (Line.code depth text).text.toList = Reader.blanks text.toList := by
    rw [Line.text, String.toList_append, String.toList_ofList, Reader.blanks,
      List.dropWhile_append_of_pos (by simp)]
    rfl
  rw [boundName?, boundName?, stripped]

/-- A text of nothing but characters of names. -/
def Named (text : String) : Prop :=
  text ≠ "" ∧ text.toList.all Reader.isNameCharacter = true

instance (text : String) : Decidable (Named text) := inferInstanceAs (Decidable (_ ∧ _))

private theorem Named.all {text : String} (named : Named text) :
    ∀ character ∈ text.toList, Reader.isNameCharacter character = true :=
  List.all_eq_true.mp named.2

private theorem boundName?_word {word : String} (named : Named word) (rest : List Char) :
    boundName? (word.toList ++ ' ' :: rest) = boundBehind? word (' ' :: rest) := by
  obtain ⟨first, others, spelled⟩ :=
    List.exists_cons_of_ne_nil (fun empty => named.1 (String.toList_eq_nil_iff.mp empty))
  have visible : first ≠ ' ' := by
    rintro rfl
    exact absurd (named.all ' ' (spelled ▸ .head _)) (by decide)
  have stripped : Reader.blanks (word.toList ++ ' ' :: rest) = word.toList ++ ' ' :: rest := by
    rw [spelled, List.cons_append, Reader.blanks_of_ne visible]
  rw [boundName?, stripped, List.takeWhile_append_of_pos named.all,
    List.dropWhile_append_of_pos named.all, List.takeWhile_cons_of_neg (by decide),
    List.dropWhile_cons_of_neg (by decide), List.append_nil, String.ofList_toList]

/-- The first character of a text that is not one of a name. -/
def stop? (text : String) : Option Char :=
  text.toList.find? fun character => !Reader.isNameCharacter character

/-- A text whose first word is not followed by a blank or an equals sign. -/
def Unbound (text : String) : Prop :=
  (stop? text).all (fun character => character ≠ ' ' && character ≠ '=') = true

/-- A text whose first word is followed by something else than a blank or an equals sign. -/
def Halts (text : String) : Prop :=
  (stop? text).any (fun character => character ≠ ' ' && character ≠ '=') = true

instance (text : String) : Decidable (Halts text) := inferInstanceAs (Decidable (_ = true))

private theorem stop?_append (left right : String) :
    stop? (left ++ right) = (stop? left).or (stop? right) := by
  rw [stop?, String.toList_append, List.find?_append, stop?, stop?]

private theorem Named.stop? {text : String} (named : Named text) : Python.stop? text = none := by
  simpa [Python.stop?] using named.all

private theorem Named.unbound {text : String} (named : Named text) : Unbound text := by
  rw [Unbound, named.stop?, Option.all_none]

private theorem Halts.unbound {text : String} (halts : Halts text) : Unbound text := by
  unfold Halts at halts
  unfold Unbound
  cases found : stop? text with
  | none => rfl
  | some character => simpa [found] using halts

private theorem Halts.append {left : String} (halts : Halts left) (right : String) :
    Halts (left ++ right) := by
  unfold Halts at halts ⊢
  rw [stop?_append]
  cases found : stop? left with
  | none => rw [found] at halts; cases halts
  | some character => rwa [found] at halts

private theorem Unbound.append {left right : String} (unbound : Unbound left)
    (halts : Halts right) : Halts (left ++ right) := by
  unfold Halts at halts ⊢
  unfold Unbound at unbound
  rw [stop?_append]
  cases found : stop? left with
  | none => exact halts
  | some character => rwa [found] at unbound

private theorem Unbound.boundName? {text : String} (unbound : Unbound text) :
    Python.boundName? text.toList = none := by
  have stop : (text.toList.dropWhile Reader.isNameCharacter).head? = stop? text := by
    simp [stop?, List.find?_eq_head?_dropWhile_not]
  have stripped : Reader.blanks text.toList = text.toList := by
    cases spelled : text.toList with
    | nil => rfl
    | cons first rest =>
        refine Reader.blanks_of_ne ?_ rest
        rintro rfl
        rw [Unbound, Python.stop?, spelled] at unbound
        cases unbound
  unfold Unbound at unbound
  rw [Python.boundName?, stripped]
  cases behind : text.toList.dropWhile Reader.isNameCharacter with
  | nil => rfl
  | cons first rest =>
      rw [behind, List.head?_cons] at stop
      rw [← stop] at unbound
      have other : first ≠ ' ' := by
        rintro rfl
        cases unbound
      simp [boundBehind?, other]

/-!
## Lines that bind nothing
-/

private theorem IsNumber.unbound {text : String} (number : IsNumber text.toList) :
    Unbound text := by
  unfold Unbound
  cases found : stop? text with
  | none => rfl
  | some character =>
      have numeral := number.numeric character (List.mem_of_find?_eq_some found)
      have visible : character ≠ ' ' := by rintro rfl; cases numeral
      have other : character ≠ '=' := by rintro rfl; cases numeral
      simp [visible, other]

/-- A line that binds a name among some, or none. -/
def BindsWithin (allowed : String → Prop) (line : Line) : Prop :=
  ∀ bound, boundName? line.text.toList = some bound → allowed bound

namespace BindsWithin

variable {allowed : String → Prop}

private theorem blank : BindsWithin allowed .blank := nofun

private theorem of_none {text : String} (none : boundName? text.toList = none) (depth : Nat) :
    BindsWithin allowed (.code depth text) := by
  intro bound found
  rw [boundName?_code, none] at found
  cases found

private theorem of_eq {text : String} (label : String) (bound : boundName? text.toList = some label)
    (among : allowed label) (depth : Nat) : BindsWithin allowed (.code depth text) := by
  intro other found
  rw [boundName?_code, bound] at found
  cases found
  exact among

private theorem header {label : String} (introduction : String)
    (introduces : introduction ∈ ["def ", "class "]) (named : Named label)
    (among : allowed label) (depth : Nat) (rest : String) :
    BindsWithin allowed (.code depth (introduction ++ label ++ ("(" ++ rest))) := by
  refine of_eq label ?_ among depth
  have whole : (label.toList ++ '(' :: rest.toList).takeWhile Reader.isNameCharacter =
      label.toList := by
    rw [List.takeWhile_append_of_pos named.all, List.takeWhile_cons_of_neg (by decide),
      List.append_nil]
  -- A header goes on with a name, so that it is no assignment.
  have behind {keyword : String} (known : keyword = "def" ∨ keyword = "class") :
      boundBehind? keyword (' ' :: (label.toList ++ '(' :: rest.toList)) = some label := by
    rw [boundBehind?, if_pos known, whole, String.ofList_toList]
    intro more clash
    rw [clash] at whole
    exact named.1 (String.toList_eq_nil_iff.mp whole.symm)
  have spelled : (introduction ++ label ++ ("(" ++ rest)).toList =
      introduction.toList ++ (label.toList ++ '(' :: rest.toList) := by simp
  rw [spelled]
  rcases List.mem_pair.mp introduces with rfl | rfl
  · have keyword : Named "def" := by decide
    exact (boundName?_word keyword _).trans (behind (.inl rfl))
  · have keyword : Named "class" := by decide
    exact (boundName?_word keyword _).trans (behind (.inr rfl))

private theorem returning {text : String} (unbound : Unbound text) (depth : Nat) :
    BindsWithin allowed (.code depth ("return " ++ text)) := by
  refine of_none ?_ depth
  have spelled : ("return " ++ text).toList = "return".toList ++ ' ' :: text.toList := by simp
  rw [spelled, boundName?_word (by decide)]
  unfold boundBehind?
  split
  · next assigned =>
      rw [Unbound, stop?, (List.cons.inj assigned).2] at unbound
      cases unbound
  · rfl
  · rfl

private theorem mono {more : String → Prop} {line : Line} (within : BindsWithin allowed line)
    (weaker : ∀ bound, allowed bound → more bound) : BindsWithin more line :=
  fun bound found => weaker bound (within bound found)

end BindsWithin

/-- A name that the lines of some statement may bind. -/
def Introduced (statement : Statement) (bound : String) : Prop :=
  Own bound ∨ ∃ label, Statement.Binds label statement ∧ name label = bound

private theorem Introduced.body {statement : Statement} {bound : String}
    (introduced : Introduced statement bound) {body : List Statement} (member : statement ∈ body)
    {callee : String} {parameters : List String} {position : Position} :
    Introduced (.function callee parameters body position) bound := by
  rcases introduced with own | ⟨label, binds, same⟩
  · exact .inl own
  · exact .inr ⟨label, .body member binds, same⟩

section

variable {allowed : String → Prop}

variable (own : ∀ bound, Own bound → allowed bound)

include own

end

end WindowScript.Python
