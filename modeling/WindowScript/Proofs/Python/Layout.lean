import WindowScript.Proofs.Python.Blocks

/-!
# The layout of a Python program

The indentation of the lines of a program shows how its statements nest. A line is one level
deeper than the one above it exactly below a colon, and the lines read back as a forest are
the trees of the statements.
-/

set_option autoImplicit false

namespace WindowScript.Python

/-- The lines of a text all of whose lines end with a newline. -/
def linesOf (text : String) : List (List Char) := (text.toList.splitOn '\n').dropLast

/-- The number of blanks in front of a line, if there is anything behind them. -/
def indentation? (line : List Char) : Option Nat :=
  if line.all (· = ' ') then none else some (line.takeWhile (· = ' ')).length

/-- Lines in which four blanks make a level, and a level begins only below a colon. -/
structure Indented (lines : List (List Char)) : Prop where
  fours : ∀ line ∈ lines, ∀ width, indentation? line = some width → 4 ∣ width
  opens : ∀ before line after, lines = before ++ line :: after →
    (line.getLast? = some ':' ↔ ∃ width next rest, indentation? line = some width ∧
      after = next :: rest ∧ indentation? next = some (width + 4))
  stays : ∀ before line after width, lines = before ++ line :: after →
    indentation? line = some width → line.getLast? ≠ some ':' →
    ∀ next ∈ (after.filterMap indentation?).head?, next ≤ width
  spaced : ∀ before first second after, lines = before ++ first :: second :: after →
    indentation? first = none → indentation? second ≠ none

/-- Adds a line above a forest, each tree of which comes with its indentation. The trees that
are indented deeper become the block of the line. -/
def graft (line : List Char) (forest : List (Nat × Tree)) : List (Nat × Tree) :=
  match indentation? line with
  | none => forest
  | some width =>
      (width, .node (String.ofList (line.drop width))
        ((forest.takeWhile fun entry => width < entry.1).map Prod.snd)) ::
      forest.dropWhile fun entry => width < entry.1

/-- The forest that lines show by their indentation. Blank lines are passed over. -/
def forest (lines : List (List Char)) : List Tree := (lines.foldr graft []).map Prod.snd

/-!
## Lines and their texts
-/

def width? : Line → Option Nat
  | .code depth _ => some (4 * depth)
  | .blank => none

section

variable {text : String} (begins : Begins text) (depth : Nat)

include begins

private theorem exists_toList_code : ∃ first rest, first ≠ ' ' ∧ text.toList = first :: rest ∧
    (Line.code depth text).text.toList = List.replicate (4 * depth) ' ' ++ first :: rest := by
  cases spelled : text.toList with
  | nil => rw [Begins, spelled] at begins; cases begins
  | cons first rest =>
      refine ⟨first, rest, ?_, rfl, ?_⟩
      · simpa [Begins, spelled] using begins
      · rw [Line.text, String.toList_append, String.toList_ofList, spelled]

private theorem indentation?_code :
    indentation? (Line.code depth text).text.toList = some (4 * depth) := by
  obtain ⟨first, rest, visible, _, spelled⟩ := exists_toList_code begins depth
  rw [indentation?, spelled, if_neg (by simp [visible]), List.takeWhile_append_of_pos (by simp),
    List.takeWhile_cons_of_neg (by simp [visible]), List.append_nil, List.length_replicate]

private theorem getLast?_code :
    (Line.code depth text).text.toList.getLast? = text.toList.getLast? := by
  obtain ⟨first, rest, _, whole, spelled⟩ := exists_toList_code begins depth
  rw [spelled, whole, List.getLast?_append_of_ne_nil _ (List.cons_ne_nil first rest)]

private theorem graft_code (forest : List (Nat × Tree)) :
    graft (Line.code depth text).text.toList forest =
      (4 * depth, .node text ((forest.takeWhile fun entry => 4 * depth < entry.1).map Prod.snd)) ::
      forest.dropWhile fun entry => 4 * depth < entry.1 := by
  have behind : (Line.code depth text).text.toList.drop (4 * depth) = text.toList := by
    rw [Line.text, String.toList_append, String.toList_ofList]
    exact List.drop_left' List.length_replicate
  rw [graft, indentation?_code begins]
  simp only [behind, String.ofList_toList]

end

/-- Every line of code in a layout begins with something visible. -/
theorem Lays.begins {depth : Nat} {lines : List Line} {trees : List Tree}
    (lays : Lays depth lines trees) : ∀ line ∈ lines, line = .blank ∨
      ∃ level text, line = .code level text ∧ Begins text := by
  induction lays with
  | nil => simp
  | blank _ ih => exact List.forall_mem_cons.mpr ⟨.inl rfl, ih⟩
  | leaf plain _ ih => exact List.forall_mem_cons.mpr ⟨.inr ⟨_, _, rfl, plain.begins⟩, ih⟩
  | block header _ _ innerIH linesIH =>
      rw [List.forall_mem_cons] at innerIH
      simp only [List.forall_mem_cons, List.forall_mem_append]
      exact ⟨.inr ⟨_, _, rfl, header.begins⟩, innerIH.1, innerIH.2, linesIH⟩

private theorem Lays.indentation? {depth : Nat} {lines : List Line} {trees : List Tree}
    (lays : Lays depth lines trees) :
    ∀ line ∈ lines, Python.indentation? line.text.toList = width? line := by
  intro line member
  rcases lays.begins line member with rfl | ⟨level, text, rfl, begins⟩
  · rfl
  · exact indentation?_code begins level

/-!
## Depths along the lines
-/

/-- Whether the first line of code among some is at most so deep. -/
def Shallow (depth : Nat) (lines : List Line) : Prop :=
  ∀ next ∈ (lines.filterMap width?).head?, next ≤ 4 * depth

/-- Below a header the next line is one level deeper, below any other line of code none is
until a header comes. -/
def Stepwise : List Line → Prop
  | [] => True
  | .blank :: rest => Stepwise rest
  | .code depth text :: rest =>
      (text.toList.getLast? = some ':' → ∃ first inner, rest = .code (depth + 1) first :: inner) ∧
        (text.toList.getLast? ≠ some ':' → Shallow depth rest) ∧ Stepwise rest

private theorem Lays.shallow {depth : Nat} {lines rest : List Line} {trees : List Tree}
    (lays : Lays depth lines trees) (behind : Shallow depth rest) :
    Shallow depth (lines ++ rest) := by
  induction lays with
  | nil => exact behind
  | blank _ ih => exact ih behind
  | leaf | block => simp [Shallow, width?]

private theorem Lays.stepwise {depth : Nat} {lines rest : List Line} {trees : List Tree}
    (lays : Lays depth lines trees) (behind : Shallow depth rest) (steps : Stepwise rest) :
    Stepwise (lines ++ rest) := by
  induction lays generalizing rest with
  | nil => exact steps
  | blank _ ih => exact ih behind steps
  | leaf plain lays ih =>
      refine ⟨fun colon => absurd colon plain.last, fun _ => lays.shallow behind, ih behind steps⟩
  | block header _ lays innerIH linesIH =>
      have deeper := lays.shallow behind
      rw [List.cons_append, List.cons_append, List.append_assoc]
      refine ⟨fun _ => ⟨_, _, rfl⟩, fun colon => absurd header.last colon, ?_⟩
      refine innerIH ?_ (linesIH behind steps)
      exact fun next found => Nat.le_trans (deeper next found) (by omega)

private theorem Stepwise.split {before after : List Line} {line : Line}
    (steps : Stepwise (before ++ line :: after)) : Stepwise (line :: after) := by
  induction before with
  | nil => exact steps
  | cons first before ih =>
      cases first with
      | blank => exact ih steps
      | code depth text => exact ih steps.2.2

/-!
## Blank lines
-/

private theorem keptLines_spaced (behindEmpty : Bool) (lines : List Line) :
    (keptLines behindEmpty lines).IsChain (fun first second => first = .blank → second ≠ .blank) ∧
      (behindEmpty = true → (keptLines behindEmpty lines).head? ≠ some .blank) := by
  induction lines generalizing behindEmpty with
  | nil => exact ⟨.nil, fun _ => nofun⟩
  | cons line rest ih =>
      cases line with
      | blank =>
          obtain ⟨chain, fresh⟩ := ih true
          cases behindEmpty with
          | true => exact ⟨chain, fresh⟩
          | false =>
              refine ⟨List.isChain_cons.mpr ⟨?_, chain⟩, nofun⟩
              rintro second found _ rfl
              exact fresh rfl found
      | code depth text =>
          refine ⟨List.isChain_cons.mpr ⟨?_, (ih _).1⟩, fun _ => nofun⟩
          exact fun _ _ => nofun

/-!
## Reading the forest back
-/

private theorem takeWhile_of_head {limit : Nat} {forest : List (Nat × Tree)}
    (least : ∀ entry ∈ forest.head?, entry.1 ≤ limit) :
    (forest.takeWhile fun entry => limit < entry.1) = [] ∧
      (forest.dropWhile fun entry => limit < entry.1) = forest := by
  cases forest with
  | nil => exact ⟨rfl, rfl⟩
  | cons entry rest =>
      have small := least entry rfl
      simp [Nat.not_lt.mpr small]

/-- A line takes as its block the trees that are deeper, up to the first that is not. -/
theorem graft_deeper {text : String} (begins : Begins text) {depth deeper : Nat}
    (below : depth < deeper) (children : List Tree) {forest : List (Nat × Tree)}
    (least : ∀ entry ∈ forest.head?, entry.1 ≤ 4 * depth) :
    graft (Line.code depth text).text.toList (children.map (4 * deeper, ·) ++ forest) =
      (4 * depth, .node text children) :: forest := by
  have inside : ∀ entry ∈ children.map fun child => (4 * deeper, child),
      decide (4 * depth < entry.1) = true := by
    rw [List.forall_mem_map]
    exact fun _ _ => decide_eq_true (by omega)
  obtain ⟨none, all⟩ := takeWhile_of_head least
  rw [graft_code begins, List.takeWhile_append_of_pos inside, List.dropWhile_append_of_pos inside,
    none, all, List.append_nil, List.map_map]
  simp [Function.comp_def]

/-- Trees at one level in front of others that are no deeper. -/
theorem least_append {depth : Nat} {forest : List (Nat × Tree)}
    (least : ∀ entry ∈ forest.head?, entry.1 ≤ 4 * depth) (trees : List Tree) :
    ∀ entry ∈ (trees.map (4 * depth, ·) ++ forest).head?, entry.1 ≤ 4 * depth := by
  cases trees with
  | nil => exact least
  | cons tree rest =>
      rintro entry ⟨⟩
      exact Nat.le_refl _

private theorem Lays.foldr_graft {depth : Nat} {lines : List Line} {trees : List Tree}
    (lays : Lays depth lines trees) {forest : List (Nat × Tree)}
    (least : ∀ entry ∈ forest.head?, entry.1 ≤ 4 * depth) :
    (lines.map fun line => line.text.toList).foldr graft forest =
      trees.map (4 * depth, ·) ++ forest := by
  induction lays generalizing forest with
  | nil => rfl
  | blank _ ih => exact ih least
  | @leaf depth text _ trees plain _ ih =>
      rw [List.map_cons, List.foldr_cons, ih least, List.map_cons, List.cons_append]
      exact graft_deeper plain.begins (Nat.lt_succ_self depth) [] (least_append least trees)
  | @block depth text first inner children lines trees header _ _ innerIH linesIH =>
      have front := least_append least trees
      rw [List.map_cons, List.foldr_cons, ← List.cons_append, List.map_append, List.foldr_append,
        linesIH least, innerIH fun entry found => Nat.le_trans (front entry found) (by omega),
        graft_deeper header.begins (Nat.lt_succ_self depth) children front]
      rfl

/-!
## Programs
-/

private theorem exists_split {lines : List Line} {before after : List (List Char)}
    {line : List Char}
    (shape : (lines.map fun line => line.text.toList) = before ++ line :: after) :
    ∃ front item back, lines = front ++ item :: back ∧ item.text.toList = line ∧
      (back.map fun line => line.text.toList) = after := by
  obtain ⟨front, rest, rfl, _, shape⟩ := List.map_eq_append_iff.mp shape
  obtain ⟨item, back, rfl, line, after⟩ := List.map_eq_cons_iff.mp shape
  exact ⟨front, item, back, rfl, line, after⟩

private theorem eq_blank_of_width? {line : Line} (none : width? line = none) : line = .blank := by
  cases line with
  | blank => rfl
  | code depth text => cases none

section

variable {front back : List Line} {item : Line} {trees : List Tree}

private theorem Lays.stepwise_behind (lays : Lays 0 (front ++ item :: back) trees) :
    Stepwise (item :: back) := by
  have steps := lays.stepwise (show Shallow 0 [] by simp [Shallow]) trivial
  rw [List.append_nil] at steps
  exact steps.split

private theorem Lays.filterMap_indentation? (lays : Lays 0 (front ++ item :: back) trees) :
    (back.map fun line => line.text.toList).filterMap Python.indentation? =
      back.filterMap width? := by
  rw [List.filterMap_map]
  apply List.filterMap_congr
  intro line member
  exact lays.indentation? line (by simp [member])

/-- A colon ends the line above a deeper one, and only that. -/
theorem Lays.colon_iff (lays : Lays 0 (front ++ item :: back) trees) :
    item.text.toList.getLast? = some ':' ↔ ∃ width next rest,
      Python.indentation? item.text.toList = some width ∧
        (back.map fun line => line.text.toList) = next :: rest ∧
        Python.indentation? next = some (width + 4) := by
  rcases lays.begins item (by simp) with rfl | ⟨depth, text, rfl, begins⟩
  · refine ⟨nofun, ?_⟩
    rintro ⟨_, _, _, ⟨⟩, _⟩
  · obtain ⟨opens, stays, _⟩ := lays.stepwise_behind
    rw [getLast?_code begins, indentation?_code begins]
    constructor
    · intro colon
      obtain ⟨first, inner, rfl⟩ := opens colon
      have deeper := lays.indentation? (.code (depth + 1) first) (by simp)
      exact ⟨_, _, _, rfl, rfl, deeper⟩
    · rintro ⟨_, next, rest, ⟨⟩, follows, deeper⟩
      by_contra other
      have shallow := stays other (4 * depth + 4)
      rw [← lays.filterMap_indentation?, follows, List.filterMap_cons_some deeper] at shallow
      exact absurd (shallow rfl) (by omega)

/-- Below a line without a colon the next line of code is no deeper. -/
theorem Lays.no_deeper (lays : Lays 0 (front ++ item :: back) trees) {width : Nat}
    (found : Python.indentation? item.text.toList = some width)
    (other : item.text.toList.getLast? ≠ some ':') :
    ∀ next ∈ ((back.map fun line => line.text.toList).filterMap Python.indentation?).head?,
      next ≤ width := by
  rw [lays.filterMap_indentation?]
  rcases lays.begins item (by simp) with rfl | ⟨depth, text, rfl, begins⟩
  · cases found
  · rw [indentation?_code begins] at found
    cases found
    exact lays.stepwise_behind.2.1 (getLast?_code begins depth ▸ other)

end

private theorem Lays.indented {lines : List Line} {trees : List Tree} (lays : Lays 0 lines trees)
    (spaced : lines.IsChain fun first second => first = .blank → second ≠ .blank) :
    Indented (lines.map fun line => line.text.toList) := by
  constructor
  · rw [List.forall_mem_map]
    intro line member found
    rw [lays.indentation? line member]
    cases line with
    | blank => nofun
    | code depth text => rintro ⟨⟩; exact Nat.dvd_mul_right 4 depth
  · intro before line after shape
    obtain ⟨front, item, back, rfl, rfl, rfl⟩ := exists_split shape
    exact lays.colon_iff
  · intro before line after found shape here other
    obtain ⟨front, item, back, rfl, rfl, rfl⟩ := exists_split shape
    exact lays.no_deeper here other
  · intro before first second after shape empty
    obtain ⟨front, item, back, rfl, rfl, rest⟩ := exists_split shape
    obtain ⟨other, back, rfl, rfl, rfl⟩ := List.map_eq_cons_iff.mp rest
    rw [lays.indentation? item (by simp)] at empty
    rw [lays.indentation? other (by simp)]
    have apart := (List.isChain_append_cons_cons.mp spaced).2.1 (eq_blank_of_width? empty)
    exact fun none => apart (eq_blank_of_width? none)

theorem generate_reads_as_outline {source : String} {program : Program}
    (accepted : Script.read source = .ok program) :
    (generate program).toList = (linesOf (generate program)).flatMap (· ++ ['\n']) ∧
      Indented (linesOf (generate program)) ∧
      ∃ trees, List.Forall₂ Outlines program trees ∧
        forest (linesOf (generate program)) = framed program trees := by
  obtain ⟨trees, outlined, lays⟩ := lays_programLines (Script.read_madeOf accepted)
  have kept := lays.kept false
  have lines : linesOf (generate program) =
      (keptLines false (programLines program)).map fun line => line.text.toList := by
    rw [linesOf, splitOn_generate lays, List.dropLast_concat]
  refine ⟨?_, ?_, trees, outlined, ?_⟩
  · rw [lines, generate_eq, Line.render, settle_eq, String.toList_join]
    simp [List.flatMap_map, Function.comp_def]
  · rw [lines]
    exact kept.indented (keptLines_spaced false _).1
  · rw [lines, forest, kept.foldr_graft (by simp), List.append_nil, List.map_map]
    exact List.map_id _

/-- The program of the source `func f(a-b) { gui G { } func g() { } return a-b; }`. -/
def nestedInterface : Program :=
  [.function "f" ["a-b"]
    [.gui ⟨"G", [], ⟨1, 15⟩⟩, .function "g" [] [] ⟨1, 25⟩,
      .returning (.name "a-b" ⟨1, 45⟩) ⟨1, 38⟩] ⟨1, 1⟩]

theorem generate_reads_as_outline_nestedInterface :
    generate nestedInterface =
        "def f(a_b):\n    class G(QMainWindow):\n        def __init__(self):\n" ++
        "            super().__init__()\n\n    def g():\n        pass\n\n    return a_b\n\n" ∧
      Indented (linesOf (generate nestedInterface)) ∧
      ∃ trees, List.Forall₂ Outlines nestedInterface trees ∧
        forest (linesOf (generate nestedInterface)) = trees := by
  have accepted : Script.read "func f(a-b) \x7b gui G \x7b \x7d func g() \x7b \x7d return a-b; \x7d" =
      .ok nestedInterface := by cbv
  obtain ⟨_, indented, trees, outlined, read⟩ := generate_reads_as_outline accepted
  exact ⟨by decide +kernel, indented, trees, outlined, read⟩

end WindowScript.Python
