import Mathlib.Data.List.Infix
import WindowScript.Source.LineIndex

/-!
# The cache of the line index

Two questions lie behind every mapped offset: which line holds it, and how many
characters stand in front of it on that line. The remembered position answers the
second one from a later character of the line. On an index whose line starts are in
order, this shortcut never shows.
-/

set_option autoImplicit false

namespace WindowScript

/-! ## Bytes and characters -/

@[simp] theorem byteSize_nil : byteSize [] = 0 := rfl

@[simp] theorem byteSize_cons (character : Char) (rest : List Char) :
    byteSize (character :: rest) = character.utf8Size + byteSize rest := rfl

@[simp] theorem byteSize_append (leading trailing : List Char) :
    byteSize (leading ++ trailing) = byteSize leading + byteSize trailing := by
  induction leading with
  | nil => simp
  | cons character rest ih =>
      rw [List.cons_append, byteSize_cons, byteSize_cons, ih, Nat.add_assoc]

@[simp] theorem utf8ByteSize_ofList (characters : List Char) :
    (String.ofList characters).utf8ByteSize = byteSize characters := by
  induction characters with
  | nil => rfl
  | cons character rest ih =>
      rw [String.ofList_cons, String.utf8ByteSize_append, String.utf8ByteSize_singleton, ih,
        byteSize_cons]

theorem byteSize_toList (source : String) : byteSize source.toList = source.utf8ByteSize := by
  rw [← utf8ByteSize_ofList, String.ofList_toList]

theorem byteSize_pos_of_ne_nil {characters : List Char} (nonempty : characters ≠ []) :
    0 < byteSize characters := by
  cases characters with
  | nil => exact absurd rfl nonempty
  | cons character rest =>
      have positive := character.utf8Size_pos
      rw [byteSize_cons]
      omega

/-- Of two leading parts of one text, the one with fewer bytes is a part of the other. -/
theorem isPrefix_of_byteSize_le {whole shorter longer : List Char} (first : shorter <+: whole)
    (second : longer <+: whole) (bytes : byteSize shorter ≤ byteSize longer) :
    shorter <+: longer := by
  cases List.prefix_or_prefix_of_prefix first second with
  | inl within => exact within
  | inr within =>
      obtain ⟨excess, rfl⟩ := within
      by_cases empty : excess = []
      · simp [empty]
      · have positive := byteSize_pos_of_ne_nil empty
        rw [byteSize_append] at bytes
        omega

/-- A byte offset between two characters of a text, or at one of its ends. -/
def Boundary (source : String) (offset : Nat) : Prop :=
  ∃ before, before <+: source.toList ∧ byteSize before = offset

private theorem Boundary.isValid {source : String} {offset : Nat}
    (boundary : Boundary source offset) : (⟨offset⟩ : String.Pos.Raw).IsValid source := by
  obtain ⟨before, ⟨behind, whole⟩, rfl⟩ := boundary
  apply String.Pos.Raw.isValid_iff_exists_append.mpr
  refine ⟨String.ofList before, String.ofList behind, ?_, ?_⟩
  · rw [← String.ofList_append, whole, String.ofList_toList]
  · rw [String.Pos.Raw.ext_iff, String.byteIdx_rawEndPos, utf8ByteSize_ofList]

private theorem charactersBetween_append {source : String} {before middle behind : List Char}
    (whole : source.toList = before ++ (middle ++ behind)) :
    charactersBetween source (byteSize before) (byteSize (before ++ middle)) =
      some middle.length := by
  have bounds : byteSize before ≤ byteSize (before ++ middle) ∧
      (⟨byteSize before⟩ : String.Pos.Raw).IsValid source ∧
      (⟨byteSize (before ++ middle)⟩ : String.Pos.Raw).IsValid source := by
    refine ⟨by simp, Boundary.isValid ⟨before, ?_, rfl⟩, Boundary.isValid ⟨_, ?_, rfl⟩⟩
    · exact ⟨middle ++ behind, whole.symm⟩
    · exact ⟨behind, by rw [whole, List.append_assoc]⟩
  have bytes : source.toByteArray = (String.ofList before).toByteArray ++
      ((String.ofList middle).toByteArray ++ (String.ofList behind).toByteArray) := by
    rw [← String.toByteArray_append, ← String.toByteArray_append, ← String.ofList_append,
      ← String.ofList_append, ← whole, String.ofList_toList]
  have cut : source.extract (source.pos ⟨byteSize before⟩ bounds.2.1)
      (source.pos ⟨byteSize (before ++ middle)⟩ bounds.2.2) = String.ofList middle := by
    rw [← String.toByteArray_inj, String.toByteArray_extract, bytes]
    calc (_ ++ (_ ++ _) : ByteArray).extract (byteSize before) (byteSize (before ++ middle))
        = ((String.ofList middle).toByteArray ++ (String.ofList behind).toByteArray).extract 0
            (byteSize middle) := by
          rw [byteSize_append]
          exact ByteArray.extract_append_size_add' (i := 0) (utf8ByteSize_ofList before).symm
      _ = (String.ofList middle).toByteArray :=
          ByteArray.extract_append_eq_left (utf8ByteSize_ofList middle).symm
  unfold charactersBetween
  rw [dif_pos bounds, cut, String.length_ofList]

/-- Between two leading parts of a text lie the characters that one has on top of the
other. -/
theorem charactersBetween_of_isPrefix {source : String} {shorter longer : List Char}
    (within : longer <+: source.toList) (first : shorter <+: longer) :
    charactersBetween source (byteSize shorter) (byteSize longer) =
      some (longer.length - shorter.length) := by
  obtain ⟨behind, whole⟩ := within
  obtain ⟨middle, rfl⟩ := first
  rw [@charactersBetween_append source shorter middle behind (by rw [← whole, List.append_assoc])]
  simp

/-- Counting up to a boundary and on from there is counting in one go. -/
theorem charactersBetween_add {source : String} {first middle last : Nat}
    (start : Boundary source first) (inside : Boundary source middle)
    (finish : Boundary source last) (early : first ≤ middle) (late : middle ≤ last) :
    (charactersBetween source first last).getD 0 =
      (charactersBetween source first middle).getD 0 +
        (charactersBetween source middle last).getD 0 := by
  obtain ⟨shortest, _, rfl⟩ := start
  obtain ⟨medium, mediumWithin, rfl⟩ := inside
  obtain ⟨longest, longestWithin, rfl⟩ := finish
  have one : shortest <+: medium := isPrefix_of_byteSize_le ‹_› mediumWithin early
  have two : medium <+: longest := isPrefix_of_byteSize_le mediumWithin longestWithin late
  rw [charactersBetween_of_isPrefix longestWithin (one.trans two),
    charactersBetween_of_isPrefix mediumWithin one, charactersBetween_of_isPrefix longestWithin two]
  have short := one.length_le
  have long := two.length_le
  simp only [Option.getD_some]
  omega

namespace LineIndex

/-! ## Lines in order -/

/-- Line starts as a scan of a text records them: the first line begins the text, and
every later one begins behind a whole character, further on than the ones before. -/
structure Ordered (source : String) (starts : Array Nat) : Prop where
  first : starts.toList.head? = some 0
  increasing : starts.toList.Pairwise (· < ·)
  boundaries : ∀ start ∈ starts.toList, Boundary source start

/-- Where the line that holds an offset begins. -/
def lineStart (index : LineIndex) (offset : Nat) : Nat :=
  index.starts.getD (index.lineOf offset - 1) 0

/-- The position of an offset, counted from the start of its line. -/
def counted (source : String) (index : LineIndex) (offset : Nat) : Position :=
  ⟨index.lineOf offset, 1 + (charactersBetween source (index.lineStart offset) offset).getD 0⟩

/-- Whether the remembered position is what counting would give. -/
structure Truthful (source : String) (index : LineIndex) : Prop where
  boundary : Boundary source index.lastOffset
  position : index.lastPosition = index.counted source index.lastOffset

theorem lineOf_eq (index : LineIndex) (offset : Nat) :
    index.lineOf offset = max 1 (index.starts.toList.countP (· ≤ offset)) := by
  rw [lineOf, Array.countP_toList]

theorem lineStart_eq (index : LineIndex) (offset : Nat) :
    index.lineStart offset = index.starts.toList.getD (index.lineOf offset - 1) 0 := by
  simp [lineStart, Array.getD_eq_getD_getElem?, List.getD_eq_getElem?_getD]

private theorem getD_le_of_lt_countP {starts : List Nat} (increasing : starts.Pairwise (· < ·))
    {offset place : Nat} (counts : place < starts.countP (· ≤ offset)) :
    starts.getD place 0 ≤ offset := by
  induction starts generalizing place with
  | nil => simp at counts
  | cons start later ih =>
      obtain ⟨beyond, increasingLater⟩ := List.pairwise_cons.mp increasing
      by_cases early : start ≤ offset
      · cases place with
        | zero => simpa using early
        | succ place =>
            rw [List.countP_cons_of_pos (by simpa using early)] at counts
            exact ih increasingLater (by omega)
      · have none : later.countP (· ≤ offset) = 0 := by
          rw [List.countP_eq_zero]
          intro one member
          have := beyond one member
          simp only [decide_eq_true_eq]
          omega
        rw [List.countP_cons_of_neg (by simpa using early), none] at counts
        omega

private theorem Ordered.countP_pos {source : String} {starts : Array Nat}
    (ordered : Ordered source starts) (offset : Nat) :
    0 < starts.toList.countP (· ≤ offset) := by
  apply List.countP_pos_iff.mpr
  exact ⟨0, List.mem_of_head? ordered.first, by simp⟩

/-- The line that holds an offset begins at or before it, between two characters. -/
theorem Ordered.lineStart_spec {source : String} {index : LineIndex}
    (ordered : Ordered source index.starts) (offset : Nat) :
    index.lineStart offset ≤ offset ∧ Boundary source (index.lineStart offset) := by
  have some := ordered.countP_pos offset
  have line : index.lineOf offset = index.starts.toList.countP (· ≤ offset) := by
    rw [lineOf_eq]
    omega
  have size := List.countP_le_length (p := (· ≤ offset)) (l := index.starts.toList)
  rw [lineStart_eq, line]
  constructor
  · exact getD_le_of_lt_countP ordered.increasing (by omega)
  · apply ordered.boundaries
    have inside : index.starts.toList.countP (· ≤ offset) - 1 < index.starts.toList.length := by
      omega
    rw [List.getD_eq_getElem?_getD, List.getElem?_eq_getElem inside]
    exact List.getElem_mem inside

/-! ## The remembered position -/

@[simp] theorem locate_lastOffset (source : String) (index : LineIndex) (offset : Nat) :
    (index.locate source offset).2.lastOffset = offset := rfl

@[simp] theorem locate_lastPosition (source : String) (index : LineIndex) (offset : Nat) :
    (index.locate source offset).2.lastPosition = (index.locate source offset).1 := rfl

private theorem counted_congr {source : String} {one other : LineIndex}
    (same : one.starts = other.starts) (offset : Nat) :
    one.counted source offset = other.counted source offset := by
  simp [counted, lineStart, lineOf, same]

/-- Counting on from a truthful memory ends where counting from the start of the line
does. -/
theorem locate_fst {source : String} {index : LineIndex} {offset : Nat}
    (ordered : Ordered source index.starts) (truthful : index.Truthful source)
    (boundary : Boundary source offset) :
    (index.locate source offset).1 = index.counted source offset := by
  obtain ⟨_, start⟩ := ordered.lineStart_spec offset
  by_cases usable : index.lastPosition.line = index.lineOf offset ∧ index.lastOffset ≤ offset
  · obtain ⟨sameLine, earlier⟩ := usable
    have line : index.lineOf index.lastOffset = index.lineOf offset := by
      rw [truthful.position] at sameLine
      exact sameLine
    have column := congrArg Position.column truthful.position
    have sameStart : index.lineStart index.lastOffset = index.lineStart offset := by
      rw [lineStart, line, lineStart]
    have before := (ordered.lineStart_spec index.lastOffset).1
    simp only [counted, sameStart] at column before
    have total := charactersBetween_add start truthful.boundary boundary before earlier
    simp only [locate, anchor, sameLine, earlier, and_self, if_true, counted, Position.mk.injEq,
      true_and]
    omega
  · simp only [locate, anchor, usable, if_false, counted, lineStart]

theorem locate_truthful {source : String} {index : LineIndex} {offset : Nat}
    (ordered : Ordered source index.starts) (truthful : index.Truthful source)
    (boundary : Boundary source offset) :
    (index.locate source offset).2.Truthful source := by
  refine ⟨boundary, ?_⟩
  rw [locate_lastPosition, locate_fst ordered truthful boundary]
  exact counted_congr rfl offset

theorem ofStarts_truthful {source : String} {starts : Array Nat}
    (ordered : Ordered source starts) : (ofStarts starts).Truthful source := by
  refine ⟨⟨[], List.nil_prefix, rfl⟩, ?_⟩
  have line : (ofStarts starts).lineOf 0 = 1 := by
    obtain ⟨later, whole⟩ := List.head?_eq_some_iff.mp ordered.first
    have beyond := (List.pairwise_cons.mp (whole ▸ ordered.increasing)).1
    have none : later.countP (· ≤ 0) = 0 := by
      rw [List.countP_eq_zero]
      intro one member
      have := beyond one member
      simp only [decide_eq_true_eq]
      omega
    rw [lineOf_eq, ofStarts, whole, List.countP_cons_of_pos (by simp), none]
    rfl
  have start : (ofStarts starts).lineStart 0 = 0 :=
    Nat.le_zero.mp (@Ordered.lineStart_spec source (ofStarts starts) ordered 0).1
  have width : charactersBetween source 0 0 = some 0 :=
    @charactersBetween_of_isPrefix source [] [] List.nil_prefix List.nil_prefix
  change Position.start = (ofStarts starts).counted source 0
  simp only [counted, line, start, width, Position.start, Option.getD_some]

/-- From a truthful memory on, every offset is mapped as if it were counted from the start of its
line. -/
theorem locateEach_eq_counted {source : String} {index : LineIndex}
    (ordered : Ordered source index.starts) (truthful : index.Truthful source)
    {offsets : List Nat} (boundaries : ∀ offset ∈ offsets, Boundary source offset) :
    index.locateEach source offsets = offsets.map (index.counted source) := by
  induction offsets generalizing index with
  | nil => rfl
  | cons offset rest ih =>
      obtain ⟨boundary, later⟩ := List.forall_mem_cons.mp boundaries
      have next := locate_truthful ordered truthful boundary
      have onward : rest.map ((index.locate source offset).2.counted source) =
          rest.map (index.counted source) :=
        List.map_congr_left fun one _ => counted_congr rfl one
      have kept : Ordered source (index.locate source offset).2.starts := ordered
      change (index.locate source offset).1 ::
        (index.locate source offset).2.locateEach source rest = _
      rw [ih kept next later, onward, locate_fst ordered truthful boundary, List.map_cons]

/-- Whatever offsets were mapped before, in whatever order and however often, an index answers as
one with the same line starts does that has mapped nothing yet. -/
theorem locateEach_eq_map {source : String} {starts : Array Nat}
    (ordered : Ordered source starts) {offsets : List Nat}
    (boundaries : ∀ offset ∈ offsets, Boundary source offset) :
    (ofStarts starts).locateEach source offsets =
      offsets.map fun offset => ((ofStarts starts).locate source offset).1 := by
  have truthful := ofStarts_truthful ordered
  rw [locateEach_eq_counted ordered truthful boundaries]
  apply List.map_congr_left
  intro offset member
  exact (locate_fst ordered truthful (boundaries offset member)).symm

/-- Along a line with characters of two and of four bytes, back on it, to the next line, and back
to the first and to a repeated offset. -/
theorem locateEach_eq_map_backAndForth :
    let source := "aé𝄞b\ncd"
    let offsets := [7, 3, 8, 11, 10, 1, 7, 7, 0]
    Ordered source #[0, 9] ∧ (∀ offset ∈ offsets, Boundary source offset) ∧
      (ofStarts #[0, 9]).locateEach source offsets =
        offsets.map (fun offset => ((ofStarts #[0, 9]).locate source offset).1) ∧
      (ofStarts #[0, 9]).locateEach source offsets =
        [⟨1, 4⟩, ⟨1, 3⟩, ⟨1, 5⟩, ⟨2, 3⟩, ⟨2, 2⟩, ⟨1, 2⟩, ⟨1, 4⟩, ⟨1, 4⟩, ⟨1, 1⟩] := by
  intro source offsets
  have behind (count : Nat) {offset : Nat} (bytes : byteSize (source.toList.take count) = offset) :
      Boundary source offset := ⟨_, List.take_prefix count source.toList, bytes⟩
  have ordered : Ordered source #[0, 9] := by
    refine ⟨rfl, by decide, ?_⟩
    simpa using ⟨behind 0 rfl, behind 5 (by decide)⟩
  have boundaries : ∀ offset ∈ offsets, Boundary source offset := by
    simpa [offsets] using ⟨behind 3 (by decide), behind 2 (by decide), behind 4 (by decide),
      behind 7 (by decide), behind 6 (by decide), behind 1 (by decide), behind 3 (by decide),
      behind 0 rfl⟩
  exact ⟨ordered, boundaries, locateEach_eq_map ordered boundaries, by decide +kernel⟩

/-- Lines that begin behind the remembered offset do not concern it. -/
theorem record_truthful {source : String} {index : LineIndex} {offset : Nat}
    (nonempty : 0 < index.starts.size) (truthful : index.Truthful source)
    (later : index.lastOffset < offset) : (index.record offset).Truthful source := by
  refine ⟨truthful.boundary, ?_⟩
  have line : (index.record offset).lineOf index.lastOffset = index.lineOf index.lastOffset := by
    have beyond : ¬ offset ≤ index.lastOffset := by omega
    simp [lineOf, record, beyond]
  have start : (index.record offset).lineStart index.lastOffset =
      index.lineStart index.lastOffset := by
    have count : index.starts.countP (· ≤ index.lastOffset) ≤ index.starts.size :=
      Array.countP_le_size
    have inside : index.lineOf index.lastOffset - 1 < index.starts.size := by
      rw [lineOf]
      omega
    rw [lineStart, line, lineStart, record]
    simp only [Array.getD_eq_getD_getElem?, Array.getElem?_push_lt inside,
      Array.getElem?_eq_getElem inside]
  change index.lastPosition = (index.record offset).counted source index.lastOffset
  rw [truthful.position, counted, counted, line, start]

end LineIndex

end WindowScript
