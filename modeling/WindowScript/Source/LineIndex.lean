import WindowScript.Source.Position

/-!
# Byte offsets to positions

An index of line starts maps a byte offset of a text to its line and column. It
remembers the last offset it mapped, so that a walk along one long line counts
each of its characters once.
-/

set_option autoImplicit false

namespace WindowScript

def byteSize (characters : List Char) : Nat :=
  characters.foldr (fun character size => character.utf8Size + size) 0

/-- How many characters lie between two byte offsets, or nothing when the two do
not bound a run of whole characters. -/
def charactersBetween (source : String) (first last : Nat) : Option Nat :=
  if bounds : first ≤ last ∧ (⟨first⟩ : String.Pos.Raw).IsValid source ∧
      (⟨last⟩ : String.Pos.Raw).IsValid source then
    some (source.extract (source.pos ⟨first⟩ bounds.2.1) (source.pos ⟨last⟩ bounds.2.2)).length
  else none

/-- The byte offsets at which the known lines begin, in increasing order, and the
last offset that was mapped with its position. -/
structure LineIndex where
  starts : Array Nat
  lastOffset : Nat
  lastPosition : Position
deriving DecidableEq, Repr

namespace LineIndex

/-- An index that knows its line starts and has mapped nothing yet. -/
def ofStarts (starts : Array Nat) : LineIndex := ⟨starts, 0, .start⟩

def empty : LineIndex := ofStarts #[0]

def record (index : LineIndex) (offset : Nat) : LineIndex :=
  { index with starts := index.starts.push offset }

/-- The line that holds an offset: the number of lines that begin at or before it. -/
def lineOf (index : LineIndex) (offset : Nat) : Nat :=
  max 1 (index.starts.countP (· ≤ offset))

/-- Where counting may begin for an offset: the remembered position when it is
earlier on the same line, and the start of the line otherwise. -/
def anchor (index : LineIndex) (offset : Nat) : Nat × Nat :=
  let line := index.lineOf offset
  if index.lastPosition.line = line ∧ index.lastOffset ≤ offset then
    (index.lastOffset, index.lastPosition.column)
  else (index.starts.getD (line - 1) 0, 1)

/-- Maps a byte offset of `source`. Bytes that form no whole characters count as
no column. -/
def locate (source : String) (index : LineIndex) (offset : Nat) : Position × LineIndex :=
  let (first, column) := index.anchor offset
  let width := (charactersBetween source first offset).getD 0
  let position : Position := ⟨index.lineOf offset, column + width⟩
  (position, { index with lastOffset := offset, lastPosition := position })

/-- Maps several offsets one after the other on one index. -/
def locateEach (source : String) (index : LineIndex) : List Nat → List Position
  | [] => []
  | offset :: rest =>
      let (position, next) := index.locate source offset
      position :: next.locateEach source rest

end LineIndex

end WindowScript
