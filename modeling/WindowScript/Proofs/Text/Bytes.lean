import Mathlib.Algebra.Group.Nat.Defs
import Mathlib.Tactic.SplitIfs

/-!
# The order of bytes

Texts are ordered by their characters. A character is encoded by a first byte, which grows with the
number of bytes behind it, and by digits to the base 64, so that the encoding keeps the order: texts
are ordered by their bytes in the same way.
-/

set_option autoImplicit false

namespace WindowScript.Text

/-- The bytes that encode a text. -/
def bytes (text : String) : List UInt8 := text.toByteArray.data.toList

private theorem bytes_eq (text : String) :
    bytes text = text.toList.flatMap String.utf8EncodeChar := by
  rw [bytes, ← String.utf8Encode_toList, List.utf8Encode, List.toList_data_toByteArray]

/-!
## Characters
-/

/-- The first byte that encodes a character of a given value, and the number of bytes behind it. -/
def leading (value : Nat) : Nat × Nat :=
  if value ≤ 127 then (value, 0)
  else if value ≤ 2047 then (value / 64 + 192, 1)
  else if value ≤ 65535 then (value / 4096 + 224, 2)
  else (value / 262144 + 240, 3)

/-- The last digits of a value to the base 64, each as a byte, in front of further bytes. -/
def trailing : Nat → Nat → List UInt8 → List UInt8
  | 0, _, rest => rest
  | count + 1, value, rest => trailing count (value / 64) (UInt8.ofNat (value % 64 + 128) :: rest)

private theorem val_toNat_lt (character : Char) : character.val.toNat < 1114112 := by
  rcases character.valid with low | high
  · exact Nat.lt_trans low (by decide)
  · exact high.2

private theorem utf8EncodeChar_append (character : Char) (rest : List UInt8) :
    String.utf8EncodeChar character ++ rest =
      UInt8.ofNat (leading character.val.toNat).1 ::
        trailing (leading character.val.toNat).2 character.val.toNat rest := by
  have bound := val_toNat_lt character
  unfold String.utf8EncodeChar leading
  dsimp only
  split_ifs with one two three
  · rfl
  · rw [Nat.mod_eq_of_lt (show character.val.toNat / 64 < 32 by omega)]
    rfl
  · rw [Nat.mod_eq_of_lt (show character.val.toNat / 4096 < 16 by omega)]
    simp [trailing]
  · rw [Nat.mod_eq_of_lt (show character.val.toNat / 262144 < 8 by omega)]
    simp [trailing, Nat.div_div_eq_div_mul]

private theorem trailing_lt_of_lt {rest further : List UInt8} (behind : rest < further)
    (count value : Nat) :
    trailing count value rest < trailing count value further := by
  induction count generalizing value rest further with
  | zero => exact behind
  | succ count ih => exact ih (List.cons_lt_cons_iff.mpr (.inr ⟨rfl, behind⟩)) _

/-- Of two values that differ in their last digits alone, the lesser has the lesser digits. -/
theorem trailing_lt {count value other : Nat} (before : value < other)
    (same : value / 64 ^ count = other / 64 ^ count) (rest further : List UInt8) :
    trailing count value rest < trailing count other further := by
  induction count generalizing value other rest further with
  | zero =>
      rw [Nat.pow_zero, Nat.div_one, Nat.div_one] at same
      omega
  | succ count ih =>
      rw [Nat.pow_succ', ← Nat.div_div_eq_div_mul, ← Nat.div_div_eq_div_mul] at same
      rcases Nat.lt_or_ge (value / 64) (other / 64) with less | notLess
      · exact ih less same _ _
      · have equal : value / 64 = other / 64 := by omega
        rw [trailing, trailing, equal]
        apply trailing_lt_of_lt
        rw [List.cons_lt_cons_iff, UInt8.lt_iff_toNat_lt, UInt8.toNat_ofNat', UInt8.toNat_ofNat']
        omega

private theorem leading_cases {value other : Nat} (before : value < other) :
    (leading value).1 < (leading other).1 ∨
      leading value = leading other ∧
        value / 64 ^ (leading value).2 = other / 64 ^ (leading value).2 := by
  unfold leading
  split_ifs <;> simp only [Prod.mk.injEq, and_true] <;> omega

private theorem leading_lt {value : Nat} (bound : value < 1114112) : (leading value).1 < 256 := by
  unfold leading
  split_ifs <;> dsimp only <;> omega

private theorem utf8EncodeChar_append_lt {one other : Char} (before : one < other)
    (rest further : List UInt8) :
    String.utf8EncodeChar one ++ rest < String.utf8EncodeChar other ++ further := by
  have values : one.val.toNat < other.val.toNat := before
  rw [utf8EncodeChar_append, utf8EncodeChar_append, List.cons_lt_cons_iff]
  rcases leading_cases values with less | ⟨same, digits⟩
  · left
    rwa [UInt8.lt_iff_toNat_lt, UInt8.toNat_ofNat', UInt8.toNat_ofNat',
      Nat.mod_eq_of_lt (leading_lt (val_toNat_lt one)),
      Nat.mod_eq_of_lt (leading_lt (val_toNat_lt other))]
  · right
    rw [same] at digits
    exact ⟨by rw [same], same ▸ trailing_lt values digits rest further⟩

/-!
## Texts
-/

private theorem flatMap_utf8EncodeChar_lt {characters others : List Char}
    (before : characters < others) :
    characters.flatMap String.utf8EncodeChar < others.flatMap String.utf8EncodeChar := by
  induction characters generalizing others with
  | nil =>
      cases others with
      | nil => exact absurd before (List.lt_irrefl [])
      | cons other others =>
          rw [List.flatMap_nil, List.flatMap_cons, utf8EncodeChar_append]
          exact List.nil_lt_cons _ _
  | cons character characters ih =>
      cases others with
      | nil => exact absurd before (List.not_lt_nil _)
      | cons other others =>
          rw [List.flatMap_cons, List.flatMap_cons]
          rcases List.cons_lt_cons_iff.mp before with less | ⟨rfl, behind⟩
          · exact utf8EncodeChar_append_lt less _ _
          · exact List.append_left_lt (ih behind)

/-- The order of texts is the order of their bytes. -/
theorem bytes_lt_bytes_iff {left right : String} : bytes left < bytes right ↔ left < right := by
  have keeps {left right : String} (before : left < right) : bytes left < bytes right := by
    rw [bytes_eq, bytes_eq]
    exact flatMap_utf8EncodeChar_lt (String.lt_iff.mp before)
  refine ⟨fun before => ?_, keeps⟩
  rcases Std.lt_trichotomy left right with less | rfl | greater
  · exact less
  · exact absurd before (List.lt_irrefl _)
  · exact absurd before (List.lt_asymm (keeps greater))

end WindowScript.Text
