import Mathlib.Algebra.Group.Nat.Even
import WindowScript.Proofs.Python.Delimiters

/-!
# What a Python literal says

A text is written between double quotes so that decoding what stands between them gives the text
back. Nothing there ends the literal or the line early: a double quote always has an odd number
of backslashes in front of it, and control characters are written by their codes.
-/

set_option autoImplicit false

namespace WindowScript.Python

/-!
## Decoding
-/

/-- The character that a backslash and a letter or mark behind it stand for. -/
def named? : Char → Option Char
  | '\x5c' => some '\x5c'
  | '\x22' => some '\x22'
  | 'n' => some '\n'
  | 'r' => some '\r'
  | 't' => some '\t'
  | _ => none

/-- The text that the characters between two double quotes stand for. A character with neither
a name nor a code stands for itself, and a backslash in front of it too; a code has exactly four
hexadecimal digits. -/
def decode : List Char → Option (List Char)
  | '\x5c' :: 'u' :: first :: second :: third :: fourth :: rest => do
      let character ← Reader.codePoint? first second third fourth
      (decode rest).map (character :: ·)
  | '\x5c' :: 'u' :: _ => none
  | '\x5c' :: next :: rest =>
      match named? next with
      | some character => (decode rest).map (character :: ·)
      | none => (decode (next :: rest)).map ('\x5c' :: ·)
  | character :: rest => (decode rest).map (character :: ·)
  | [] => some []

private theorem decode_named {next character : Char} (known : named? next = some character)
    (rest : List Char) :
    decode ('\x5c' :: next :: rest) = (decode rest).map (character :: ·) := by
  have other : next ≠ 'u' := by
    rintro rfl
    cases known
  rw [decode]
  · simp only [known]
  · simp [other]
  · simp [other]

private theorem decode_plain {character : Char} (other : character ≠ '\x5c') (rest : List Char) :
    decode (character :: rest) = (decode rest).map (character :: ·) := by
  rw [decode] <;> simp [other]

/-!
## How a character is written
-/

/-- A character with what is written for it. -/
inductive Escaped : Char → List Char → Prop where
  | named {next character : Char} (known : named? next = some character) :
      Escaped character ['\x5c', next]
  | coded {character : Char} (small : character.toNat < 0x10000) :
      Escaped character ('\x5c' :: 'u' :: fourDigits character.toNat)
  | plain {character : Char} (backslash : character ≠ '\x5c') (quote : character ≠ '\x22')
      (visible : isControl character = false) : Escaped character [character]

private theorem escaped_escape (character : Char) : Escaped character (escape character) := by
  unfold escape
  split
  · next special => rcases special with rfl | rfl <;> exact .named rfl
  split
  · next newline => exact .named (newline ▸ rfl)
  split
  · next carriage => exact .named (carriage ▸ rfl)
  split
  · next tab => exact .named (tab ▸ rfl)
  split
  · next control =>
      simp only [isControl, Bool.or_eq_true, Bool.and_eq_true, decide_eq_true_eq] at control
      exact .coded (by omega)
  · next special _ _ _ control =>
      rw [not_or] at special
      exact .plain special.1 special.2 (Bool.eq_false_iff.mpr control)

private theorem decode_escape (character : Char) (rest : List Char) :
    decode (escape character ++ rest) = (decode rest).map (character :: ·) := by
  have escaped := escaped_escape character
  generalize escape character = spelled at escaped
  cases escaped with
  | named known => exact decode_named known rest
  | coded small =>
      simp only [fourDigits, List.cons_append, List.nil_append, decode,
        Reader.codePoint?_fourDigits character small, Option.bind_eq_bind, Option.bind_some]
  | plain backslash => exact decode_plain backslash rest

private theorem decode_flatMap_escape (text : List Char) :
    decode (text.flatMap escape) = some text := by
  induction text with
  | nil => rfl
  | cons character rest ih =>
      rw [List.flatMap_cons, decode_escape, ih]
      rfl

/-!
## What may not stand in a literal
-/

/-- The characters of the general category of controls are those of the two control ranges. -/
theorem isControl_eq_false_iff {character : Char} :
    isControl character = false ↔
      0x20 ≤ character.toNat ∧ (character.toNat < 0x7F ∨ 0xA0 ≤ character.toNat) := by
  simp only [isControl, Bool.or_eq_false_iff, Bool.and_eq_false_iff, decide_eq_false_iff_not]
  omega

private theorem isControl_digitChar : ∀ digit < 16, isControl (Nat.digitChar digit) = false := by
  decide

private theorem isControl_of_mem_escape {character written : Char}
    (member : written ∈ escape character) : isControl written = false := by
  have escaped := escaped_escape character
  generalize escape character = spelled at escaped member
  cases escaped with
  | @named next _ known =>
      have visible : isControl next = false := by
        unfold named? at known
        split at known
        case h_6 => cases known
        all_goals rfl
      simp only [List.mem_cons, List.not_mem_nil, or_false] at member
      rcases member with rfl | rfl
      · rfl
      · exact visible
  | coded small =>
      have digit (place : Nat) : isControl (Nat.digitChar (place % 16)) = false :=
        isControl_digitChar _ (Nat.mod_lt _ (by decide))
      simp only [fourDigits, List.mem_cons, List.not_mem_nil, or_false] at member
      rcases member with rfl | rfl | rfl | rfl | rfl | rfl
      · rfl
      · rfl
      all_goals exact digit _
  | plain _ _ visible =>
      cases List.mem_singleton.mp member
      exact visible

/-- The number of backslashes at the end of some characters. -/
def finalBackslashes (characters : List Char) : Nat :=
  (characters.reverse.takeWhile (· = '\x5c')).length

private theorem finalBackslashes_concat (characters : List Char) (last : Char) :
    finalBackslashes (characters ++ [last]) =
      if last = '\x5c' then finalBackslashes characters + 1 else 0 := by
  unfold finalBackslashes
  rw [List.reverse_concat, List.takeWhile_cons]
  split <;> simp_all

/-- Backslashes come in pairs in front of what is written for one character. -/
theorem even_finalBackslashes (text : List Char) :
    Even (finalBackslashes (text.flatMap escape)) := by
  induction text using List.reverseRecOn with
  | nil => exact Even.zero
  | append_singleton front last ih =>
      have escaped := escaped_escape last
      rw [List.flatMap_append, List.flatMap_singleton]
      generalize escape last = spelled at escaped
      cases escaped with
      | @named next _ known =>
          have split : front.flatMap escape ++ ['\x5c', next] =
              front.flatMap escape ++ ['\x5c'] ++ [next] := by simp
          rw [split, finalBackslashes_concat, finalBackslashes_concat, if_pos rfl]
          by_cases backslash : next = '\x5c'
          · rw [if_pos backslash, Nat.add_assoc]
            exact ih.add even_two
          · rw [if_neg backslash]
            exact Even.zero
      | coded small =>
          have digit : Nat.digitChar (last.toNat % 16) ≠ '\x5c' :=
            (digitChar_plain _ (Nat.mod_lt _ (by decide))).1
          have split : front.flatMap escape ++ '\x5c' :: 'u' :: fourDigits last.toNat =
              front.flatMap escape ++ '\x5c' :: 'u' :: (fourDigits last.toNat).dropLast ++
                [Nat.digitChar (last.toNat % 16)] := by simp [fourDigits]
          rw [split, finalBackslashes_concat, if_neg digit]
          exact Even.zero
      | plain backslash =>
          rw [finalBackslashes_concat, if_neg backslash]
          exact Even.zero

/-- The only double quote in what is written for a character has one backslash in front of it. -/
theorem eq_of_escape_eq_append {character : Char} {before after : List Char}
    (split : escape character = before ++ '\x22' :: after) : before = ['\x5c'] := by
  have escaped := escaped_escape character
  rw [split] at escaped
  generalize whole : before ++ '\x22' :: after = spelled at escaped
  have member : '\x22' ∈ spelled := whole ▸ List.mem_append_right _ (.head _)
  cases escaped with
  | @named next _ known =>
      cases before with
      | nil => cases whole
      | cons first before =>
          obtain ⟨rfl, rest⟩ := List.cons.inj whole
          cases before with
          | nil => rfl
          | cons second before => simp at rest
  | coded small =>
      have digit (place : Nat) : '\x22' ≠ Nat.digitChar (place % 16) :=
        (digitChar_plain _ (Nat.mod_lt _ (by decide))).2.symm
      simp [fourDigits, digit] at member
  | plain _ quote => exact absurd (List.mem_singleton.mp member).symm quote

private theorem exists_eq_flatMap_escape {text before after : List Char}
    (split : text.flatMap escape = before ++ '\x22' :: after) :
    ∃ front : List Char, before = front.flatMap escape ++ ['\x5c'] := by
  induction text generalizing before with
  | nil => simp at split
  | cons character rest ih =>
      rw [List.flatMap_cons] at split
      rcases List.append_eq_append_iff.mp split with
        ⟨more, rfl, later⟩ | ⟨more, whole, ahead⟩
      · obtain ⟨front, rfl⟩ := ih later
        exact ⟨character :: front, by simp⟩
      · cases more with
        | nil =>
            obtain ⟨front, empty⟩ := @ih [] ahead.symm
            simp at empty
        | cons first more =>
            obtain ⟨rfl, _⟩ := List.cons.inj ahead
            exact ⟨[], eq_of_escape_eq_append whole⟩

/-- A literal stands between double quotes. It holds no control character, every double quote in
it has an odd number of backslashes right in front of it, and decoding it gives its text. -/
theorem literal_says_its_text (text : String) :
    ∃ body, (literal text).toList = '\x22' :: (body ++ ['\x22']) ∧
      (∀ character ∈ (literal text).toList,
        0x20 ≤ character.toNat ∧ (character.toNat < 0x7F ∨ 0xA0 ≤ character.toNat)) ∧
      (∀ before after, body = before ++ '\x22' :: after → Odd (finalBackslashes before)) ∧
      decode body = some text.toList := by
  have spelled : (literal text).toList = '\x22' :: (text.toList.flatMap escape ++ ['\x22']) :=
    String.toList_ofList
  refine ⟨text.toList.flatMap escape, spelled, ?_, ?_, decode_flatMap_escape text.toList⟩
  · intro character member
    rw [← isControl_eq_false_iff]
    rw [spelled, List.mem_cons, List.mem_append, List.mem_singleton] at member
    rcases member with rfl | inside | rfl
    · rfl
    · obtain ⟨_, _, written⟩ := List.mem_flatMap.mp inside
      exact isControl_of_mem_escape written
    · rfl
  · intro before after split
    obtain ⟨front, rfl⟩ := exists_eq_flatMap_escape split
    rw [finalBackslashes_concat, if_pos rfl]
    exact (even_finalBackslashes front).add_one

/-- What looks like a code in a text is none in its literal. -/
example : literal "\x5cu0041\u0085" = "\x22\x5c\x5cu0041\x5cu0085\x22" := by decide

end WindowScript.Python
