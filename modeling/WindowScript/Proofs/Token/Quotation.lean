import Mathlib
import WindowScript.Proofs.Program.Vocabulary
import WindowScript.Proofs.Token.Arrangement

/-!
# Texts that can be quoted

Between quotes a backslash hides a quote of their kind and nothing else, not even another
backslash. So any text can be written between quotes of either kind, with a backslash in front
of every such quote in it, as long as it does not end in a backslash itself: that one would hide
the closing quote. No quoted text stands for one that does.
-/

set_option autoImplicit false

namespace WindowScript

namespace Lexer

/-- How a character is written between quotes of some kind. -/
def hidden (quote character : Char) : List Char :=
  if character = quote then ['\x5c', quote] else [character]

/-- A text between quotes of some kind, with those in it hidden. -/
def quotation (quote : Char) (value : String) : String :=
  String.ofList (quote :: (value.toList.flatMap (hidden quote) ++ [quote]))

private theorem toList_quotation (quote : Char) (value : String) :
    (quotation quote value).toList = quote :: (value.toList.flatMap (hidden quote) ++ [quote]) :=
  String.toList_ofList

private theorem head?_flatMap_hidden {quote next : Char} (kind : IsQuote quote) (rest : List Char) :
    ((next :: rest).flatMap (hidden quote) ++ [quote]).head? ≠ some quote := by
  rw [List.flatMap_cons]
  unfold hidden
  split
  · simpa using kind.ne_backslash.symm
  · simpa

/-- Every character comes out as itself. A backslash is followed by a quote that is not hidden
only at the very end. -/
theorem inside_flatMap_hidden {quote : Char} (kind : IsQuote quote) {value : List Char}
    (free : value.getLast? ≠ some '\x5c') :
    Inside quote (value.flatMap (hidden quote)) value := by
  induction value with
  | nil => exact .done
  | cons character rest ih =>
      have later : rest.getLast? ≠ some '\x5c' := by
        cases rest with
        | nil => simp
        | cons next rest => rwa [List.getLast?_cons_cons] at free
      rw [List.flatMap_cons]
      by_cases same : character = quote
      · rw [hidden, if_pos same, same]
        exact .escaped (ih later)
      · rw [hidden, if_neg same]
        refine .plain same (fun backslash => ?_) (ih later)
        cases rest with
        | nil => exact absurd (congrArg some backslash) free
        | cons next rest => exact head?_flatMap_hidden kind rest

/-- A last backslash would have kept the closing quote inside. -/
theorem Inside.getLast?_ne {quote : Char} {body value : List Char} (kind : IsQuote quote)
    (inside : Inside quote body value) : value.getLast? ≠ some '\x5c' := by
  induction inside with
  | done => simp
  | @escaped body value more ih =>
      cases value with
      | nil => simpa using kind.ne_backslash
      | cons next rest => rwa [List.getLast?_cons_cons]
  | @plain character body value other free more ih =>
      cases value with
      | nil =>
          cases more
          intro last
          exact free (Option.some.inj last) rfl
      | cons next rest => rwa [List.getLast?_cons_cons]

private theorem spells_quotation {quote : Char} (kind : IsQuote quote) {value : String}
    (free : value.toList.getLast? ≠ some '\x5c') :
    Spells (quotation quote value).toList (.ok (.text value)) := by
  have spells := Spells.quoted kind (inside_flatMap_hidden kind free)
  rwa [String.ofList_toList, ← toList_quotation] at spells

end Lexer

open Lexer

private theorem Token.Spelled.inside {value : String} (spelled : (Token.text value).Spelled) :
    ∃ quote body, IsQuote quote ∧ Inside quote body value.toList := by
  obtain ⟨characters, spells⟩ := spelled
  generalize token : Token.text value = spelt at spells
  cases spells with
  | @quoted quote body value kind inside =>
      cases token
      rw [← String.toList_ofList (l := value)] at inside
      exact ⟨quote, body, kind, inside⟩
  | word => exact absurd token.symm (Token.ofWord_ne rfl _)
  | real | integer | symbol => cases token

/-- A text that does not end in a backslash is read back, alone, from between quotes of either
kind. A text that does is read from nowhere. -/
theorem quotable_without_final_backslash :
    (∀ (quote : Char) (value : String), IsQuote quote → value.toList.getLast? ≠ some '\x5c' →
      tokenize (quotation quote value) =
        .ok [(.text value, .start), (.endOfInput, .behind (quotation quote value).toList)]) ∧
    ∀ (source : String) (tokens : List PlacedToken), tokenize source = .ok tokens →
      ∀ (value : String) (position : Position), (.text value, position) ∈ tokens →
        value.toList.getLast? ≠ some '\x5c' := by
  constructor
  · intro quote value kind free
    have spells := spells_quotation kind free
    have longest : Longest _ ((quotation quote value).toList ++ []) :=
      spells.longest_of_layout (by simp)
    rw [List.append_nil] at longest
    refine tokenize_eq_ok_iff.mpr ⟨[⟨[], (quotation quote value).toList, .text value⟩], ?_, rfl⟩
    exact .lexeme (List.append_nil _).symm longest spells .stop
  · intro source tokens read value position member
    obtain ⟨found, tiling, rfl⟩ := tokenize_eq_ok_iff.mp read
    have placed : (Token.text value, position) ∈ found.map Lexeme.placed := by
      simpa using member
    obtain ⟨lexeme, among, same⟩ := List.mem_map.mp placed
    have token : lexeme.token = .text value := congrArg Prod.fst same
    have spelled : (Token.text value).Spelled := token ▸ tiling.spelled lexeme among
    obtain ⟨quote, body, kind, inside⟩ := spelled.inside
    exact inside.getLast?_ne kind

/-- A text with a backslash in front of a quote of the same kind, one in front of a quote of the
other kind, and a line break; and a source with a word in front of a quoted text in which a
backslash hides nothing. -/
theorem quotable_without_final_backslash_mixedQuotes :
    ("\x5c\x22\x5c\x27\né".toList.getLast? ≠ some '\x5c' ∧
      quotation '\x22' "\x5c\x22\x5c\x27\né" = "\x22\x5c\x5c\x22\x5c\x27\né\x22" ∧
      tokenize "\x22\x5c\x5c\x22\x5c\x27\né\x22" =
        .ok [(.text "\x5c\x22\x5c\x27\né", ⟨1, 1⟩), (.endOfInput, ⟨2, 3⟩)]) ∧
    tokenize "a '\x5c\x5cb'" =
        .ok [(.identifier "a", ⟨1, 1⟩), (.text "\x5c\x5cb", ⟨1, 3⟩), (.endOfInput, ⟨1, 8⟩)] ∧
      "\x5c\x5cb".toList.getLast? ≠ some '\x5c' := by
  have free : "\x5c\x22\x5c\x27\né".toList.getLast? ≠ some '\x5c' := by decide
  have written : quotation '\x22' "\x5c\x22\x5c\x27\né" =
      "\x22\x5c\x5c\x22\x5c\x27\né\x22" := by decide
  have first := quotable_without_final_backslash.1 '\x22' _ (.inl rfl) free
  rw [written] at first
  have second : tokenize "a '\x5c\x5cb'" = .ok [(.identifier "a", ⟨1, 1⟩),
      (.text "\x5c\x5cb", ⟨1, 3⟩), (.endOfInput, ⟨1, 8⟩)] := by cbv
  refine ⟨⟨free, written, first.trans rfl⟩, second, ?_⟩
  exact quotable_without_final_backslash.2 _ _ second _ _ (.tail _ (.head _))

end WindowScript
