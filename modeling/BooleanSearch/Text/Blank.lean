import BooleanSearch.Text.Basic

/-!
# Blank characters

Two classes of blank characters are told apart: the five ASCII characters that separate words,
and the characters with the Unicode property White_Space, which are trimmed from a phrase.
-/

namespace BooleanSearch.Text

/-- The ASCII characters that separate words: space, tab, line feed, form feed and carriage
return. The vertical tab is not among them. -/
def isSeparator (c : Char) : Bool :=
  c = ' ' || c = '\t' || c = '\n' || c = '\x0c' || c = '\x0d'

/-- The characters with the Unicode property White_Space. -/
def isBlank (c : Char) : Bool :=
  let n := c.toNat
  (9 ≤ n && n ≤ 13) || n = 0x20 || n = 0x85 || n = 0xA0 || n = 0x1680 ||
  (0x2000 ≤ n && n ≤ 0x200A) || n = 0x2028 || n = 0x2029 || n = 0x202F || n = 0x205F ||
  n = 0x3000

theorem isBlank_of_isSeparator {c : Char} (h : isSeparator c = true) : isBlank c = true := by
  simp only [isSeparator, Bool.or_eq_true, decide_eq_true_eq] at h
  rcases h with (((rfl | rfl) | rfl) | rfl) | rfl <;> decide

/-- The text without the characters of a kind at its two ends. -/
def trimMatches (isTrimmed : Char → Bool) (t : Text) : Text :=
  ((t.dropWhile isTrimmed).reverse.dropWhile isTrimmed).reverse

/-- The text without the blank characters at its two ends. -/
def trim (t : Text) : Text := trimMatches isBlank t

/-- The pieces of a text between separators, empty ones included; always at least one. -/
def pieces : Text → List Text
  | [] => [[]]
  | c :: cs =>
    if isSeparator c then [] :: pieces cs
    else match pieces cs with
      | [] => [[c]]
      | piece :: rest => (c :: piece) :: rest

/-- The words of a text: its maximal runs of characters that are not separators. -/
def words (t : Text) : List Text := (pieces t).filter (fun piece => !piece.isEmpty)

end BooleanSearch.Text
