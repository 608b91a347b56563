import BooleanSearch.Text.Quoted
import Mathlib.Data.List.Basic

/-!
# Reading quoted texts

A reader undoes the escapes of a quoted text one character at a time. No escape is the beginning of
another, and a double quote that stands by itself ends the text, so a quoted text is read back
whatever it holds and whatever follows it.
-/

namespace BooleanSearch.Text

/-- What was read of the escape that a character of a quoted text may be. -/
inductive Escape where
  /-- Nothing: the next character stands for itself, or an escape begins. -/
  | outside
  /-- A backslash. -/
  | begun
  /-- A backslash and the letter of an escape by number. -/
  | named
  /-- The digits of a number so far. -/
  | number (n : Nat)
  deriving DecidableEq, Repr

/-- The character of a short escape. -/
def shortEscape? (c : Char) : Option Char :=
  if c = '0' then some '\x00'
  else if c = 't' then some '\t'
  else if c = 'r' then some '\x0d'
  else if c = 'n' then some '\n'
  else if c = '"' ∨ c = '\\' then some c
  else none

/-- The text up to the double quote that ends it, and what follows that. -/
def unquote? : Escape → Text → Option (Text × Text)
  | _, [] => none
  | .outside, c :: rest =>
    if c = '"' then some ([], rest)
    else if c = '\\' then unquote? .begun rest
    else (unquote? .outside rest).map fun (t, rest) => (c :: t, rest)
  | .begun, c :: rest =>
    if c = 'u' then unquote? .named rest
    else (shortEscape? c).bind fun d =>
      (unquote? .outside rest).map fun (t, rest) => (d :: t, rest)
  | .named, c :: rest => if c = '\x7b' then unquote? (.number 0) rest else none
  | .number n, c :: rest =>
    if c = '\x7d' then
      (unquote? .outside rest).map fun (t, rest) => (Char.ofNat n :: t, rest)
    else (hexValue? c).bind fun digit => unquote? (.number (16 * n + digit)) rest

theorem hexValue?_digitChar {n : Nat} (h : n < 16) : hexValue? (Nat.digitChar n) = some n := by
  revert n
  decide

theorem digitChar_ne_closeBrace {n : Nat} (h : n < 16) : Nat.digitChar n ≠ '\x7d' := by
  revert n
  decide

/-- The hexadecimal digits of a number are those of its sixteenth and a last one. -/
theorem hexadecimal_eq (n : Nat) : hexadecimal n =
    if n < 16 then [Nat.digitChar n]
    else hexadecimal (n / 16) ++ [Nat.digitChar (n % 16)] :=
  Nat.toDigits_eq_if (by decide)

theorem exists_digit_of_mem_hexadecimal {n : Nat} {c : Char} (h : c ∈ hexadecimal n) :
    ∃ digit < 16, c = Nat.digitChar digit := by
  induction n using Nat.strongRecOn with
  | ind n ih =>
    rw [hexadecimal_eq] at h
    by_cases hn : n < 16
    · rw [if_pos hn, List.mem_singleton] at h
      exact ⟨n, hn, h⟩
    · rw [if_neg hn, List.mem_append, List.mem_singleton] at h
      rcases h with hfront | hlast
      · exact ih (n / 16) (by omega) hfront
      · exact ⟨n % 16, Nat.mod_lt n (by decide), hlast⟩

/-- A number is read back digit by digit. -/
theorem unquote?_hexadecimal (n : Nat) (rest : Text) :
    unquote? (.number 0) (hexadecimal n ++ rest) = unquote? (.number n) rest := by
  have hdigit : ∀ (m digit : Nat) (rest : Text), digit < 16 →
      unquote? (.number m) (Nat.digitChar digit :: rest) =
        unquote? (.number (16 * m + digit)) rest := by
    intro m digit rest h
    rw [unquote?, if_neg (digitChar_ne_closeBrace h), hexValue?_digitChar h]
    rfl
  induction n using Nat.strongRecOn generalizing rest with
  | ind n ih =>
    rw [hexadecimal_eq]
    by_cases hn : n < 16
    · rw [if_pos hn, List.singleton_append, hdigit 0 n rest hn, Nat.mul_zero, Nat.zero_add]
    · have hsmaller : n / 16 < n := by omega
      rw [if_neg hn, List.append_assoc, ih (n / 16) hsmaller, List.singleton_append,
        hdigit _ _ _ (Nat.mod_lt n (by decide)), Nat.div_add_mod]

/-- One quoted character is read back. -/
theorem unquote?_quotedChar (c : Char) (rest : Text) :
    unquote? .outside (quotedChar c ++ rest) =
      (unquote? .outside rest).map fun (t, rest) => (c :: t, rest) := by
  unfold quotedChar
  split
  case h_7 _ hquote hbackslash =>
    split
    · simp only [List.append_assoc, List.cons_append, List.nil_append]
      simp only [unquote?, unquote?_hexadecimal, Char.ofNat_toNat]
      rfl
    · have hquote' : ¬ c = '"' := hquote
      have hbackslash' : ¬ c = '\\' := hbackslash
      simp [unquote?, hquote', hbackslash']
  all_goals rfl

/-- Reading a quoted text undoes the quoting. -/
theorem unquote?_flatMap_quotedChar (t rest : Text) :
    unquote? .outside (t.flatMap quotedChar ++ '"' :: rest) = some (t, rest) := by
  induction t with
  | nil => rfl
  | cons c t ih =>
    rw [List.flatMap_cons, List.append_assoc, unquote?_quotedChar, ih]
    rfl

/-- Different texts are quoted in different ways, whatever follows them. -/
theorem quoted_append_inj {t t' rest rest' : Text} (h : quoted t ++ rest = quoted t' ++ rest') :
    t = t' ∧ rest = rest' := by
  have hread : ∀ t rest : Text,
      unquote? .outside ((quoted t ++ rest).drop 1) = some (t, rest) := by
    intro t rest
    rw [← unquote?_flatMap_quotedChar]
    simp [quoted]
  have hsame : some (t, rest) = some (t', rest') := by
    rw [← hread t rest, h, hread]
  simpa using hsame

/-- A quoted text stands on one line. -/
theorem newline_notMem_quoted (t : Text) : '\n' ∉ quoted t := by
  have hdigits : ∀ n, '\n' ∉ hexadecimal n := by
    intro n hmem
    obtain ⟨digit, hlt, heq⟩ := exists_digit_of_mem_hexadecimal hmem
    have hne : ∀ digit < 16, '\n' ≠ Nat.digitChar digit := by decide
    exact hne digit hlt heq
  have hchar : ∀ c, '\n' ∉ quotedChar c := by
    intro c
    unfold quotedChar
    split
    case h_7 _ _ _ hnewline _ _ =>
      split
      · simp [hdigits]
      · simpa using fun heq : '\n' = c => hnewline heq.symm
    all_goals decide
  simp [quoted, hchar]

end BooleanSearch.Text
