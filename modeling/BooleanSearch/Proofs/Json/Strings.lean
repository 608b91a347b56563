import BooleanSearch.Json.Lexical
import BooleanSearch.Json.Pretty
import BooleanSearch.Proofs.Text.Quoted

/-!
# Strings of JSON

The reader of strings undoes the writer: of the text of a string in its quotes it takes just that,
whatever follows. What stands in front of a string on a line of its own is white space.
-/

namespace BooleanSearch.Json

theorem hexadecimal_of_lt_thirtyTwo {n : Nat} (h : n < 32) (hge : ¬ n < 16) :
    Text.hexadecimal n = ['1', Nat.digitChar (n - 16)] := by
  revert n
  decide

/-- A control character is read back from its number. -/
theorem stringRest?_number {first second : Char} {a b : Nat}
    (hfirst : Text.hexValue? first = some a) (hsecond : Text.hexValue? second = some b)
    (ha : a < 2) (hb : b < 16) (rest : Text) :
    stringRest? .refused (.number none 0 0) ('0' :: '0' :: first :: second :: rest) =
      (stringRest? .refused .plain rest).map fun (t, rest) =>
        (Char.ofNat (16 * a + b) :: t, rest) := by
  have hzero : Text.hexValue? '0' = some 0 := by decide
  have hlow : ¬ (0xDC00 ≤ 16 * a + b ∧ 16 * a + b ≤ 0xDFFF) := by omega
  have hhigh : ¬ (0xD800 ≤ 16 * a + b ∧ 16 * a + b ≤ 0xDBFF) := by omega
  simp only [stringRest?, hzero, hfirst, hsecond]
  simp [afterNumber?, hlow, hhigh]

theorem stringRest?_escapedChar (c : Char) (rest : Text) :
    stringRest? .refused .plain (escapedChar c ++ rest) =
      (stringRest? .refused .plain rest).map fun (t, rest) => (c :: t, rest) := by
  unfold escapedChar
  split
  case h_8 _ hquote hbackslash _ _ _ _ _ =>
    have hzero : Text.hexValue? '0' = some 0 := by decide
    have hone : Text.hexValue? '1' = some 1 := by decide
    split
    · next hlt =>
      rw [Text.hexadecimal_eq, if_pos hlt]
      have hread := stringRest?_number hzero (Text.hexValue?_digitChar hlt) (by omega) hlt rest
      rw [Nat.mul_zero, Nat.zero_add, Char.ofNat_toNat] at hread
      exact hread
    · next hge =>
      split
      · next hlt =>
        rw [hexadecimal_of_lt_thirtyTwo hlt hge]
        have hdigit : c.toNat - 16 < 16 := by omega
        have hread :=
          stringRest?_number hone (Text.hexValue?_digitChar hdigit) (by omega) hdigit rest
        have hvalue : 16 * 1 + (c.toNat - 16) = c.toNat := by omega
        rw [hvalue, Char.ofNat_toNat] at hread
        exact hread
      · next hge =>
        have hquote' : ¬ c = '"' := hquote
        have hbackslash' : ¬ c = '\\' := hbackslash
        simp [stringRest?, hquote', hbackslash', hge]
  all_goals rfl

/-- Reading a string undoes writing it. -/
theorem stringRest?_flatMap_escapedChar (t rest : Text) :
    stringRest? .refused .plain (t.flatMap escapedChar ++ '"' :: rest) = some (t, rest) := by
  induction t with
  | nil => rfl
  | cons c t ih =>
    rw [List.flatMap_cons, List.append_assoc, stringRest?_escapedChar, ih]
    rfl

theorem skipSpace_newLine_append (level : Nat) (t : Text) :
    skipSpace (newLine level ++ t) = skipSpace t := by
  have hspaces : ∀ c ∈ newLine level, isSpace c = true := by
    intro c hc
    rcases List.mem_cons.mp hc with rfl | hc
    · decide
    · rw [List.eq_of_mem_replicate hc]
      decide
  exact List.dropWhile_append_of_pos hspaces

theorem skipSpace_cons {c : Char} (h : isSpace c = false) (t : Text) :
    skipSpace (c :: t) = c :: t := by
  simp [skipSpace, h]

theorem skipSpace_member (level : Nat) (key t : Text) :
    skipSpace (newLine level ++ (stringText key ++ t)) = stringText key ++ t := by
  rw [skipSpace_newLine_append]
  exact skipSpace_cons (by decide) _

end BooleanSearch.Json
