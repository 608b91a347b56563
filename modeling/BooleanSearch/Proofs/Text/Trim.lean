import BooleanSearch.Text.Blank
import Mathlib.Data.List.DropRight

/-!
# Trimming

A text is its trimmed form between blank characters, and the trimmed form neither begins nor ends
with one. So blank characters at the ends of a text do not matter to its trimmed form.
-/

namespace BooleanSearch.Text

theorem trim_eq_rdropWhile (t : Text) :
    trim t = (t.dropWhile isBlank).rdropWhile isBlank := rfl

/-- Trimming only takes characters away. -/
theorem trim_sublist (t : Text) : (trim t).Sublist t := by
  have hback : (trim t).Sublist (t.dropWhile isBlank) :=
    (List.rdropWhile_prefix isBlank (t.dropWhile isBlank)).sublist
  exact hback.trans (List.dropWhile_sublist isBlank)

/-- What trimming takes away are characters of the kind at the two ends. -/
theorem exists_trimMatches (isTrimmed : Char → Bool) (t : Text) :
    ∃ front back, t = front ++ trimMatches isTrimmed t ++ back ∧
      (∀ c ∈ front, isTrimmed c = true) ∧ ∀ c ∈ back, isTrimmed c = true := by
  refine ⟨t.takeWhile isTrimmed, (t.dropWhile isTrimmed).rtakeWhile isTrimmed, ?_, ?_, ?_⟩
  · have htrim : trimMatches isTrimmed t = (t.dropWhile isTrimmed).rdropWhile isTrimmed := rfl
    rw [List.append_assoc, htrim, List.rdropWhile_append_rtakeWhile,
      List.takeWhile_append_dropWhile]
  · intro c hc
    exact List.mem_takeWhile_imp hc
  · intro c hc
    exact List.mem_rtakeWhile_imp hc

theorem trim_cons {c : Char} (h : isBlank c = true) (t : Text) : trim (c :: t) = trim t := by
  unfold trim trimMatches
  rw [List.dropWhile_cons_of_pos h]

theorem trim_concat {c : Char} (h : isBlank c = true) (t : Text) :
    trim (t ++ [c]) = trim t := by
  rw [trim_eq_rdropWhile, trim_eq_rdropWhile, List.dropWhile_append]
  split
  · next hempty =>
    rw [List.isEmpty_iff.mp hempty, List.dropWhile_cons_of_pos h]
    rfl
  · rw [List.rdropWhile_concat_pos isBlank _ c h]

theorem head?_trim (t : Text) : ∀ c ∈ (trim t).head?, isBlank c = false := by
  intro c hc
  obtain ⟨rest, hrest⟩ := List.head?_eq_some_iff.mp hc
  obtain ⟨back, hback⟩ := List.rdropWhile_prefix isBlank (t.dropWhile isBlank)
  rw [← trim_eq_rdropWhile, hrest] at hback
  have hfirst := List.head?_dropWhile_not isBlank t
  rw [← hback] at hfirst
  exact hfirst

theorem getLast?_trim (t : Text) : ∀ c ∈ (trim t).getLast?, isBlank c = false := by
  intro c hc
  have hne : trim t ≠ [] := by
    intro hnil
    rw [hnil] at hc
    cases hc
  have hlast : ¬ isBlank ((trim t).getLast hne) = true :=
    List.rdropWhile_last_not isBlank (t.dropWhile isBlank) hne
  rw [List.getLast?_eq_some_getLast hne, Option.mem_some] at hc
  simpa [hc] using hlast

/-- The texts that are their own trimmed form. -/
theorem trim_eq_self_iff {t : Text} :
    trim t = t ↔ (∀ c ∈ t.head?, isBlank c = false) ∧ ∀ c ∈ t.getLast?, isBlank c = false := by
  constructor
  · intro h
    rw [← h]
    exact ⟨head?_trim t, getLast?_trim t⟩
  · rintro ⟨hhead, hlast⟩
    have hfront : t.dropWhile isBlank = t := by
      cases t with
      | nil => rfl
      | cons c t => simp [hhead c rfl]
    rw [trim_eq_rdropWhile, hfront, List.rdropWhile_eq_self_iff]
    intro hne
    simp [hlast (t.getLast hne) (List.getLast?_eq_some_getLast hne)]

/-- Whether a text begins and ends with characters that are not blank. -/
structure IsTrimmed (t : Text) : Prop where
  head : ∃ c ∈ t.head?, isBlank c = false
  last : ∃ c ∈ t.getLast?, isBlank c = false

theorem IsTrimmed.ne_nil {t : Text} (h : IsTrimmed t) : t ≠ [] := by
  rintro rfl
  obtain ⟨c, hc, -⟩ := h.head
  cases hc

/-- A space after such a text is trimmed. -/
theorem IsTrimmed.trim_append_space {t : Text} (h : IsTrimmed t) : trim (t ++ [' ']) = t := by
  obtain ⟨c, hhead, hc⟩ := h.head
  obtain ⟨d, hlast, hd⟩ := h.last
  rw [trim_concat (by decide), trim_eq_self_iff]
  constructor
  · intro c' hc'
    rw [Option.mem_unique hc' hhead, hc]
  · intro d' hd'
    rw [Option.mem_unique hd' hlast, hd]

end BooleanSearch.Text
