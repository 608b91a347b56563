import BooleanSearch.Proofs.Text.Trim
import BooleanSearch.Proofs.Text.Words
import BooleanSearch.Query.Token

/-!
# The tokens of a query

A parenthesis or a double quote cuts a query like a separator does and is a token itself. So a word
among the tokens holds none of these characters, whatever the query.
-/

namespace BooleanSearch.Token

/-- The characters that stand alone in a query: each is a token. -/
def standsAlone (c : Char) : Bool := c = '(' || c = ')' || c = '"'

/-- The characters that no word holds. -/
def breaks (c : Char) : Bool := Text.isSeparator c || standsAlone c

/-- The texts that a query can hold as one word. -/
structure IsWord (text : Text) : Prop where
  nonempty : text ≠ []
  unbroken : ∀ c ∈ text, breaks c = false
  ordinary : Operator.ofKeyword? text = none

theorem isWord_iff {text : Text} :
    IsWord text ↔ text ≠ [] ∧ (text.all fun c => !breaks c) = true ∧
      Operator.ofKeyword? text = none := by
  simp only [List.all_eq_true, Bool.not_eq_true']
  constructor
  · rintro ⟨hne, hunbroken, hordinary⟩
    exact ⟨hne, hunbroken, hordinary⟩
  · rintro ⟨hne, hunbroken, hordinary⟩
    exact ⟨hne, hunbroken, hordinary⟩

instance (text : Text) : Decidable (IsWord text) := decidable_of_iff _ isWord_iff.symm

/-- The tokens that a query can hold. -/
def Proper : Token → Prop
  | .word text => IsWord text
  | _ => True

instance : DecidablePred Proper
  | .word text => inferInstanceAs (Decidable (IsWord text))
  | .openParen | .closeParen | .quote | .operator _ => isTrue trivial

theorem IsWord.not_mem {text : Text} (h : IsWord text) {c : Char} (hc : breaks c = true) :
    c ∉ text := by
  intro hmem
  have hfree := h.unbroken c hmem
  rw [hc] at hfree
  cases hfree

theorem spaced_of_not_standsAlone {c : Char} (h : standsAlone c = false) : spaced c = [c] := by
  simp only [standsAlone, Bool.or_eq_false_iff, decide_eq_false_iff_not] at h
  simp [spaced, h]

theorem spaced_of_standsAlone {c : Char} (h : standsAlone c = true) :
    spaced c = [' ', c, ' '] := by
  simp only [standsAlone, Bool.or_eq_true, decide_eq_true_eq, or_assoc] at h
  rw [spaced, if_pos h]

theorem flatMap_spaced {text : Text} (h : ∀ c ∈ text, standsAlone c = false) :
    text.flatMap spaced = text := by
  induction text with
  | nil => rfl
  | cons c text ih =>
    rw [List.flatMap_cons, spaced_of_not_standsAlone (h c List.mem_cons_self),
      ih (fun d hd => h d (List.mem_cons_of_mem c hd)), List.singleton_append]

theorem not_isSeparator_of_standsAlone {c : Char} (h : standsAlone c = true) :
    Text.isSeparator c = false := by
  simp only [standsAlone, Bool.or_eq_true, decide_eq_true_eq] at h
  rcases h with (rfl | rfl) | rfl <;> rfl

theorem not_standsAlone_of_isSeparator {c : Char} (h : Text.isSeparator c = true) :
    standsAlone c = false := by
  by_cases hc : standsAlone c = true
  · rw [not_isSeparator_of_standsAlone hc] at h
    cases h
  · simpa using hc

/-- It changes nothing that the separators at the ends of a query are trimmed first. -/
theorem ofQuery_eq (query : Text) :
    ofQuery query = (Text.words (query.flatMap spaced)).map ofUnit := by
  obtain ⟨front, back, hquery, hfront, hback⟩ := Text.exists_trimMatches Text.isSeparator query
  have hplain : ∀ {text : Text}, (∀ c ∈ text, Text.isSeparator c = true) →
      text.flatMap spaced = text := fun hseparators =>
    flatMap_spaced fun c hc => not_standsAlone_of_isSeparator (hseparators c hc)
  have hwords : Text.words (query.flatMap spaced) =
      Text.words ((Text.trimMatches Text.isSeparator query).flatMap spaced) := by
    conv_lhs => rw [hquery]
    rw [List.flatMap_append, List.flatMap_append, hplain hfront, hplain hback,
      Text.words_append_right hback, Text.words_append_left hfront]
  rw [ofQuery, hwords]

/-- A text without characters that stand alone is cut at its separators only. -/
theorem ofQuery_of_plain {text : Text} (h : ∀ c ∈ text, standsAlone c = false) :
    ofQuery text = (Text.words text).map ofUnit := by
  rw [ofQuery_eq, flatMap_spaced h]

/-- A unit that is no character that stands alone is a keyword or a word. -/
theorem ofUnit_of_plain {unit : Text} (h : ∀ c ∈ unit, standsAlone c = false) :
    ofUnit unit = match Operator.ofKeyword? unit with
      | some op => .operator op
      | none => .word unit := by
  have hne : ∀ c, standsAlone c = true → unit ≠ [c] := by
    rintro c hc rfl
    rw [h c List.mem_cons_self] at hc
    cases hc
  exact (if_neg (hne '(' (by decide))).trans
    ((if_neg (hne ')' (by decide))).trans (if_neg (hne '"' (by decide))))

/-- A text that nothing cuts is one unit. -/
theorem ofQuery_of_unbroken {text : Text} (hne : text ≠ []) (h : ∀ c ∈ text, breaks c = false) :
    ofQuery text = [ofUnit text] := by
  have hplain : ∀ c ∈ text, Text.isSeparator c = false ∧ standsAlone c = false := fun c hc =>
    Bool.or_eq_false_iff.mp (h c hc)
  rw [ofQuery_of_plain fun c hc => (hplain c hc).2,
    Text.words_of_unbroken hne fun c hc => (hplain c hc).1, List.map_singleton]

/-- A word is read as itself. -/
theorem ofQuery_word {text : Text} (h : IsWord text) : ofQuery text = [.word text] := by
  have halone : ∀ c ∈ text, standsAlone c = false := fun c hc =>
    (Bool.or_eq_false_iff.mp (h.unbroken c hc)).2
  rw [ofQuery_of_unbroken h.nonempty h.unbroken, ofUnit_of_plain halone, h.ordinary]

/-- A character that stands alone is a token between those before it and those after it. -/
theorem ofQuery_append_cons {c : Char} (h : standsAlone c = true) (a b : Text) :
    ofQuery (a ++ c :: b) = ofQuery a ++ ofUnit [c] :: ofQuery b := by
  have hc : Text.words [c] = [[c]] := by
    simp only [standsAlone, Bool.or_eq_true, decide_eq_true_eq] at h
    rcases h with (rfl | rfl) | rfl <;> decide
  have hspaced : (a ++ c :: b).flatMap spaced =
      a.flatMap spaced ++ ' ' :: ([c] ++ ' ' :: b.flatMap spaced) := by
    rw [List.flatMap_append, List.flatMap_cons, spaced_of_standsAlone h]
    rfl
  rw [ofQuery_eq, ofQuery_eq, ofQuery_eq, hspaced, Text.words_append_cons (by decide),
    Text.words_append_cons (by decide), hc, List.map_append, List.map_append]
  rfl

/-- A separator cuts a query and is no token. -/
theorem ofQuery_append_separator {c : Char} (h : Text.isSeparator c = true) (a b : Text) :
    ofQuery (a ++ c :: b) = ofQuery a ++ ofQuery b := by
  have halone : standsAlone c = false := not_standsAlone_of_isSeparator h
  have hspaced : (a ++ c :: b).flatMap spaced = a.flatMap spaced ++ c :: b.flatMap spaced := by
    rw [List.flatMap_append, List.flatMap_cons, spaced_of_not_standsAlone halone]
    rfl
  rw [ofQuery_eq, ofQuery_eq, ofQuery_eq, hspaced, Text.words_append_cons h, List.map_append]

/-- A query is cut at each character that no word holds. -/
theorem ofQuery_append_break {c : Char} (h : breaks c = true) (a b : Text) :
    ofQuery (a ++ c :: b) = ofQuery a ++ ofQuery [c] ++ ofQuery b := by
  rcases Bool.or_eq_true_iff.mp h with hseparator | halone
  · have hc : ofQuery [c] = [] := ofQuery_append_separator hseparator [] []
    rw [ofQuery_append_separator hseparator, hc, List.append_nil]
  · have hc : ofQuery [c] = [ofUnit [c]] := ofQuery_append_cons halone [] []
    rw [ofQuery_append_cons halone, hc, List.append_assoc, List.singleton_append]

/-- A query is cut on both sides of each character that no word holds. -/
theorem ofQuery_append {a b : Text}
    (h : (∃ c ∈ a.getLast?, breaks c = true) ∨ ∃ c ∈ b.head?, breaks c = true) :
    ofQuery (a ++ b) = ofQuery a ++ ofQuery b := by
  rcases h with ⟨c, hlast, hc⟩ | ⟨c, hhead, hc⟩
  · obtain ⟨front, rfl⟩ := List.getLast?_eq_some_iff.mp hlast
    have hfront : ofQuery (front ++ [c]) = ofQuery front ++ ofQuery [c] := by
      rw [ofQuery_append_break hc]
      exact List.append_nil _
    rw [hfront, List.append_assoc, List.singleton_append, ofQuery_append_break hc]
  · obtain ⟨rest, rfl⟩ := List.head?_eq_some_iff.mp hhead
    have hrest : ofQuery (c :: rest) = ofQuery [c] ++ ofQuery rest :=
      ofQuery_append_break hc [] rest
    rw [ofQuery_append_break hc, hrest, List.append_assoc]

/-- Every query is a plain text, or a plain text, a character that stands alone, and a query. -/
theorem query_induction {motive : Text → Prop}
    (plain : ∀ text, (∀ c ∈ text, standsAlone c = false) → motive text)
    (alone : ∀ text c query, (∀ d ∈ text, standsAlone d = false) → standsAlone c = true →
      motive query → motive (text ++ c :: query)) :
    ∀ query, motive query := by
  intro query
  induction hn : query.length using Nat.strongRecOn generalizing query with
  | _ n ih =>
    have hplain := List.all_takeWhile (p := fun c => !standsAlone c) (l := query)
    simp only [List.all_eq_true, Bool.not_eq_true'] at hplain
    cases hdrop : query.dropWhile (fun c => !standsAlone c) with
    | nil =>
      rw [← List.takeWhile_append_dropWhile (p := fun c => !standsAlone c) (l := query), hdrop,
        List.append_nil]
      exact plain _ hplain
    | cons c rest =>
      have hquery : query.takeWhile (fun c => !standsAlone c) ++ c :: rest = query := by
        rw [← hdrop, List.takeWhile_append_dropWhile]
      have hlength := congrArg List.length hquery
      rw [List.length_append, List.length_cons] at hlength
      have hhead := List.head_dropWhile_not (p := fun c => !standsAlone c) (l := query)
        (by simp [hdrop])
      rw [← hquery]
      refine alone _ c rest hplain (by simpa [hdrop] using hhead) ?_
      exact ih rest.length (by omega) rest rfl

theorem proper_ofUnit {unit : Text} (hne : unit ≠ []) (h : ∀ c ∈ unit, breaks c = false) :
    (ofUnit unit).Proper := by
  rw [ofUnit_of_plain fun c hc => (Bool.or_eq_false_iff.mp (h c hc)).2]
  cases hkey : Operator.ofKeyword? unit with
  | some op => trivial
  | none => exact ⟨hne, h, hkey⟩

theorem proper_of_mem_plain {text : Text} (hplain : ∀ c ∈ text, standsAlone c = false)
    {token : Token} (h : token ∈ ofQuery text) : token.Proper := by
  rw [ofQuery_of_plain hplain, List.mem_map] at h
  obtain ⟨unit, hunit, rfl⟩ := h
  obtain ⟨hne, hchars⟩ := Text.of_mem_words hunit
  apply proper_ofUnit hne
  intro c hc
  rw [breaks, (hchars c hc).1, hplain c (hchars c hc).2]
  rfl

/-- Every token of a query is one that a query can hold. -/
theorem proper_of_mem_ofQuery {query : Text} {token : Token} (h : token ∈ ofQuery query) :
    token.Proper := by
  induction query using query_induction with
  | plain text hplain => exact proper_of_mem_plain hplain h
  | alone text c rest hplain hc ih =>
    rw [ofQuery_append_cons hc, List.mem_append, List.mem_cons] at h
    rcases h with h | rfl | h
    · exact proper_of_mem_plain hplain h
    · simp only [standsAlone, Bool.or_eq_true, decide_eq_true_eq] at hc
      rcases hc with (rfl | rfl) | rfl <;> trivial
    · exact ih h

/-- A unit of a query is the text of the token that it is. -/
theorem text_ofUnit (unit : Text) : (ofUnit unit).text = unit := by
  unfold ofUnit
  split
  · next h => exact h.symm
  · split
    · next h => exact h.symm
    · split
      · next h => exact h.symm
      · split
        · next op hop => exact Operator.keyword_of_ofKeyword? hop
        · rfl

/-- The tokens of a query are its characters without the separators. -/
theorem flatMap_text_ofQuery (query : Text) :
    (ofQuery query).flatMap text = query.filter fun c => !Text.isSeparator c := by
  have htext : text ∘ ofUnit = id := funext text_ofUnit
  induction query using query_induction with
  | plain words hplain =>
    rw [ofQuery_of_plain hplain, List.flatMap_def, List.map_map, htext, List.map_id,
      Text.flatten_words]
  | alone words c rest hplain hc ih =>
    have hkept : Text.isSeparator c = false := not_isSeparator_of_standsAlone hc
    rw [ofQuery_append_cons hc, List.flatMap_append, List.flatMap_cons, ih, text_ofUnit,
      ofQuery_of_plain hplain, List.flatMap_def, List.map_map, htext, List.map_id,
      Text.flatten_words, List.filter_append, List.filter_cons_of_pos (by simp [hkept])]
    rfl

/-- What stands in a token of a query stands in the query and is no separator. -/
theorem of_mem_text {query : Text} {token : Token} {c : Char} (h : token ∈ ofQuery query)
    (hc : c ∈ token.text) : c ∈ query ∧ Text.isSeparator c = false := by
  have hmem : c ∈ (ofQuery query).flatMap text := List.mem_flatMap.mpr ⟨token, h, hc⟩
  rw [flatMap_text_ofQuery] at hmem
  simpa using hmem

theorem Proper.text_ne_nil {token : Token} (h : token.Proper) : token.text ≠ [] := by
  cases token with
  | word text => exact h.nonempty
  | operator op => cases op <;> nofun
  | openParen | closeParen | quote => nofun

end BooleanSearch.Token
