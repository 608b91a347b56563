import BooleanSearch.Text.Blank

/-!
# Words of a text

A separator cuts the words of a text into the words before it and the words after it, and a word
holds no separator. Everything else about words follows from these two facts.
-/

namespace BooleanSearch.Text

theorem pieces_ne_nil (t : Text) : pieces t ≠ [] := by
  cases t with
  | nil => simp [pieces]
  | cons c t =>
    rw [pieces]
    split
    · simp
    · split <;> simp

theorem pieces_cons_separator {c : Char} (h : isSeparator c = true) (t : Text) :
    pieces (c :: t) = [] :: pieces t := by
  rw [pieces, if_pos h]

/-- A character that is no separator goes to the front of the first piece. -/
theorem exists_pieces_cons {c : Char} (h : isSeparator c = false) (t : Text) :
    ∃ piece rest, pieces t = piece :: rest ∧ pieces (c :: t) = (c :: piece) :: rest := by
  obtain ⟨piece, rest, ht⟩ := List.exists_cons_of_ne_nil (pieces_ne_nil t)
  refine ⟨piece, rest, ht, ?_⟩
  rw [pieces, if_neg (by simp [h]), ht]

theorem pieces_append_cons {c : Char} (h : isSeparator c = true) (a b : Text) :
    pieces (a ++ c :: b) = pieces a ++ pieces b := by
  induction a with
  | nil => rw [List.nil_append, pieces_cons_separator h]; rfl
  | cons d a ih =>
    rw [List.cons_append]
    cases hd : isSeparator d with
    | true => rw [pieces_cons_separator hd, pieces_cons_separator hd, ih, List.cons_append]
    | false =>
      obtain ⟨piece, rest, ha, hda⟩ := exists_pieces_cons hd a
      obtain ⟨piece', rest', hab, hdab⟩ := exists_pieces_cons hd (a ++ c :: b)
      rw [ih, ha, List.cons_append, List.cons.injEq] at hab
      rw [hdab, hda, List.cons_append, hab.1, hab.2]

/-- Words are cut at a separator. -/
theorem words_append_cons {c : Char} (h : isSeparator c = true) (a b : Text) :
    words (a ++ c :: b) = words a ++ words b := by
  rw [words, pieces_append_cons h, List.filter_append, words, words]

/-- Separators at the front of a text are no part of its words. -/
theorem words_append_left {front : Text} (h : ∀ c ∈ front, isSeparator c = true) (t : Text) :
    words (front ++ t) = words t := by
  induction front with
  | nil => rfl
  | cons c front ih =>
    have hc : words (c :: (front ++ t)) = words [] ++ words (front ++ t) :=
      words_append_cons (h c List.mem_cons_self) [] (front ++ t)
    rw [List.cons_append, hc, ih fun d hd => h d (List.mem_cons_of_mem c hd)]
    rfl

/-- Separators at the end of a text are no part of its words. -/
theorem words_append_right {back : Text} (h : ∀ c ∈ back, isSeparator c = true) (t : Text) :
    words (t ++ back) = words t := by
  cases back with
  | nil => rw [List.append_nil]
  | cons c back =>
    have hback : words (back ++ []) = words [] :=
      words_append_left (fun d hd => h d (List.mem_cons_of_mem c hd)) []
    rw [List.append_nil] at hback
    rw [words_append_cons (h c List.mem_cons_self), hback]
    exact List.append_nil _

theorem of_mem_pieces {t piece : Text} (h : piece ∈ pieces t) :
    ∀ c ∈ piece, isSeparator c = false ∧ c ∈ t := by
  induction t generalizing piece with
  | nil =>
    have hp : piece = [] := by simpa [pieces] using h
    simp [hp]
  | cons d t ih =>
    intro c hc
    cases hd : isSeparator d with
    | true =>
      rw [pieces_cons_separator hd, List.mem_cons] at h
      rcases h with rfl | h
      · cases hc
      · exact ⟨(ih h c hc).1, List.mem_cons_of_mem d (ih h c hc).2⟩
    | false =>
      obtain ⟨first, rest, ht, hdt⟩ := exists_pieces_cons hd t
      rw [hdt, List.mem_cons] at h
      rcases h with rfl | h
      · rcases List.mem_cons.mp hc with rfl | hc
        · exact ⟨hd, List.mem_cons_self⟩
        · have hfirst : first ∈ pieces t := by rw [ht]; exact List.mem_cons_self
          exact ⟨(ih hfirst c hc).1, List.mem_cons_of_mem d (ih hfirst c hc).2⟩
      · have hrest : piece ∈ pieces t := by rw [ht]; exact List.mem_cons_of_mem first h
        exact ⟨(ih hrest c hc).1, List.mem_cons_of_mem d (ih hrest c hc).2⟩

/-- A word is not empty, and its characters are characters of the text but no separators. -/
theorem of_mem_words {t word : Text} (h : word ∈ words t) :
    word ≠ [] ∧ ∀ c ∈ word, isSeparator c = false ∧ c ∈ t := by
  obtain ⟨hpiece, hne⟩ := List.mem_filter.mp h
  refine ⟨?_, of_mem_pieces hpiece⟩
  intro hnil
  simp [hnil] at hne

/-- A text without separators is one word. -/
theorem words_of_unbroken {t : Text} (hne : t ≠ []) (h : ∀ c ∈ t, isSeparator c = false) :
    words t = [t] := by
  have hpieces : pieces t = [t] := by
    clear hne
    induction t with
    | nil => rfl
    | cons c t ih =>
      obtain ⟨piece, rest, ht, hct⟩ := exists_pieces_cons (h c List.mem_cons_self) t
      rw [ih fun d hd => h d (List.mem_cons_of_mem c hd)] at ht
      cases ht
      exact hct
  rw [words, hpieces, List.filter_cons_of_pos (by simpa using hne)]
  rfl

/-- The words of a text are its characters without the separators. -/
theorem flatten_words (t : Text) : (words t).flatten = t.filter fun c => !isSeparator c := by
  have hpieces : (pieces t).flatten = t.filter fun c => !isSeparator c := by
    induction t with
    | nil => rfl
    | cons c t ih =>
      cases hc : isSeparator c with
      | true => rw [pieces_cons_separator hc, List.filter_cons_of_neg (by simp [hc]), ← ih]; rfl
      | false =>
        obtain ⟨piece, rest, ht, hct⟩ := exists_pieces_cons hc t
        rw [hct, List.filter_cons_of_pos (by simp [hc]), ← ih, ht]
        rfl
  rw [words, ← hpieces]
  exact List.flatten_filter_not_isEmpty

theorem takeWhile_append_of_stop {stops : Char → Bool} {piece more : Text}
    (hpiece : ∀ c ∈ piece, stops c = false) (hmore : ∀ c ∈ more.head?, stops c = true) :
    (piece ++ more).takeWhile (fun c => !stops c) = piece := by
  rw [List.takeWhile_append_of_pos (by simpa using hpiece)]
  cases more with
  | nil => simp
  | cons c more => simp [hmore c (by simp)]

/-- A piece that ends where a character stops it is determined by the text that it begins. -/
theorem append_inj_of_stop {stops : Char → Bool} {a b rest rest' : Text}
    (ha : ∀ c ∈ a, stops c = false) (hb : ∀ c ∈ b, stops c = false)
    (hrest : ∀ c ∈ rest.head?, stops c = true) (hrest' : ∀ c ∈ rest'.head?, stops c = true)
    (h : a ++ rest = b ++ rest') : a = b ∧ rest = rest' := by
  have hab : a = b := by
    rw [← takeWhile_append_of_stop ha hrest, h, takeWhile_append_of_stop hb hrest']
  subst hab
  exact ⟨rfl, List.append_cancel_left h⟩

/-- A piece that ends at the first occurrence of a character is determined by the text. -/
theorem append_cons_inj {c : Char} {a b rest rest' : Text} (ha : c ∉ a) (hb : c ∉ b)
    (h : a ++ c :: rest = b ++ c :: rest') : a = b ∧ rest = rest' := by
  have hfree : ∀ {piece : Text}, c ∉ piece → ∀ d ∈ piece, (d == c) = false := by
    intro piece hnot d hd
    exact beq_false_of_ne fun heq => hnot (heq ▸ hd)
  have hstop := append_inj_of_stop (hfree ha) (hfree hb) (by simp) (by simp) h
  exact ⟨hstop.1, (List.cons.inj hstop.2).2⟩

end BooleanSearch.Text
