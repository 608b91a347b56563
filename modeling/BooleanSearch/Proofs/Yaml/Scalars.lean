import BooleanSearch.Yaml.Plain
import BooleanSearch.Yaml.Quoted
import BooleanSearch.Yaml.Rendering
import Mathlib.Data.List.Basic

/-!
# Scalars of one line

A text of one line that needs no escape is written plain or in single quotes, and either way it is
read back as itself.
-/

namespace BooleanSearch.Yaml

variable {t gap after rest : Text} {c : Char}

/-- Whether a text stands in one line and needs no escape. -/
def IsLine (t : Text) : Prop := ∀ c ∈ t, isPrintable c = true ∧ isBreak c = false

theorem IsLine.cons_iff : IsLine (c :: t) ↔ (isPrintable c = true ∧ isBreak c = false) ∧ IsLine t :=
  List.forall_mem_cons

theorem isGap_iff (h : isPrintable c = true) : isGap c = true ↔ c = ' ' := by
  constructor
  · intro hgap
    rcases (by simpa [isGap] using hgap : c = ' ' ∨ c = '\t') with rfl | rfl
    · rfl
    · exact absurd h (by decide)
  · rintro rfl
    rfl

theorem hasNeighbours_of_append {first second : Char → Bool} :
    ∀ {t : Text}, hasNeighbours first second (t ++ rest) = false →
      hasNeighbours first second rest = false
  | [], h => h
  | [c], h => by
    cases rest with
    | nil => rfl
    | cons d rest => exact (Bool.or_eq_false_iff.mp h).2
  | c :: d :: t, h => hasNeighbours_of_append (t := d :: t) (Bool.or_eq_false_iff.mp h).2

/-- What a text must be like to be written plain. -/
structure FitsPlain (t : Text) : Prop where
  isLine : IsLine t
  head : t.head? ≠ some ' '
  last : t.getLast? ≠ some ' '
  noBound : t.take 3 ≠ ['-', '-', '-'] ∧ t.take 3 ≠ ['.', '.', '.']
  noSign : ∀ c, t.head? = some c → isLeadingSign c = false
  noMark : t.head? = some '?' ∨ t.head? = some '-' → atWordEnd t.tail = false
  noColon : endsWordWithColon t = false
  noComment : hasNeighbours isSpaceChar (· = '#') t = false

theorem FitsPlain.of_fitsPlain (h : fitsPlain t = true) : FitsPlain t := by
  simp only [fitsPlain, Bool.and_eq_true, Bool.not_eq_true', decide_eq_true_eq, ne_eq,
    decide_not, List.all_eq_true, Bool.or_eq_false_iff, decide_eq_false_iff_not,
    List.any_eq_false, Bool.and_eq_false_imp, Bool.or_eq_true] at h
  obtain ⟨⟨⟨⟨⟨⟨⟨⟨hprint, hbreak⟩, hhead⟩, hlast⟩, hbound⟩, hsign⟩, hmark⟩, hcolon⟩, hcomment⟩ := h
  refine ⟨fun c hc => ⟨hprint c hc, by simpa using hbreak c hc⟩, hhead, hlast, hbound, ?_, hmark,
    hcolon, hcomment⟩
  intro c hc
  simpa [hc] using hsign

section Plain

variable {margin column : Nat}

theorem plain?_space :
    plain? false margin column (.within gap) (' ' :: rest) =
      plain? false margin (column + 1) (.within (gap ++ [' '])) rest := by
  simp [plain?, isBreak, isGap, Space.add]

/-- A character is read, with the white space that was kept back before it, unless it starts a
comment or ends a key. -/
theorem plain?_char (hbreak : isBreak c = false) (hgap : isGap c = false)
    (hstays : gap = [] ∨ (margin ≤ column ∧ 0 < column ∧ c ≠ '#'))
    (hkey : atKeyEnd (c :: rest) = false) :
    plain? false margin column (.within gap) (c :: rest) =
      (plain? false margin (column + 1) .empty rest).map (PlainScalar.prepend (gap ++ [c])) := by
  rw [plain?, hbreak, hgap, hkey]
  rcases hstays with rfl | ⟨hmargin, hcolumn, hsign⟩
  · simp [Space.isEmpty, Space.text]
  · simp [Space.text, hsign, Nat.not_lt.mpr hmargin, Nat.pos_iff_ne_zero.mp hcolumn]

theorem atKeyEnd_append (h : endsWordWithColon (c :: t) = false) :
    atKeyEnd (c :: (t ++ rest)) = false := by
  by_cases hc : c = ':'
  · subst hc
    cases t with
    | nil => simp [endsWordWithColon, atWordEnd] at h
    | cons d t => simpa [atKeyEnd, atWordEnd] using (Bool.or_eq_false_iff.mp h).1
  · simp [atKeyEnd, hc]

/-- A plain scalar of one line is read as itself, up to what follows it. White space within it is
kept back until a further character is met. -/
theorem plain?_append (hmargin : margin ≤ 1) (hgap : ∀ c ∈ gap, c = ' ')
    (hcolumn : gap.length ≤ column) (hline : IsLine t) (hcolon : endsWordWithColon t = false)
    (hcomment : hasNeighbours isSpaceChar (· = '#') (gap ++ t) = false)
    (hlast : (gap ++ t).getLast? ≠ some ' ') :
    plain? false margin column (.within gap) (t ++ after) =
      (plain? false margin (column + t.length) .empty after).map
        (PlainScalar.prepend (gap ++ t)) := by
  induction t generalizing gap column with
  | nil =>
    have hnone : gap = [] := by
      by_contra hne
      rw [List.append_nil, List.getLast?_eq_some_getLast hne] at hlast
      exact hlast (congrArg some (hgap _ (List.getLast_mem hne)))
    subst hnone
    have hid : PlainScalar.prepend [] = id := rfl
    simp [hid, Space.empty]
  | cons c t ih =>
    rw [IsLine.cons_iff] at hline
    obtain ⟨⟨hprint, hbreak⟩, hline⟩ := hline
    have hcolons : endsWordWithColon t = false := (Bool.or_eq_false_iff.mp hcolon).2
    have hlength : column + (c :: t).length = column + 1 + t.length := by
      rw [List.length_cons]
      omega
    rw [List.cons_append, hlength]
    by_cases hspace : c = ' '
    · subst hspace
      rw [plain?_space, ih (by simpa [or_imp, forall_and] using hgap) (by simpa using hcolumn) hline
        hcolons (by simpa using hcomment) (by simpa using hlast), List.append_assoc]
      rfl
    · have hnogap : isGap c = false := by
        rw [← Bool.not_eq_true, isGap_iff hprint]
        exact hspace
      have hstays : gap = [] ∨ (margin ≤ column ∧ 0 < column ∧ c ≠ '#') := by
        rcases List.eq_nil_or_concat gap with rfl | ⟨spaces, d, rfl⟩
        · exact .inl rfl
        · have hd : d = ' ' := hgap d (by simp)
          have hlater : 0 < column := by simp at hcolumn; omega
          refine .inr ⟨by omega, hlater, ?_⟩
          rintro rfl
          have htwo : hasNeighbours isSpaceChar (· = '#') (d :: '#' :: t) = false :=
            hasNeighbours_of_append (t := spaces) (by simpa using hcomment)
          simp [hasNeighbours, isSpaceChar, hd] at htwo
      have hlater : t.getLast? ≠ some ' ' := by
        cases t with
        | nil => simp
        | cons d t => simpa using hlast
      have hcomments : hasNeighbours isSpaceChar (· = '#') t = false :=
        hasNeighbours_of_append (t := gap ++ [c]) (by simpa using hcomment)
      have hmore : plain? false margin (column + 1) .empty (t ++ after) =
          (plain? false margin (column + 1 + t.length) .empty after).map (PlainScalar.prepend t) :=
        ih (by simp) (by simp) hline hcolons hcomments hlater
      rw [plain?_char hbreak hnogap hstays (atKeyEnd_append hcolon), hmore, Option.map_map]
      congr 1
      funext scalar
      simp [PlainScalar.prepend]

theorem FitsPlain.plain?_append (h : FitsPlain t) (hmargin : margin ≤ 1) :
    plain? false margin column .empty (t ++ after) =
      (plain? false margin (column + t.length) .empty after).map (PlainScalar.prepend t) :=
  Yaml.plain?_append hmargin (by simp) (by simp) h.isLine h.noColon h.noComment h.last

end Plain

/-- Whether a text, which stands at the start of a line, starts with a word. -/
def StartsWord : Text → Prop
  | [] => True
  | c :: _ => isBreak c = false ∧ isGap c = false ∧ c ≠ '#'

theorem FitsPlain.startsWord (h : FitsPlain t) (hne : t ≠ []) : StartsWord (t ++ rest) := by
  cases t with
  | nil => exact absurd rfl hne
  | cons c t =>
    obtain ⟨hprint, hbreak⟩ := h.isLine c (by simp)
    refine ⟨hbreak, ?_, ?_⟩
    · rw [← Bool.not_eq_true, isGap_iff hprint]
      rintro rfl
      exact h.head rfl
    · rintro rfl
      exact absurd (h.noSign _ rfl) (by decide)

theorem take_three_of_append (hne : t ≠ []) (hrest : rest.head? ≠ some c)
    (h : t ++ rest = c :: c :: c :: after) : t.take 3 = [c, c, c] := by
  rcases t with _ | ⟨x, _ | ⟨y, _ | ⟨z, t⟩⟩⟩
  · exact absurd rfl hne
  all_goals simp_all

theorem FitsPlain.noDocumentBound (h : FitsPlain t) (hne : t ≠ [])
    (hrest : rest.head? = some ':' ∨ rest.head? = some '\n') :
    atDocumentStart (t ++ rest) = false ∧ atDocumentEnd (t ++ rest) = false := by
  have hdash : rest.head? ≠ some '-' := by rcases hrest with h | h <;> simp [h]
  have hpoint : rest.head? ≠ some '.' := by rcases hrest with h | h <;> simp [h]
  constructor
  · unfold atDocumentStart
    split
    · next after heq => exact absurd (take_three_of_append hne hdash heq) h.noBound.1
    · rfl
  · unfold atDocumentEnd
    split
    · next after heq => exact absurd (take_three_of_append hne hpoint heq) h.noBound.2
    · rfl

theorem atWordEnd_append (h : atWordEnd t = false) : atWordEnd (t ++ rest) = false := by
  cases t with
  | nil => cases h
  | cons c t => exact h

theorem plain?_colon {margin column : Nat} :
    plain? false margin column .empty (':' :: ' ' :: rest) =
      some ⟨[], ':' :: ' ' :: rest, false⟩ := by
  simp [plain?, isBreak, isGap, Space.empty, Space.isEmpty, Space.isAcross, atKeyEnd, atWordEnd]

theorem plain?_newLine {column : Nat} (h : StartsWord rest) :
    plain? false 1 column .empty ('\n' :: rest) = some ⟨[], rest, true⟩ := by
  have hbreak : isBreak '\n' = true := by decide
  cases rest with
  | nil => simp [plain?, hbreak, Space.empty, Space.add, Space.isAcross]
  | cons c rest =>
    obtain ⟨hc, hgap, -⟩ := h
    simp [plain?, hbreak, hc, hgap, Space.empty, Space.add, Space.isAcross, Space.isEmpty]

theorem singleQuotedBody_cons (hbreak : isBreak c = false) (hquote : c ≠ '\'') :
    singleQuotedBody false (c :: t) = c :: singleQuotedBody false t := by
  simp [singleQuotedBody, hbreak, hquote]

/-- A scalar in single quotes is read as the text that it was written for. -/
theorem singleQuoted?_append (hline : IsLine t) (hrest : rest.head? ≠ some '\'') :
    singleQuoted? (.within gap) false (singleQuotedBody false t ++ '\'' :: rest) =
      some (gap ++ t, rest) := by
  induction t generalizing gap with
  | nil =>
    cases rest with
    | nil => simp [singleQuotedBody, singleQuoted?, isGap, isBreak, Space.text]
    | cons d rest =>
      have hd : d ≠ '\'' := by simpa using hrest
      simp [singleQuotedBody, singleQuoted?, isGap, isBreak, Space.text, hd]
  | cons c t ih =>
    rw [IsLine.cons_iff] at hline
    obtain ⟨⟨hprint, hbreak⟩, hline⟩ := hline
    have hempty : Space.empty = .within [] := rfl
    by_cases hquote : c = '\''
    · subst hquote
      simp [singleQuotedBody, singleQuoted?, isGap, isBreak, hempty, ih hline, Space.text]
    by_cases hspace : c = ' '
    · subst hspace
      rw [singleQuotedBody_cons hbreak hquote, List.cons_append, singleQuoted?.eq_def]
      simp [isGap, isBreak, Space.add, ih hline]
    · have hnogap : isGap c = false := by
        rw [← Bool.not_eq_true, isGap_iff hprint]
        exact hspace
      rw [singleQuotedBody_cons hbreak hquote, List.cons_append, singleQuoted?.eq_def]
      simp [hbreak, hnogap, hquote, hempty, ih hline, Space.text]

/-- How a text of one line is written: plain, or in single quotes. -/
inductive IsScalar : Text → Style → Text → Prop where
  | plain {t : Text} (ne_nil : t ≠ []) (fits : FitsPlain t) : IsScalar t .plain t
  | singleQuoted {t : Text} (isLine : IsLine t) :
    IsScalar ('\'' :: singleQuotedBody false t ++ ['\'']) .singleQuoted t

theorem IsLine.singleQuotedBody (h : IsLine t) : IsLine (Yaml.singleQuotedBody false t) := by
  induction t with
  | nil => exact h
  | cons c t ih =>
    rw [IsLine.cons_iff] at h
    obtain ⟨hc, ht⟩ := h
    by_cases hquote : c = '\''
    · subst hquote
      exact IsLine.cons_iff.mpr ⟨hc, IsLine.cons_iff.mpr ⟨hc, ih ht⟩⟩
    · rw [singleQuotedBody_cons hc.2 hquote]
      exact IsLine.cons_iff.mpr ⟨hc, ih ht⟩

section IsScalar

variable {written : Text} {style : Style}

theorem IsScalar.isLine (h : IsScalar written style t) : IsLine written := by
  cases h with
  | plain hne hfits => exact hfits.isLine
  | singleQuoted hline =>
    have hquote : isPrintable '\'' = true ∧ isBreak '\'' = false := by decide
    simpa [IsLine, or_imp, forall_and, hquote] using hline.singleQuotedBody

theorem IsScalar.startsWord (h : IsScalar written style t) : StartsWord (written ++ rest) := by
  cases h with
  | plain hne hfits => exact hfits.startsWord hne
  | singleQuoted hline => exact ⟨by decide, by decide, by decide⟩

end IsScalar

theorem hasNeighbours_eq_false {first second : Char → Bool} {t : Text}
    (h : (∀ c ∈ t, first c = false) ∨ ∀ c ∈ t, second c = false) :
    hasNeighbours first second t = false := by
  induction t with
  | nil => rfl
  | cons c t ih =>
    cases t with
    | nil => rfl
    | cons d t =>
      have hpair : (first c && second d) = false := by
        rcases h with h | h
        · simp [h c (by simp)]
        · simp [h d (by simp)]
      have hrest : (∀ e ∈ d :: t, first e = false) ∨ ∀ e ∈ d :: t, second e = false :=
        h.imp (fun h e he => h e (by simp [he])) (fun h e he => h e (by simp [he]))
      rw [hasNeighbours, hpair, ih hrest]
      rfl

/-- A text of one line that needs no escape is written plain or in single quotes. -/
theorem IsLine.renderText (h : IsLine t) : ∃ style, IsScalar (Yaml.renderText t) style t := by
  have hfeed : '\n' ∉ t := fun hmem => absurd (h _ hmem).2 (by decide)
  have hquoted : fitsSingleQuoted t = true := by
    have hprint : t.all isPrintable = true := List.all_eq_true.mpr fun c hc => (h c hc).1
    simp [fitsSingleQuoted, hprint, hasNeighbours_eq_false (.inr fun c hc => (h c hc).2),
      hasNeighbours_eq_false (.inl fun c hc => (h c hc).2)]
  cases hplain : !isAmbiguous t && fitsPlain t with
  | true =>
    obtain ⟨hclear, hfits⟩ := Bool.and_eq_true_iff.mp hplain
    have hstyle : Style.ofText t = .plain := by simp [Style.ofText, hfeed, hplain]
    refine ⟨.plain, ?_⟩
    rw [Yaml.renderText, hstyle]
    refine .plain ?_ (.of_fitsPlain hfits)
    rintro rfl
    cases hclear
  | false =>
    have hstyle : Style.ofText t = .singleQuoted := by simp [Style.ofText, hfeed, hplain, hquoted]
    refine ⟨.singleQuoted, ?_⟩
    rw [Yaml.renderText, hstyle]
    exact .singleQuoted h

end BooleanSearch.Yaml
