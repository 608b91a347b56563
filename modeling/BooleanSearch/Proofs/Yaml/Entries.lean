import BooleanSearch.Proofs.Yaml.Scalars
import BooleanSearch.Yaml.Lexer

/-!
# Words of a mapping

A mapping whose entries are scalars in lines of their own is read word by word: for each entry its
key and its value, and before and after them all the words that open and close the mapping.
-/

namespace BooleanSearch.Yaml

/-- An entry of a mapping in a line of its own. -/
structure ScalarEntry where
  key : Text
  /-- The value as it is written. -/
  written : Text
  style : Style
  text : Text
  key_ne_nil : key ≠ []
  key_fits : FitsPlain key
  key_short : key.length ≤ 1024
  value : IsScalar written style text

namespace ScalarEntry

/-- The line of an entry. -/
def line (entry : ScalarEntry) : Text := entry.key ++ ':' :: ' ' :: (entry.written ++ ['\n'])

/-- The words of an entry. -/
def words (entry : ScalarEntry) : List Token :=
  [.key, .scalar .plain entry.key, .value, .scalar entry.style entry.text]

end ScalarEntry

theorem startsWord_lines (entries : List ScalarEntry) :
    StartsWord (entries.flatMap ScalarEntry.line) := by
  cases entries with
  | nil => trivial
  | cons entry entries =>
    rw [List.flatMap_cons, ScalarEntry.line, List.append_assoc]
    exact entry.key_fits.startsWord entry.key_ne_nil

namespace Lexer

variable {l next : Lexer} {t rest key written text : Text} {style : Style} {line column : Nat}
  {tokens : List Token}

theorem advance_append (hrest : l.rest = t ++ rest) (ht : IsLine t) :
    l.advance t.length = { l with rest := rest, column := l.column + t.length } := by
  induction t generalizing l with
  | nil =>
    cases l
    cases hrest
    rfl
  | cons c t ih =>
    rw [IsLine.cons_iff] at ht
    rw [List.length_cons, advance, hrest]
    simp only [List.cons_append, ht.1.2]
    rw [ih rfl ht.2]
    simp [Nat.add_comm, Nat.add_left_comm]

theorem moveTo_append (hrest : l.rest = t ++ rest) (ht : IsLine t) :
    l.moveTo rest = { l with rest := rest, column := l.column + t.length } := by
  rw [moveTo, hrest, List.length_append, Nat.add_sub_cancel, advance_append hrest ht]

theorem advance_add (m n : Nat) (l : Lexer) : l.advance (m + n) = (l.advance m).advance n := by
  induction m generalizing l with
  | zero => rw [Nat.zero_add, advance]
  | succ m ih =>
    rw [Nat.succ_add, advance]
    cases hrest : l.rest with
    | nil =>
      have hstays : ∀ n, l.advance n = l := by
        intro n
        cases n with
        | zero => rfl
        | succ n => simp [advance, hrest]
      rw [hstays, hstays]
    | cons c rest => simp only [ih, advance, hrest]

theorem moveTo_nextLine (hrest : l.rest = t ++ '\n' :: rest) (ht : IsLine t) :
    l.moveTo rest = { l with rest := rest, line := l.line + 1, column := 0 } := by
  have hlength : l.rest.length - rest.length = t.length + 1 := by
    rw [hrest, List.length_append, List.length_cons]
    omega
  rw [moveTo, hlength, advance_add, advance_append hrest ht]
  simp [advance, isBreak]

theorem skipSpace_go {keyAllowed : Bool} (h : StartsWord rest) :
    skipSpace.go l keyAllowed false line column rest =
      { l with rest := rest, line := line, column := column, keyAllowed := keyAllowed } := by
  cases rest with
  | nil => rfl
  | cons c rest =>
    obtain ⟨hbreak, hgap, hsign⟩ := h
    obtain ⟨hspace, htab⟩ : c ≠ ' ' ∧ c ≠ '\t' := by simpa [isGap] using hgap
    simp [skipSpace.go, hbreak, hspace, htab, hsign]

theorem skipSpace_of_startsWord (h : StartsWord l.rest) : l.skipSpace = l := skipSpace_go h

theorem skipSpace_space (hrest : l.rest = ' ' :: rest) (h : StartsWord rest) :
    l.skipSpace = { l with rest := rest, column := l.column + 1 } := by
  rw [skipSpace, hrest, skipSpace.go]
  exact skipSpace_go h

theorem skipSpace_newLine (hrest : l.rest = '\n' :: rest) (h : StartsWord rest)
    (hflow : l.outerPlaces = []) :
    l.skipSpace = { l with rest := rest, line := l.line + 1, column := 0, keyAllowed := true } := by
  rw [skipSpace, hrest, skipSpace.go]
  have hallowed : (l.keyAllowed || !l.inFlow) = true := by simp [inFlow, hflow]
  rw [hallowed]
  exact skipSpace_go h

/-- The lexer within an entry of a mapping, which may be the first one. -/
def inEntry (isFirst : Bool) (line column : Nat) (tokens : List Token) (keyAllowed : Bool)
    (place : Option KeyPlace) (rest : Text) : Lexer :=
  ⟨rest, line, column, tokens, if isFirst then -1 else 0, if isFirst then [] else [-1], keyAllowed,
    place, []⟩

section InEntry

variable {isFirst keyAllowed : Bool} {place : Option KeyPlace}

theorem closeTo_inEntry :
    (inEntry isFirst line column tokens keyAllowed place rest).closeTo column =
      inEntry isFirst line column tokens keyAllowed place rest := by
  cases isFirst <;> simp [inEntry, closeTo, closed, inFlow]

theorem forgetPassed?_inEntry (h : ∀ p, place = some p → p.isPassed line column = false) :
    (inEntry isFirst line column tokens keyAllowed place rest).forgetPassed? =
      some (inEntry isFirst line column tokens keyAllowed place rest) := by
  cases place with
  | none => rfl
  | some p =>
    simp [forgetPassed?, inEntry, stillOpen?, h p rfl]

/-- A step of reading within an entry. -/
theorem words?_inEntry {steps : Nat}
    (hskip : l.skipSpace = inEntry isFirst line column tokens keyAllowed place rest)
    (hplace : ∀ p, place = some p → p.isPassed line column = false) (hrest : rest ≠ [])
    (hword : (inEntry isFirst line column tokens keyAllowed place rest).word? = some next) :
    words? (steps + 1) l = words? steps next := by
  have hsome : (inEntry isFirst line column tokens keyAllowed place rest).rest.isEmpty = false := by
    simpa [inEntry] using hrest
  rw [words?, hskip, forgetPassed?_inEntry hplace]
  simp only [bind, Option.bind, hsome]
  have hclose : (inEntry isFirst line column tokens keyAllowed place rest).closeTo
      (inEntry isFirst line column tokens keyAllowed place rest).column =
      inEntry isFirst line column tokens keyAllowed place rest := closeTo_inEntry
  rw [hclose, hword]
  rfl

/-- No other word starts like a plain text. -/
theorem word?_eq_plainWord? (hfits : FitsPlain t) (hne : t ≠ []) (hrest : l.rest = t ++ rest)
    (hafter : rest.head? = some ':' ∨ rest.head? = some '\n') (hflow : l.inFlow = false) :
    l.word? = l.plainWord? := by
  obtain ⟨hstart, hend⟩ := hfits.noDocumentBound hne hafter
  cases t with
  | nil => exact absurd rfl hne
  | cons c t =>
    have hsign := hfits.noSign c rfl
    have hstarts : StartsWord (c :: t ++ rest) := hfits.startsWord hne
    have hgap : isGap c = false := hstarts.2.1
    have hword : c = '-' ∨ c = '?' ∨ c = ':' → atWordEnd (t ++ rest) = false := by
      intro hc
      refine atWordEnd_append ?_
      rcases hc with rfl | rfl | rfl
      · exact hfits.noMark (.inr rfl)
      · exact hfits.noMark (.inl rfl)
      · simpa using (Bool.or_eq_false_iff.mp hfits.noColon).1
    simp only [isLeadingSign, List.mem_cons, decide_eq_false_iff_not, not_or] at hsign
    rw [List.cons_append] at hrest hstart hend
    rw [word?, hrest]
    have hdash : (decide (c = '-') && atWordEnd (t ++ rest)) = false := by
      simpa using fun hc => hword (.inl hc)
    have hmark : (decide (c = '?') && (l.inFlow || atWordEnd (t ++ rest))) = false := by
      simpa [hflow] using fun hc => hword (.inr (.inl hc))
    have hcolon : (decide (c = ':') && (l.inFlow || atWordEnd (t ++ rest))) = false := by
      simpa [hflow] using fun hc => hword (.inr (.inr hc))
    simp [hsign, hstart, hend, hdash, hmark, hcolon, hgap, isSign]

theorem plainWord?_eq {after : Text} {endsLine : Bool} (hremember : l.rememberPlace? = some next)
    (hfits : FitsPlain t) (hrest : next.rest = t ++ after) (hindent : next.indent ≤ 0)
    (hflow : next.inFlow = false)
    (hafter : plain? false (next.indent + 1).toNat (next.column + t.length) .empty after =
      some ⟨[], rest, endsLine⟩) :
    l.plainWord? =
      some { (next.moveTo rest).push (.scalar .plain t) with keyAllowed := endsLine } := by
  have hmargin : (next.indent + 1).toNat ≤ 1 := by omega
  have hplain : plain? false (next.indent + 1).toNat next.column .empty (t ++ after) = _ :=
    hfits.plain?_append hmargin
  rw [hafter] at hplain
  simp [plainWord?, hremember, hflow, hrest, hplain, PlainScalar.prepend]

theorem quotedWord?_eq (hremember : l.rememberPlace? = some next) (hline : IsLine t)
    (hrest : next.rest = '\'' :: (singleQuotedBody false t ++ '\'' :: rest))
    (hafter : rest.head? ≠ some '\'') :
    l.quotedWord? .singleQuoted =
      some { (next.moveTo rest).push (.scalar .singleQuoted t) with keyAllowed := false } := by
  have hread : singleQuoted? .empty false next.rest.tail = some (t, rest) := by
    rw [hrest]
    exact singleQuoted?_append hline hafter
  simp [quotedWord?, hremember, hread]

theorem word?_key (hne : key ≠ []) (hfits : FitsPlain key) :
    (inEntry isFirst line 0 tokens true none (key ++ ':' :: ' ' :: rest)).word? =
      some (inEntry isFirst line key.length (tokens ++ [.scalar .plain key]) false
        (some ⟨tokens.length, line, 0, !isFirst⟩) (':' :: ' ' :: rest)) := by
  have hremember :
      (inEntry isFirst line 0 tokens true none (key ++ ':' :: ' ' :: rest)).rememberPlace? =
      some (inEntry isFirst line 0 tokens true (some ⟨tokens.length, line, 0, !isFirst⟩)
        (key ++ ':' :: ' ' :: rest)) := by
    cases isFirst <;> rfl
  have hindent : (if isFirst then -1 else 0 : Int) ≤ 0 := by cases isFirst <;> simp
  rw [word?_eq_plainWord? hfits hne rfl (.inl rfl) rfl,
    plainWord?_eq hremember hfits rfl hindent rfl plain?_colon, moveTo_append rfl hfits.isLine]
  simp [inEntry, push]

theorem insertIdx_length (tokens more : List Token) (token : Token) :
    (tokens ++ more).insertIdx tokens.length token = tokens ++ token :: more := by
  induction tokens with
  | nil => rfl
  | cons head tokens ih => simpa using ih

/-- The colon after a key opens the mapping if the entry is the first one. -/
theorem word?_colon :
    (inEntry isFirst line column (tokens ++ [.scalar .plain key]) false
        (some ⟨tokens.length, line, 0, !isFirst⟩) (':' :: ' ' :: rest)).word? =
      some (inEntry false line (column + 1)
        (tokens ++ (if isFirst then [.blockMapping] else []) ++
          [.key, .scalar .plain key, .value]) false none (' ' :: rest)) := by
  have hword : (inEntry isFirst line column (tokens ++ [.scalar .plain key]) false
      (some ⟨tokens.length, line, 0, !isFirst⟩) (':' :: ' ' :: rest)).word? =
      (inEntry isFirst line column (tokens ++ [.scalar .plain key]) false
        (some ⟨tokens.length, line, 0, !isFirst⟩) (':' :: ' ' :: rest)).valueWord? := by
    simp [word?, inEntry, atDocumentStart, atDocumentEnd, atWordEnd, isGap]
  rw [hword]
  cases isFirst <;>
    simp [inEntry, valueWord?, openAt, inFlow, insertIdx_length, advance, push, isBreak]

/-- After the value of an entry the next line is read. -/
theorem word?_value (line column : Nat) (tokens : List Token)
    (hvalue : IsScalar written style text) (hrest : StartsWord rest) :
    ∃ next, (inEntry false line (column + 1) tokens false none
        (written ++ '\n' :: rest)).word? = some next ∧
      next.skipSpace =
        inEntry false (line + 1) 0 (tokens ++ [.scalar style text]) true none rest := by
  cases hvalue with
  | plain hne hfits =>
    let start : Lexer :=
      inEntry false line (column + 1) tokens false none (written ++ '\n' :: rest)
    have hremember : start.rememberPlace? = some start := rfl
    refine ⟨inEntry false (line + 1) 0 (tokens ++ [.scalar .plain written]) true none rest, ?_,
      skipSpace_of_startsWord hrest⟩
    rw [word?_eq_plainWord? hfits hne rfl (.inr rfl) rfl,
      plainWord?_eq hremember hfits rfl (Int.le_refl 0) rfl (plain?_newLine hrest),
      moveTo_nextLine rfl hfits.isLine]
    rfl
  | singleQuoted hline =>
    have hquoted : IsLine ('\'' :: singleQuotedBody false text ++ ['\'']) :=
      (IsScalar.singleQuoted hline).isLine
    let start : Lexer := inEntry false line (column + 1) tokens false none
      ('\'' :: (singleQuotedBody false text ++ '\'' :: '\n' :: rest))
    have hword : start.word? = start.quotedWord? .singleQuoted := by
      simp [start, word?, inEntry]
    have hmove : start.moveTo ('\n' :: rest) = _ := moveTo_append (by simp [start, inEntry]) hquoted
    refine ⟨{ (start.moveTo ('\n' :: rest)).push (.scalar .singleQuoted text) with
      keyAllowed := false }, ?_, ?_⟩
    · have hstart : '\'' :: singleQuotedBody false text ++ ['\''] ++ '\n' :: rest = start.rest := by
        simp [start, inEntry]
      rw [hstart]
      exact hword.trans (quotedWord?_eq rfl hline rfl (by simp))
    · rw [hmove]
      exact skipSpace_newLine rfl hrest rfl

/-- An entry is read in three steps, up to the line after it. -/
theorem words?_entry (steps : Nat) (entry : ScalarEntry)
    (hskip : l.skipSpace = inEntry isFirst line 0 tokens true none (entry.line ++ rest))
    (hrest : StartsWord rest) :
    ∃ next, words? (steps + 3) l = words? steps next ∧
      next.skipSpace = inEntry false (line + 1) 0
        (tokens ++ (if isFirst then [.blockMapping] else []) ++ entry.words) true none rest := by
  have hline : entry.line ++ rest =
      entry.key ++ ':' :: ' ' :: (entry.written ++ '\n' :: rest) := by simp [ScalarEntry.line]
  have hshort : ∀ p : KeyPlace, some (⟨tokens.length, line, 0, !isFirst⟩ : KeyPlace) = some p →
      p.isPassed line entry.key.length = false := by
    rintro p ⟨⟩
    simpa [KeyPlace.isPassed] using entry.key_short
  have hcolon : StartsWord (':' :: ' ' :: (entry.written ++ '\n' :: rest)) :=
    ⟨by decide, by decide, by decide⟩
  have hspace : skipSpace (inEntry false line (entry.key.length + 1) (tokens ++
      (if isFirst then [.blockMapping] else []) ++ [.key, .scalar .plain entry.key, .value]) false
      none (' ' :: (entry.written ++ '\n' :: rest))) = _ :=
    skipSpace_space rfl entry.value.startsWord
  obtain ⟨next, hvalue, hnext⟩ := word?_value line (entry.key.length + 1)
    (tokens ++ (if isFirst then [.blockMapping] else []) ++
      [.key, .scalar .plain entry.key, .value]) entry.value hrest
  rw [hline] at hskip
  refine ⟨next, ?_, ?_⟩
  · rw [words?_inEntry hskip (by simp) (by simp) (word?_key entry.key_ne_nil entry.key_fits),
      words?_inEntry (skipSpace_of_startsWord hcolon) hshort (by simp) word?_colon,
      words?_inEntry hspace (by simp) (by simp) hvalue]
  · rw [hnext]
    simp [ScalarEntry.words]

/-- The words of entries of a mapping that was opened, and its end. -/
theorem words?_entries {steps : Nat} (entries : List ScalarEntry)
    (hsteps : 3 * entries.length < steps)
    (hskip : l.skipSpace =
      inEntry false line 0 tokens true none (entries.flatMap ScalarEntry.line)) :
    words? steps l = some (tokens ++ entries.flatMap ScalarEntry.words ++ [.blockEnd]) := by
  induction entries generalizing steps l line tokens with
  | nil =>
    obtain ⟨steps, rfl⟩ : ∃ n, steps = n + 1 := ⟨steps - 1, by simp at hsteps; omega⟩
    rw [words?, hskip]
    simp [inEntry, forgetPassed?, stillOpen?, closeTo, closed, inFlow, forgetPlace?]
  | cons entry entries ih =>
    obtain ⟨steps, rfl⟩ : ∃ n, steps = n + 3 :=
      ⟨steps - 3, by rw [List.length_cons] at hsteps; omega⟩
    obtain ⟨next, hread, hnext⟩ :=
      words?_entry steps entry hskip (startsWord_lines entries)
    rw [hread, ih (by rw [List.length_cons] at hsteps; omega) hnext]
    simp

end InEntry

end Lexer

theorem ScalarEntry.isPrintable_line (entry : ScalarEntry) :
    ∀ c ∈ entry.line, isPrintable c = true := by
  have hkey : ∀ c ∈ entry.key, isPrintable c = true := fun c hc => (entry.key_fits.isLine c hc).1
  have hwritten : ∀ c ∈ entry.written, isPrintable c = true :=
    fun c hc => (entry.value.isLine c hc).1
  have hsigns : isPrintable ':' = true ∧ isPrintable ' ' = true ∧ isPrintable '\n' = true := by
    decide
  simpa [ScalarEntry.line, or_imp, forall_and, hsigns] using ⟨hkey, hwritten⟩

theorem ScalarEntry.three_le_length_line (entry : ScalarEntry) : 3 ≤ entry.line.length := by
  simp only [ScalarEntry.line, List.length_append, List.length_cons]
  omega

theorem isAllowed_of_isPrintable {c : Char} (h : isPrintable c = true) : isAllowed c = true := by
  simp only [isPrintable, isAllowed, Bool.or_eq_true, Bool.and_eq_true, decide_eq_true_eq] at h ⊢
  omega

theorem uniform_eq_self {t : Text} (h : ∀ c ∈ t, isPrintable c = true) : uniform t = t := by
  fun_induction uniform t with
  | case1 => rfl
  | case2 t ih => exact absurd (h '\x0d' (by simp)) (by decide)
  | case3 c t hnot ih =>
    have hc : ¬ (c = '\x0d' ∨ c = '\x85') := by
      rintro (rfl | rfl)
      · exact absurd (h '\x0d' (by simp)) (by decide)
      · exact absurd (h '\x85' (by simp)) (by decide)
    rw [if_neg hc, ih fun d hd => h d (by simp [hd])]

theorem length_lines (entries : List ScalarEntry) :
    3 * entries.length ≤ (entries.flatMap ScalarEntry.line).length := by
  induction entries with
  | nil => simp
  | cons entry entries ih =>
    have hline := entry.three_le_length_line
    rw [List.flatMap_cons, List.length_append, List.length_cons]
    omega

theorem Lexer.ofText_eq_inEntry {t : Text} (h : ∀ c ∈ t, isPrintable c = true) :
    Lexer.ofText t = Lexer.inEntry true 0 0 [] true none t := by
  cases t with
  | nil => rfl
  | cons c t =>
    have hc : c ≠ byteOrderMark := by
      rintro rfl
      exact absurd (h byteOrderMark (by simp)) (by decide)
    simp [Lexer.ofText, Lexer.inEntry, hc]

/-- A mapping of scalars is read word by word. -/
theorem tokens?_lines {entries : List ScalarEntry} (hne : entries ≠ []) :
    tokens? (entries.flatMap ScalarEntry.line) =
      some (.blockMapping :: (entries.flatMap ScalarEntry.words ++ [.blockEnd])) := by
  obtain ⟨entry, entries, rfl⟩ := List.exists_cons_of_ne_nil hne
  have hprint : ∀ c ∈ (entry :: entries).flatMap ScalarEntry.line, isPrintable c = true := by
    intro c hc
    obtain ⟨e, -, hc⟩ := List.mem_flatMap.mp hc
    exact e.isPrintable_line c hc
  have hallowed : ((entry :: entries).flatMap ScalarEntry.line).all isAllowed = true :=
    List.all_eq_true.mpr fun c hc => isAllowed_of_isPrintable (hprint c hc)
  have hstart : (Lexer.ofText ((entry :: entries).flatMap ScalarEntry.line)).skipSpace =
      Lexer.inEntry true 0 0 [] true none (entry.line ++ entries.flatMap ScalarEntry.line) := by
    rw [Lexer.ofText_eq_inEntry hprint]
    exact Lexer.skipSpace_of_startsWord (startsWord_lines (entry :: entries))
  obtain ⟨steps, hsteps⟩ : ∃ steps,
      ((entry :: entries).flatMap ScalarEntry.line).length + 1 = steps + 3 ∧
        3 * entries.length < steps := by
    have hline := entry.three_le_length_line
    have hlines := length_lines entries
    refine ⟨((entry :: entries).flatMap ScalarEntry.line).length - 2, ?_⟩
    rw [List.flatMap_cons, List.length_append]
    omega
  obtain ⟨next, hread, hnext⟩ :=
    Lexer.words?_entry steps entry hstart (startsWord_lines entries)
  rw [tokens?, if_pos hallowed, uniform_eq_self hprint]
  dsimp only
  rw [hsteps.1, hread, Lexer.words?_entries entries hsteps.2 hnext]
  simp

end BooleanSearch.Yaml
