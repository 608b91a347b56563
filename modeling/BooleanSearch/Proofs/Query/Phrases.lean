import BooleanSearch.Proofs.Query.Quotation
import BooleanSearch.Proofs.Query.Spelling
import BooleanSearch.Proofs.Text.Trim

/-!
# The text of a phrase

Without a `)` in it a phrase is the text of its tokens, each word with a space after it, and trimmed
in the end. The text is cut into tokens at ASCII white space only, but it is trimmed of all blank
characters. So the words of a phrase are kept, one space between them, but for blank characters
with which the first begins or the last ends; and a phrase that was read once is read as itself.
-/

namespace BooleanSearch

namespace Token

/-- What a token adds to an open phrase, if it is no `)`. -/
def inPhrase : Token → Text
  | .openParen => ['(']
  | token => token.text ++ [' ']

/-- What an open phrase holds of a text, if no `)` is in it. -/
def held (t : Text) : Text := (ofQuery t).flatMap inPhrase

theorem inPhrase_of_ne {token : Token} (h : token ≠ .openParen) :
    token.inPhrase = token.text ++ [' '] := by
  cases token with
  | openParen => exact absurd rfl h
  | closeParen | quote | operator op | word text => rfl

theorem inPhrase_ofUnit {unit : Text} (h : ∀ c ∈ unit, breaks c = false) :
    (ofUnit unit).inPhrase = unit ++ [' '] := by
  have hne : ofUnit unit ≠ .openParen := by
    intro hopen
    have htext : unit = ['('] := by rw [← text_ofUnit unit, hopen]; rfl
    have hbreak := h '(' (by simp [htext])
    cases hbreak
  rw [inPhrase_of_ne hne, text_ofUnit]

theorem held_append {a b : Text}
    (h : (∀ c ∈ a.getLast?, breaks c = true) ∨ ∀ c ∈ b.head?, breaks c = true) :
    held (a ++ b) = held a ++ held b := by
  by_cases ha : a = []
  · subst ha
    rfl
  by_cases hb : b = []
  · subst hb
    rw [List.append_nil]
    exact (List.append_nil (held a)).symm
  have hcut : ofQuery (a ++ b) = ofQuery a ++ ofQuery b := by
    apply ofQuery_append
    rcases h with hlast | hhead
    · exact .inl ⟨_, List.getLast?_eq_some_getLast ha, hlast _ (List.getLast?_eq_some_getLast ha)⟩
    · exact .inr ⟨_, List.head?_eq_some_head hb, hhead _ (List.head?_eq_some_head hb)⟩
  rw [held, hcut, List.flatMap_append, held, held]

theorem held_of_unbroken {unit : Text} (hne : unit ≠ []) (h : ∀ c ∈ unit, breaks c = false) :
    held unit = unit ++ [' '] := by
  rw [held, ofQuery_of_unbroken hne h, List.flatMap_singleton, inPhrase_ofUnit h]

/-- What was held is held in the same way if it is read again. -/
theorem ofQuery_flatMap_inPhrase {tokens : List Token} (h : ∀ token ∈ tokens, token.Proper) :
    ofQuery (tokens.flatMap inPhrase) = tokens := by
  induction tokens with
  | nil => rfl
  | cons token tokens ih =>
    have hrest := ih fun other hmem => h other (List.mem_cons_of_mem token hmem)
    rw [List.flatMap_cons]
    by_cases hopen : token = .openParen
    · subst hopen
      have hcut : ofQuery ('(' :: tokens.flatMap inPhrase) =
          .openParen :: ofQuery (tokens.flatMap inPhrase) :=
        ofQuery_append_cons (by decide) [] _
      rw [inPhrase, List.singleton_append, hcut, hrest]
    · rw [inPhrase_of_ne hopen, List.append_assoc, List.singleton_append,
        ofQuery_append_separator (by decide), ofQuery_text (h token List.mem_cons_self), hrest]
      rfl

theorem held_held (t : Text) : held (held t) = held t := by
  have hread : ofQuery (held t) = ofQuery t :=
    ofQuery_flatMap_inPhrase fun _ => proper_of_mem_ofQuery
  rw [held, hread, held]

theorem exists_unbroken_append (t : Text) :
    ∃ unit rest, t = unit ++ rest ∧ (∀ c ∈ unit, breaks c = false) ∧
      ∀ c ∈ rest.head?, breaks c = true := by
  refine ⟨t.takeWhile fun c => !breaks c, t.dropWhile fun c => !breaks c, ?_, ?_, ?_⟩
  · exact List.takeWhile_append_dropWhile.symm
  · intro c hc
    simpa using List.mem_takeWhile_imp hc
  · intro c hc
    have hfirst := List.head?_dropWhile_not (fun c => !breaks c) t
    rw [Option.mem_def.mp hc] at hfirst
    simpa using hfirst

theorem exists_append_unbroken (t : Text) :
    ∃ front unit, t = front ++ unit ∧ (∀ c ∈ unit, breaks c = false) ∧
      ∀ c ∈ front.getLast?, breaks c = true := by
  obtain ⟨unit, rest, hreverse, hunit, hrest⟩ := exists_unbroken_append t.reverse
  refine ⟨rest.reverse, unit.reverse, ?_, ?_, ?_⟩
  · rw [← List.reverse_append, ← hreverse, List.reverse_reverse]
  · simpa using hunit
  · simpa using hrest

theorem breaks_eq_false {c : Char} (hblank : Text.isBlank c = true)
    (hseparator : Text.isSeparator c = false) : breaks c = false := by
  by_cases halone : standsAlone c = true
  · simp only [standsAlone, Bool.or_eq_true, decide_eq_true_eq] at halone
    rcases halone with (rfl | rfl) | rfl <;> cases hblank
  · simp [breaks, hseparator, halone]

/-- A blank character before a text is white space, or it begins the first word or is a word by
itself; in any case it is trimmed. -/
theorem trim_held_cons {c : Char} (h : Text.isBlank c = true) (t : Text) :
    Text.trim (held (c :: t)) = Text.trim (held t) := by
  cases hseparator : Text.isSeparator c with
  | true =>
    have hread : ofQuery (c :: t) = ofQuery t :=
      ofQuery_append_separator hseparator [] t
    rw [held, hread, held]
  | false =>
    -- The blank character is read as the beginning of the unit that the text begins with, which
    -- may be empty; nothing after that unit is read in another way.
    obtain ⟨unit, rest, rfl, hunit, hrest⟩ := exists_unbroken_append t
    have hlonger : ∀ d ∈ c :: unit, breaks d = false := by
      intro d hd
      rcases List.mem_cons.mp hd with rfl | hd
      · exact breaks_eq_false h hseparator
      · exact hunit d hd
    have hspace : Text.isBlank ' ' = true := by decide
    rw [← List.cons_append, held_append (.inr hrest), held_append (.inr hrest),
      held_of_unbroken (List.cons_ne_nil c unit) hlonger]
    simp only [List.cons_append, List.append_assoc, List.nil_append]
    rw [Text.trim_cons h]
    by_cases hne : unit = []
    · subst hne
      exact Text.trim_cons hspace _
    · rw [held_of_unbroken hne hunit, List.append_assoc]
      rfl

/-- So is a blank character after a text. -/
theorem trim_held_concat {c : Char} (h : Text.isBlank c = true) (t : Text) :
    Text.trim (held (t ++ [c])) = Text.trim (held t) := by
  cases hseparator : Text.isSeparator c with
  | true =>
    have hread : ofQuery (t ++ [c]) = ofQuery t :=
      (ofQuery_append_separator hseparator t []).trans (List.append_nil _)
    rw [held, hread, held]
  | false =>
    obtain ⟨front, unit, rfl, hunit, hfront⟩ := exists_append_unbroken t
    have hlonger : ∀ d ∈ unit ++ [c], breaks d = false := by
      intro d hd
      rcases List.mem_append.mp hd with hd | hd
      · exact hunit d hd
      · rw [List.mem_singleton.mp hd]
        exact breaks_eq_false h hseparator
    have hspace : Text.isBlank ' ' = true := by decide
    rw [List.append_assoc, held_append (.inl hfront), held_append (.inl hfront),
      held_of_unbroken (by simp) hlonger]
    rw [← List.append_assoc, Text.trim_concat hspace, ← List.append_assoc, Text.trim_concat h]
    by_cases hne : unit = []
    · subst hne
      rfl
    · rw [held_of_unbroken hne hunit, ← List.append_assoc, Text.trim_concat hspace]

/-- Blank characters at the ends of a text do not matter to the phrase of it. -/
theorem trim_held_append {front back : Text} (hfront : ∀ c ∈ front, Text.isBlank c = true)
    (hback : ∀ c ∈ back, Text.isBlank c = true) (t : Text) :
    Text.trim (held (front ++ t ++ back)) = Text.trim (held t) := by
  induction back using List.reverseRecOn with
  | nil =>
    rw [List.append_nil]
    induction front with
    | nil => rfl
    | cons c front ih =>
      rw [List.cons_append, trim_held_cons (hfront c List.mem_cons_self)]
      exact ih fun d hd => hfront d (List.mem_cons_of_mem c hd)
  | append_singleton back c ih =>
    rw [← List.append_assoc, trim_held_concat (hback c (by simp))]
    exact ih fun d hd => hback d (List.mem_append_left [c] hd)

theorem trim_held_trim (t : Text) :
    Text.trim (held (Text.trim t)) = Text.trim (held t) := by
  obtain ⟨front, back, htrim, hfront, hback⟩ := Text.exists_trimMatches Text.isBlank t
  have ht : t = front ++ Text.trim t ++ back := htrim
  rw [← trim_held_append hfront hback, ← ht]

/-- Every character of a phrase is one of its text or a space. -/
theorem of_mem_held {t : Text} {c : Char} (h : c ∈ held t) : c ∈ t ∨ c = ' ' := by
  obtain ⟨token, htoken, hc⟩ := List.mem_flatMap.mp h
  by_cases hopen : token = .openParen
  · subst hopen
    exact .inl (of_mem_text htoken hc).1
  · rw [inPhrase_of_ne hopen, List.mem_append, List.mem_singleton] at hc
    exact hc.imp_left fun hmem => (of_mem_text htoken hmem).1

end Token

namespace Conversion

/-- Tokens without a `)` extend a phrase one after the other. -/
theorem foldl_extendPhrase {tokens : List Token}
    (h : ∀ token ∈ tokens, token ≠ .closeParen ∧ token ≠ .quote) (phrase : Text) :
    tokens.foldl extendPhrase phrase = phrase ++ tokens.flatMap Token.inPhrase := by
  induction tokens generalizing phrase with
  | nil => simp
  | cons token tokens ih =>
    obtain ⟨hclose, hquote⟩ := h token List.mem_cons_self
    have hextend : extendPhrase phrase token = phrase ++ token.inPhrase := by
      cases token with
      | closeParen => exact absurd rfl hclose
      | quote => exact absurd rfl hquote
      | openParen => rfl
      | operator op | word text => simp [extendPhrase, Token.inPhrase, Token.text]
    rw [List.foldl_cons, hextend, ih fun other hmem => h other (List.mem_cons_of_mem token hmem),
      List.flatMap_cons, List.append_assoc]

end Conversion

/-- A phrase without a `)` in it is what is held of its text, trimmed. -/
theorem phraseText_ofQuery {t : Text} (hclose : ')' ∉ t) (hquote : '"' ∉ t) :
    phraseText (Token.ofQuery t) = Text.trim (Token.held t) := by
  have htokens : ∀ token ∈ Token.ofQuery t, token ≠ .closeParen ∧ token ≠ .quote := by
    intro token htoken
    constructor
    · rintro rfl
      exact hclose (Token.of_mem_text htoken List.mem_cons_self).1
    · rintro rfl
      exact hquote (Token.of_mem_text htoken List.mem_cons_self).1
  rw [phraseText, Conversion.foldl_extendPhrase htokens]
  rfl

namespace Program

open Token (held)

/-- A text in double quotes has the term of its phrase as its program, or none if that is blank. -/
theorem ofQuery_enclosed {t : Text} (hclose : ')' ∉ t) (hquote : '"' ∉ t) :
    ofQuery ('"' :: t ++ ['"']) = .ok (if Text.trim (held t) = [] then []
      else [.term ('"' :: Text.trim (held t) ++ ['"'])]) := by
  have htokens : Token.ofQuery ('"' :: t ++ ['"']) = .quote :: Token.ofQuery t ++ [.quote] := by
    have hopen : Token.ofQuery ('"' :: (t ++ ['"'])) = .quote :: Token.ofQuery (t ++ ['"']) :=
      Token.ofQuery_append_cons (by decide) [] _
    rw [List.cons_append, hopen, Token.ofQuery_append_cons (by decide)]
    rfl
  have hunquoted : .quote ∉ Token.ofQuery t := by
    intro hmem
    exact hquote (Token.of_mem_text hmem List.mem_cons_self).1
  rw [ofQuery, htokens, (Conversion.yields_phrase hunquoted).ofTokens,
    phraseText_ofQuery hclose hquote]

/-- A phrase that was read is read again as itself, if there is no `)` in it. -/
theorem ofQuery_phrase_idempotent {t phrase : Text} (hclose : ')' ∉ t) (hquote : '"' ∉ t)
    (h : ofQuery ('"' :: t ++ ['"']) = .ok [.term ('"' :: phrase ++ ['"'])]) :
    ')' ∉ phrase ∧ '"' ∉ phrase ∧
      ofQuery ('"' :: phrase ++ ['"']) = .ok [.term ('"' :: phrase ++ ['"'])] := by
  rw [ofQuery_enclosed hclose hquote] at h
  split at h
  · cases h
  · next hne =>
    have hphrase : Text.trim (held t) = phrase := by
      simpa using h
    have hkept : ∀ c, c ∉ t → c ≠ ' ' → c ∉ phrase := by
      intro c hc hspace hmem
      rw [← hphrase] at hmem
      rcases Token.of_mem_held ((Text.trim_sublist _).subset hmem) with hmem | heq
      · exact hc hmem
      · exact hspace heq
    have hclose' : ')' ∉ phrase := hkept ')' hclose (by decide)
    have hquote' : '"' ∉ phrase := hkept '"' hquote (by decide)
    have hagain : Text.trim (held phrase) = phrase := by
      calc Text.trim (held phrase)
          = Text.trim (held (held t)) := by rw [← hphrase, Token.trim_held_trim]
        _ = phrase := by rw [Token.held_held, hphrase]
    refine ⟨hclose', hquote', ?_⟩
    rw [ofQuery_enclosed hclose' hquote', hagain, if_neg (hphrase ▸ hne)]

/-- Open parentheses that stick to what follows them, a keyword, and blank characters of which some
separate words, some are words or parts of words, and some are trimmed. -/
theorem ofQuery_phrase_idempotent_parentheses :
    let t := "\u00a0\x0b (  red\u2028( (AND\u00a0 \u00a0".toList
    let phrase := "(red\u2028 ((AND".toList
    ')' ∉ t ∧ '"' ∉ t ∧
      ofQuery ('"' :: t ++ ['"']) = .ok [.term ('"' :: phrase ++ ['"'])] ∧
      ofQuery ('"' :: phrase ++ ['"']) = .ok [.term ('"' :: phrase ++ ['"'])] := by
  intro t phrase
  have hclose : ')' ∉ t := by decide
  have hquote : '"' ∉ t := by decide
  have hread : ofQuery ('"' :: t ++ ['"']) = .ok [.term ('"' :: phrase ++ ['"'])] := rfl
  exact ⟨hclose, hquote, hread, (ofQuery_phrase_idempotent hclose hquote hread).2.2⟩

end Program

/-- Words with white space between them: the first, then others each after a run of it. -/
def Text.spread (first : Text) : List (Text × Text) → Text
  | [] => first
  | (run, word) :: more => first ++ run ++ spread word more

namespace Token

/-- Words with white space between them are held with one space after each. -/
theorem held_spread {first : Text} {more : List (Text × Text)}
    (hwords : ∀ word ∈ first :: more.map Prod.snd, word ≠ [] ∧ ∀ c ∈ word, breaks c = false)
    (hruns : ∀ run ∈ more.map Prod.fst, run ≠ [] ∧ ∀ c ∈ run, Text.isSeparator c = true) :
    held (Text.spread first more) =
      [' '].intercalate (first :: more.map Prod.snd) ++ [' '] := by
  induction more generalizing first with
  | nil =>
    obtain ⟨hne, hfirst⟩ := hwords first List.mem_cons_self
    rw [Text.spread, held_of_unbroken hne hfirst]
    simp
  | cons entry more ih =>
    obtain ⟨run, word⟩ := entry
    obtain ⟨hne, hfirst⟩ := hwords first List.mem_cons_self
    obtain ⟨hrun, hseparators⟩ := hruns run List.mem_cons_self
    have hrest : held (Text.spread word more) =
        [' '].intercalate (word :: more.map Prod.snd) ++ [' '] := by
      apply ih
      · intro other hother
        exact hwords other (List.mem_cons_of_mem first hother)
      · intro other hother
        exact hruns other (List.mem_cons_of_mem run hother)
    have hcut : held (Text.spread first ((run, word) :: more)) =
        held first ++ held (Text.spread word more) := by
      rw [Text.spread, held, ofQuery_append_space hseparators (.inl hrun), List.flatMap_append,
        held, held]
    rw [hcut, held_of_unbroken hne hfirst, hrest, List.map_cons, List.intercalate_cons_cons]
    simp only [List.append_assoc]

/-- Every character between the first word and the last is one of them or white space. -/
theorem of_mem_spread {first : Text} {more : List (Text × Text)} {c : Char}
    (h : c ∈ Text.spread first more) :
    (∃ word ∈ first :: more.map Prod.snd, c ∈ word) ∨ ∃ run ∈ more.map Prod.fst, c ∈ run := by
  induction more generalizing first with
  | nil => exact .inl ⟨first, List.mem_cons_self, h⟩
  | cons entry more ih =>
    obtain ⟨run, word⟩ := entry
    rw [Text.spread, List.mem_append, List.mem_append] at h
    rcases h with (hfirst | hrun) | hrest
    · exact .inl ⟨first, List.mem_cons_self, hfirst⟩
    · exact .inr ⟨run, List.mem_cons_self, hrun⟩
    · rcases ih hrest with ⟨other, hother, hc⟩ | ⟨other, hother, hc⟩
      · exact .inl ⟨other, List.mem_cons_of_mem first hother, hc⟩
      · exact .inr ⟨other, List.mem_cons_of_mem run hother, hc⟩

theorem notMem_spread {first : Text} {more : List (Text × Text)} {c : Char}
    (h : standsAlone c = true)
    (hwords : ∀ word ∈ first :: more.map Prod.snd, ∀ c ∈ word, breaks c = false)
    (hruns : ∀ run ∈ more.map Prod.fst, ∀ c ∈ run, Text.isSeparator c = true) :
    c ∉ Text.spread first more := by
  intro hc
  rcases of_mem_spread hc with ⟨word, hword, hc⟩ | ⟨run, hrun, hc⟩
  · have hbreak := hwords word hword c hc
    simp [breaks, h] at hbreak
  · have hseparator := hruns run hrun c hc
    rw [not_isSeparator_of_standsAlone h] at hseparator
    cases hseparator

end Token

namespace Program

theorem ofQuery_word {word : Text} (h : Token.IsWord word) (hplain : '*' ∉ word) :
    ofQuery word = .ok [.term ('"' :: word ++ ['"'])] := by
  rw [ofQuery, Token.ofQuery_word h, (Conversion.yields_word word).ofTokens, Node.ofWord_eq,
    if_neg hplain]

/-- A phrase keeps its words, with one space between any two of them, but it is trimmed of blank
characters. So its term holds just the words if the first does not begin with a blank character
and the last does not end with one, and only then; and quoting one word changes nothing in just
that case. -/
theorem ofQuery_phrase_of_words {first : Text} {more : List (Text × Text)}
    (hwords : ∀ word ∈ first :: more.map Prod.snd,
      word ≠ [] ∧ ∀ c ∈ word, Token.breaks c = false)
    (hruns : ∀ run ∈ more.map Prod.fst, run ≠ [] ∧ ∀ c ∈ run, Text.isSeparator c = true) :
    let query := '"' :: Text.spread first more ++ ['"']
    let joined := [' '].intercalate (first :: more.map Prod.snd)
    let unblank := (∀ c ∈ joined.head?, Text.isBlank c = false) ∧
      ∀ c ∈ joined.getLast?, Text.isBlank c = false
    ofQuery query = .ok (if Text.trim joined = [] then []
      else [.term ('"' :: Text.trim joined ++ ['"'])]) ∧
    (ofQuery query = .ok [.term ('"' :: joined ++ ['"'])] ↔ unblank) ∧
    (more = [] → (∀ op : Operator, first ≠ op.keyword) → '*' ∉ first →
      (ofQuery query = ofQuery first ↔ unblank)) := by
  intro query joined unblank
  have habsent : ∀ c, Token.standsAlone c = true → c ∉ Text.spread first more := by
    intro c halone
    exact Token.notMem_spread halone (fun word hword => (hwords word hword).2)
      fun run hrun => (hruns run hrun).2
  have hread : ofQuery query = .ok (if Text.trim joined = [] then []
      else [.term ('"' :: Text.trim joined ++ ['"'])]) := by
    rw [ofQuery_enclosed (habsent ')' (by decide)) (habsent '"' (by decide)),
      Token.held_spread hwords hruns, Text.trim_concat (by decide)]
  have hjoined : joined ≠ [] := by
    have hne := (hwords first List.mem_cons_self).1
    cases more with
    | nil => simpa [joined] using hne
    | cons entry more => simp [joined, List.intercalate_cons_cons]
  have hunblank : unblank ↔ Text.trim joined = joined := Text.trim_eq_self_iff.symm
  have hkept : ofQuery query = .ok [.term ('"' :: joined ++ ['"'])] ↔ unblank := by
    rw [hread, hunblank]
    constructor
    · intro h
      split at h
      · cases h
      · simpa using h
    · intro h
      rw [h, if_neg hjoined]
  refine ⟨hread, hkept, ?_⟩
  rintro rfl hordinary hplain
  obtain ⟨hne, hunbroken⟩ := hwords first List.mem_cons_self
  have hword : Token.IsWord first := Token.isWord_of_ne_keyword hne hunbroken hordinary
  have hfirst : joined = first := by simp [joined]
  rw [ofQuery_word hword hplain, ← hfirst]
  exact hkept

/-- A keyword, a wildcard and a word with a no-break space inside, with runs of white space. -/
theorem ofQuery_phrase_of_words_no_break_space :
    let first := "OR".toList
    let more := [("\t\n ".toList, "red\u00a0plums".toList), ("  ".toList, "Pear*".toList)]
    (∀ word ∈ first :: more.map Prod.snd, word ≠ [] ∧ ∀ c ∈ word, Token.breaks c = false) ∧
      (∀ run ∈ more.map Prod.fst, run ≠ [] ∧ ∀ c ∈ run, Text.isSeparator c = true) ∧
      ofQuery ('"' :: Text.spread first more ++ ['"']) =
        .ok [.term "\"OR red\u00a0plums Pear*\"".toList] := by
  intro first more
  have hwords : ∀ word ∈ first :: more.map Prod.snd,
      word ≠ [] ∧ ∀ c ∈ word, Token.breaks c = false := by
    have hword : ∀ word : Text, (word.all fun c => !Token.breaks c) = true →
        ∀ c ∈ word, Token.breaks c = false := by
      intro word hall c hc
      simpa using List.all_eq_true.mp hall c hc
    simp only [more, List.map_cons, List.map_nil, List.forall_mem_cons]
    refine ⟨⟨nofun, hword _ rfl⟩, ⟨nofun, hword _ rfl⟩, ⟨nofun, hword _ rfl⟩, nofun⟩
  have hruns : ∀ run ∈ more.map Prod.fst, run ≠ [] ∧ ∀ c ∈ run, Text.isSeparator c = true := by
    simp only [more, List.map_cons, List.map_nil, List.forall_mem_cons]
    exact ⟨⟨nofun, List.all_eq_true.mp rfl⟩, ⟨nofun, List.all_eq_true.mp rfl⟩, nofun⟩
  refine ⟨hwords, hruns, ?_⟩
  apply (ofQuery_phrase_of_words hwords hruns).2.1.mpr
  constructor
  · intro c hc
    cases hc
    rfl
  · intro c hc
    cases hc
    rfl

/-- A no-break space with which the first word of a phrase begins is not kept, though it is part of
the word if that stands alone; and a word of nothing else is lost with its phrase. -/
theorem ofQuery_phrase_trims_words :
    let word := "\u00a0Apples".toList
    (∀ c ∈ word, Token.breaks c = false) ∧
      ofQuery ('"' :: word ++ ['"']) = .ok [.term "\"Apples\"".toList] ∧
      ofQuery word = .ok [.term ('"' :: word ++ ['"'])] ∧
      ofQuery "\"\u00a0\"".toList = .ok [] := by
  intro word
  refine ⟨?_, rfl, rfl, rfl⟩
  intro c hc
  have hall : (word.all fun c => !Token.breaks c) = true := rfl
  simpa using List.all_eq_true.mp hall c hc

end Program

end BooleanSearch
