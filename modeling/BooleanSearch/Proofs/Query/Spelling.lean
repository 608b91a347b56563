import BooleanSearch.Proofs.Query.Tokens

/-!
# The spelling of tokens

A query is cut at white space, parentheses and double quotes, and what stands on one side of a cut
says nothing about the tokens on the other side. So white space can be changed wherever a query is
cut anyway, and a list of tokens can be written with one space between any two of them. The lists
that are read back from this spelling are just those that queries have.
-/

namespace BooleanSearch.Token

/-- White space at the front of a query is no token. -/
theorem ofQuery_space_append {run : Text} (h : ∀ c ∈ run, Text.isSeparator c = true) (b : Text) :
    ofQuery (run ++ b) = ofQuery b := by
  induction run with
  | nil => rfl
  | cons c run ih =>
    have hcut : ofQuery (c :: (run ++ b)) = ofQuery [] ++ ofQuery (run ++ b) :=
      ofQuery_append_separator (h c List.mem_cons_self) [] (run ++ b)
    have hrest : ∀ d ∈ run, Text.isSeparator d = true := by
      intro d hd
      exact h d (List.mem_cons_of_mem c hd)
    rw [List.cons_append, hcut, ih hrest]
    rfl

/-- A query is cut at white space, and where white space could be added: beside a character that no
word holds. -/
theorem ofQuery_append_space {a run b : Text} (hrun : ∀ c ∈ run, Text.isSeparator c = true)
    (h : run ≠ [] ∨ (∃ c ∈ a.getLast?, breaks c = true) ∨ ∃ c ∈ b.head?, breaks c = true) :
    ofQuery (a ++ run ++ b) = ofQuery a ++ ofQuery b := by
  cases run with
  | nil =>
    rw [List.append_nil]
    rcases h with hne | hbeside
    · exact absurd rfl hne
    · exact ofQuery_append hbeside
  | cons c run =>
    have hrest : ∀ d ∈ run, Text.isSeparator d = true := by
      intro d hd
      exact hrun d (List.mem_cons_of_mem c hd)
    rw [List.append_assoc, List.cons_append,
      ofQuery_append_separator (hrun c List.mem_cons_self), ofQuery_space_append hrest]

theorem ofQuery_keyword (op : Operator) : ofQuery op.keyword = [.operator op] := by
  cases op with
  | and | or | not => decide

theorem isWord_of_ne_keyword {text : Text} (hne : text ≠ []) (h : ∀ c ∈ text, breaks c = false)
    (hordinary : ∀ op : Operator, text ≠ op.keyword) : IsWord text := by
  refine ⟨hne, h, ?_⟩
  cases hkey : Operator.ofKeyword? text with
  | none => rfl
  | some op => exact absurd (Operator.keyword_of_ofKeyword? hkey).symm (hordinary op)

/-- The tokens of a query are told by its parts. A separator between two queries only cuts them, a
parenthesis or a double quote is a token between them, and a text that nothing cuts is one token:
an operator if it is the keyword of one, and else a word. So runs of white space can be replaced by
others of any length beside a character that no word holds, and elsewhere by any that are not
empty. -/
theorem ofQuery_compositional (a b : Text) :
    (∀ c, Text.isSeparator c = true → ofQuery (a ++ c :: b) = ofQuery a ++ ofQuery b) ∧
    ofQuery (a ++ '(' :: b) = ofQuery a ++ .openParen :: ofQuery b ∧
    ofQuery (a ++ ')' :: b) = ofQuery a ++ .closeParen :: ofQuery b ∧
    ofQuery (a ++ '"' :: b) = ofQuery a ++ .quote :: ofQuery b ∧
    (∀ unit : Text, unit ≠ [] → (∀ c ∈ unit, breaks c = false) →
      (∀ op : Operator, unit = op.keyword → ofQuery unit = [.operator op]) ∧
      ((∀ op : Operator, unit ≠ op.keyword) → ofQuery unit = [.word unit])) ∧
    ∀ run run' : Text, (∀ c ∈ run ++ run', Text.isSeparator c = true) →
      (run ≠ [] ∧ run' ≠ [] ∨ (∃ c ∈ a.getLast?, breaks c = true) ∨
        ∃ c ∈ b.head?, breaks c = true) →
      ofQuery (a ++ run ++ b) = ofQuery (a ++ run' ++ b) := by
  refine ⟨fun c hc => ofQuery_append_separator hc a b, ofQuery_append_cons (by decide) a b,
    ofQuery_append_cons (by decide) a b, ofQuery_append_cons (by decide) a b, ?_, ?_⟩
  · intro unit hne hunit
    refine ⟨?_, ?_⟩
    · rintro op rfl
      exact ofQuery_keyword op
    · intro hordinary
      exact ofQuery_word (isWord_of_ne_keyword hne hunit hordinary)
  · intro run run' hruns hbeside
    have hrun : ∀ c ∈ run, Text.isSeparator c = true := by
      intro c hc
      exact hruns c (List.mem_append_left run' hc)
    have hrun' : ∀ c ∈ run', Text.isSeparator c = true := by
      intro c hc
      exact hruns c (List.mem_append_right run hc)
    rw [ofQuery_append_space hrun (hbeside.imp_left And.left),
      ofQuery_append_space hrun' (hbeside.imp_left And.right)]

/-- White space is changed between two words and left out beside a quote; a no-break space is part
of a word. -/
theorem ofQuery_compositional_no_break_space :
    let a := "plum\u00a0AND".toList
    let b := "NOTE \"".toList
    Text.isSeparator '\x0c' = true ∧ ofQuery (a ++ '\x0c' :: b) = ofQuery a ++ ofQuery b ∧
      ofQuery a = [.word a] ∧
      ofQuery (a ++ "\t ".toList ++ b) = ofQuery (a ++ "\n".toList ++ b) ∧
      ofQuery (b ++ " \x0d".toList ++ a) = ofQuery (b ++ [] ++ a) := by
  intro a b
  obtain ⟨hcut, -, -, -, hunit, hruns⟩ := ofQuery_compositional a b
  obtain ⟨-, -, -, -, -, hbeside⟩ := ofQuery_compositional b a
  have hunbroken : a.all (fun c => !breaks c) = true := rfl
  have hword : ofQuery a = [.word a] := by
    refine (hunit a (by decide) (by simpa using hunbroken)).2 ?_
    intro op
    cases op <;> decide
  refine ⟨by decide, hcut _ (by decide), hword, ?_, ?_⟩
  · exact hruns _ _ (List.all_eq_true.mp rfl) (.inl ⟨by decide, by decide⟩)
  · exact hbeside _ _ (List.all_eq_true.mp rfl) (.inr (.inl ⟨'"', by decide, by decide⟩))

/-- A list of tokens as a query, with one space between any two of them. -/
def spelling (tokens : List Token) : Text := [' '].intercalate (tokens.map text)

theorem ofQuery_text {token : Token} (h : token.Proper) : ofQuery token.text = [token] := by
  cases token with
  | word text => exact ofQuery_word h
  | operator op => exact ofQuery_keyword op
  | openParen | closeParen | quote => decide

/-- Tokens that a query can hold are read back from their spelling. -/
theorem ofQuery_spelling {tokens : List Token} (h : ∀ token ∈ tokens, token.Proper) :
    ofQuery (spelling tokens) = tokens := by
  induction tokens with
  | nil => rfl
  | cons first tokens ih =>
    have hfirst : ofQuery first.text = [first] := ofQuery_text (h first List.mem_cons_self)
    have hrest : ∀ token ∈ tokens, token.Proper := by
      intro token htoken
      exact h token (List.mem_cons_of_mem first htoken)
    cases tokens with
    | nil => simpa [spelling] using hfirst
    | cons second tokens =>
      have hspelling : spelling (first :: second :: tokens) =
          first.text ++ ' ' :: spelling (second :: tokens) := by
        simp [spelling, List.intercalate_cons_cons]
      rw [hspelling, ofQuery_append_separator (by decide), hfirst, ih hrest]
      rfl

theorem proper_iff {tokens : List Token} :
    (∀ token ∈ tokens, token.Proper) ↔ ∀ word, .word word ∈ tokens → IsWord word := by
  constructor
  · intro h word hword
    exact h (.word word) hword
  · intro h token htoken
    cases token with
    | word word => exact h word htoken
    | openParen | closeParen | quote | operator => trivial

/-- Reading undoes writing, and no character is lost. The lists of tokens that queries have are
those whose words are not empty, hold no character that cuts a query, and are no keywords. Each of
them is read back from its spelling; and the tokens of a query, written without anything between
them, are the query without its white space. -/
theorem ofQuery_lossless (tokens : List Token) (query : Text) :
    ((∃ source, ofQuery source = tokens) ↔ ∀ word, .word word ∈ tokens → IsWord word) ∧
    ((∀ word, .word word ∈ tokens → IsWord word) → ofQuery (spelling tokens) = tokens) ∧
    (ofQuery query).flatMap text = query.filter fun c => !Text.isSeparator c := by
  have hread : (∀ word, .word word ∈ tokens → IsWord word) → ofQuery (spelling tokens) = tokens :=
    fun h => ofQuery_spelling (proper_iff.mpr h)
  refine ⟨⟨?_, fun h => ⟨spelling tokens, hread h⟩⟩, hread, flatMap_text_ofQuery query⟩
  rintro ⟨source, rfl⟩
  exact proper_iff.mp fun _ => proper_of_mem_ofQuery

/-- Tokens that need no space between them, a word with a no-break space, and one in small
letters. -/
theorem ofQuery_lossless_no_break_space :
    let tokens : List Token := [.operator .not, .operator .not, .closeParen, .quote,
      .word "plum\u00a0AND".toList, .word "and".toList]
    (∀ word, .word word ∈ tokens → IsWord word) ∧ (∃ source, ofQuery source = tokens) ∧
      spelling tokens = "NOT NOT ) \" plum\u00a0AND and".toList ∧
      ofQuery (spelling tokens) = tokens ∧
      (ofQuery "(\tNOT\x0c\"a b ".toList).flatMap text = "(NOT\"ab".toList := by
  intro tokens
  have hwords : ∀ word, .word word ∈ tokens → IsWord word := proper_iff.mp (by decide)
  obtain ⟨himage, hread, htext⟩ := ofQuery_lossless tokens "(\tNOT\x0c\"a b ".toList
  exact ⟨hwords, himage.mpr hwords, by decide, hread hwords, htext⟩

end BooleanSearch.Token
