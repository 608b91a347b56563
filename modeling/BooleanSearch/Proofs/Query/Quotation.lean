import BooleanSearch.Proofs.Query.Context
import BooleanSearch.Proofs.Query.Precedence

/-!
# Phrases in context

A quoted part of a query stands for one operand, as a word does. Its parentheses and keywords reach
neither the operators that wait nor the tokens after it: all that leaves a phrase is its own text.
An open phrase at the end of a query ends there as if its quote stood there.
-/

namespace BooleanSearch

namespace Conversion

/-- A quoted part stands for one operand: a literal of its text, or nothing if that is blank. -/
theorem yields_phrase {tokens : List Token} (h : .quote ∉ tokens) :
    Yields (.quote :: tokens ++ [.quote])
      (if phraseText tokens = [] then [] else [.term ('"' :: phraseText tokens ++ ['"'])]) := by
  intro pending
  have hopen := (Step.openPhrase pending).single
  have hinside := Infix.steps_phrase pending [] h
  have hclose := (Step.closePhrase pending (tokens.foldl extendPhrase [])).single
  exact hopen.append (hinside.append hclose)

/-- At the end, a phrase that is open adds its term to what else is settled. -/
theorem finish_open (pending : List Pending) (phrase : Text) :
    finish ⟨pending, some phrase⟩ =
      (finish ⟨pending, none⟩).map fun rest => closePhrase phrase ++ rest := by
  by_cases hgroup : .group ∈ pending
  · simp [finish, hgroup, Except.map]
  · simp [finish, hgroup, Except.map]

end Conversion

namespace Program

open Conversion

/-- If a query with a word in some place has a program, then so has the query with any operand in
that place, and all these programs differ in the nodes of the operand only. -/
theorem exists_context_of_word {before after : List Token} {word : Text} {result : Program}
    (hclosed : Token.Closed before)
    (h : ofTokens (before ++ [.word word] ++ after) = .ok result) :
    ∃ p₁ p₂ : Program, ∀ operand nodes, Yields operand nodes →
      ofTokens (before ++ operand ++ after) = .ok (p₁ ++ nodes ++ p₂) := by
  rcases ofTokens_operand hclosed after with hok | ⟨i, -, hfails⟩ | ⟨fault, hfails⟩
  · exact hok
  · rw [hfails] at h
    cases h
  · rw [hfails _ _ (yields_word word)] at h
    cases h

/-- If a query with a word in some place fails, then so does the query with any operand there. The
fault is the same but for the place of a `)` that stands after the operand. -/
theorem ofTokens_operand_error {before after operand : List Token} {word : Text} {nodes : Program}
    {fault : QueryError} {count : Nat} (hclosed : Token.Closed before)
    (hoperand : Yields operand nodes) (hlength : operand.length = count + 1)
    (h : ofTokens (before ++ [.word word] ++ after) = .error fault) :
    ofTokens (before ++ operand ++ after) =
      .error (fault.shiftFrom (before.length + 1) count) := by
  rcases ofTokens_operand hclosed after with ⟨p₁, p₂, hok⟩ | ⟨i, hi, hfails⟩ | ⟨fault', hfails⟩
  · rw [hok _ _ (yields_word word)] at h
    cases h
  · rw [hfails] at h
    cases h
    have hbefore : ¬ before.length + 1 ≤ i := by omega
    rw [hfails, QueryError.shiftFrom, if_neg hbefore]
  · rw [hfails _ _ (yields_word word)] at h
    cases h
    have hplace : before.length + operand.length =
        before.length + [Token.word word].length + count := by
      rw [hlength, List.length_singleton]
      omega
    rw [hfails _ _ hoperand, hplace]
    exact congrArg _ (QueryError.shiftFrom_shift (Nat.le_refl _) count fault').symm

/-- A quote after all tokens changes nothing where it closes a phrase. -/
theorem ofTokens_append_quote {tokens : List Token} (h : ¬ Token.Closed tokens) :
    ofTokens (tokens ++ [.quote]) = ofTokens tokens := by
  rcases steps_cases start tokens with
    ⟨⟨pending, phrase⟩, settled, hsteps⟩ |
    ⟨before, rest, last, settled, rfl, hsteps, hphrase, hgroup⟩
  · cases phrase with
    | none => exact absurd (hsteps.phrase_eq_none_iff.mp rfl) h
    | some phrase =>
      have hquote := hsteps.append (Step.closePhrase pending phrase).single
      rw [ofTokens, ofTokens, hquote.run_eq, hsteps.run_eq, finish_open]
      cases finish ⟨pending, none⟩ <;> simp [Except.map]
  · -- the query has failed before the quote is read
    rw [List.append_assoc, List.cons_append, ofTokens, ofTokens,
      hsteps.run_unmatched hphrase hgroup, hsteps.run_unmatched hphrase hgroup]

/-- Quoted text does not influence the structure of a query. If a query has a program with some word
in some place, then its programs with any word and with any quoted part in that place differ there
only: the word gives its node, and the quoted part gives a literal of a text that hangs on it alone,
or nothing if that text is blank. If the query fails with a word there, it fails alike with a quoted
part, but that a `)` after it stands further on. And a phrase that is open at the end is read as if
it were closed there. -/
theorem ofTokens_quoted :
    (∀ before after : List Token, Token.Closed before →
      ((∃ word result, ofTokens (before ++ [.word word] ++ after) = .ok result) →
        ∃ p₁ p₂ : Program,
          (∀ word, ofTokens (before ++ [.word word] ++ after) =
            .ok (p₁ ++ [Node.ofWord word] ++ p₂)) ∧
          ∀ quoted, .quote ∉ quoted →
            ofTokens (before ++ (.quote :: quoted ++ [.quote]) ++ after) =
              .ok (p₁ ++ (if phraseText quoted = [] then []
                else [.term ('"' :: phraseText quoted ++ ['"'])]) ++ p₂)) ∧
      ∀ word fault, ofTokens (before ++ [.word word] ++ after) = .error fault →
        ∀ quoted, .quote ∉ quoted →
          ofTokens (before ++ (.quote :: quoted ++ [.quote]) ++ after) =
            .error (fault.shiftFrom (before.length + 1) (quoted.length + 1))) ∧
    ∀ tokens, ¬ Token.Closed tokens → ofTokens (tokens ++ [.quote]) = ofTokens tokens := by
  refine ⟨fun before after hclosed => ⟨?_, ?_⟩, fun tokens => ofTokens_append_quote⟩
  · rintro ⟨word, result, hresult⟩
    obtain ⟨p₁, p₂, hcontext⟩ := exists_context_of_word hclosed hresult
    exact ⟨p₁, p₂, fun word => hcontext _ _ (yields_word word),
      fun quoted hquoted => hcontext _ _ (yields_phrase hquoted)⟩
  · intro word fault hfault quoted hquoted
    exact ofTokens_operand_error hclosed (yields_phrase hquoted) (by simp) hfault

/-- A quoted part full of parentheses and keywords after a phrase and under operators that wait,
once in a query that has a program and once in one with a `)` too many; and an open phrase. -/
theorem ofTokens_quoted_keywords :
    let before := Token.ofQuery "plum OR ( \"red )\" AND NOT".toList
    let quoted := Token.ofQuery ") AND ( NOT pear* ) OR".toList
    Token.Closed before ∧ .quote ∉ quoted ∧
    (∃ p₁ p₂ : Program,
      (∀ word, ofTokens (before ++ [.word word] ++ Token.ofQuery ") fig".toList) =
        .ok (p₁ ++ [Node.ofWord word] ++ p₂)) ∧
      ofTokens (before ++ (.quote :: quoted ++ [.quote]) ++ Token.ofQuery ") fig".toList) =
        .ok (p₁ ++ [.term "\") AND (NOT pear* ) AND (NOT pear*) OR\"".toList] ++ p₂)) ∧
    ofTokens (before ++ [.word "fig".toList] ++ Token.ofQuery ") OR )".toList) =
      .error (.unmatchedClose 12) ∧
    ofTokens (before ++ (.quote :: quoted ++ [.quote]) ++ Token.ofQuery ") OR )".toList) =
      .error (.unmatchedClose 20) ∧
    ¬ Token.Closed (Token.ofQuery "plum OR \"red ( fig".toList) ∧
    ofTokens (Token.ofQuery "plum OR \"red ( fig".toList ++ [.quote]) =
      ofTokens (Token.ofQuery "plum OR \"red ( fig".toList) := by
  intro before quoted
  have hclosed : Token.Closed before := by decide
  have hquoted : .quote ∉ quoted := by decide
  have hopen : ¬ Token.Closed (Token.ofQuery "plum OR \"red ( fig".toList) := by decide
  obtain ⟨hcontext, hend⟩ := ofTokens_quoted
  obtain ⟨p₁, p₂, hword, hphrase⟩ :=
    (hcontext before (Token.ofQuery ") fig".toList) hclosed).1 ⟨"fig".toList, _, rfl⟩
  have hfault := (hcontext before (Token.ofQuery ") OR )".toList) hclosed).2 "fig".toList _ rfl
  exact ⟨hclosed, hquoted, ⟨p₁, p₂, hword, hphrase quoted hquoted⟩, rfl, hfault quoted hquoted,
    hopen, hend _ hopen⟩

end Program

end BooleanSearch
