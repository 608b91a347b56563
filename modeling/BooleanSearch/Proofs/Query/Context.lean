import BooleanSearch.Proofs.Query.Pieces

/-!
# Groups in context

A group stands for one operand: whatever waits when it begins waits again when it ends, and what it
settles is its own program. So it can be put for a word in any query. The nodes before and after it
are those around the word, and a fault elsewhere is the same fault at the place to which its token
has moved.
-/

namespace BooleanSearch

namespace QueryError

/-- The fault when all tokens stand `count` places further on. -/
def shift (count : Nat) : QueryError → QueryError
  | .unmatchedClose position => .unmatchedClose (position + count)
  | fault => fault

/-- The fault when the tokens from index `start` on stand `count` places further on. -/
def shiftFrom (start count : Nat) : QueryError → QueryError
  | .unmatchedClose position =>
    .unmatchedClose (if start ≤ position then position + count else position)
  | fault => fault

theorem shiftFrom_shift {start place : Nat} (h : start ≤ place) (count : Nat)
    (fault : QueryError) :
    (fault.shift place).shiftFrom start count = fault.shift (place + count) := by
  cases fault with
  | unmatchedClose position =>
    have hle : start ≤ position + place := by omega
    simp only [shift, shiftFrom, if_pos hle, Nat.add_assoc]
  | unmatchedOpen => rfl
  | underflow op needed available => rfl

end QueryError

namespace Conversion

/-- What a token does hangs on nothing below an open group. -/
theorem Step.frame {state next : Conversion} {token : Token} {settled : Program}
    (h : Step state token next settled) (below : List Pending) :
    Step ⟨state.pending ++ .group :: below, state.phrase⟩ token
      ⟨next.pending ++ .group :: below, next.phrase⟩ settled := by
  cases h with
  | extendPhrase pending phrase _ htoken => exact .extendPhrase _ phrase token htoken
  | closePhrase pending phrase => exact .closePhrase _ phrase
  | openPhrase pending => exact .openPhrase _
  | openGroup pending => exact .openGroup _
  | closeGroup pending rest _ hclose =>
    obtain ⟨top, rfl, htop, rfl⟩ := Pending.exists_of_closeGroup? hclose
    apply Step.closeGroup
    rw [List.append_assoc, List.cons_append, Pending.closeGroup?_append htop]
  | operator pending op =>
    have hpush := Pending.push_append_group op pending below
    have hstep := Step.operator (pending ++ .group :: below) op
    rw [hpush] at hstep
    exact hstep
  | word pending word => exact .word _ word

theorem Steps.frame {state last : Conversion} {tokens : List Token} {settled : Program}
    (h : Steps state tokens last settled) (below : List Pending) :
    Steps ⟨state.pending ++ .group :: below, state.phrase⟩ tokens
      ⟨last.pending ++ .group :: below, last.phrase⟩ settled := by
  induction h with
  | nil => exact .nil _
  | cons first _ ih => exact .cons (first.frame below) ih

/-- Tokens stand for one operand with these nodes if they settle just these, whatever waits, and
leave waiting what waited. -/
def Yields (tokens : List Token) (nodes : Program) : Prop :=
  ∀ pending, Steps ⟨pending, none⟩ tokens ⟨pending, none⟩ nodes

theorem yields_word (word : Text) : Yields [.word word] [Node.ofWord word] :=
  fun pending => (Step.word pending word).single

/-- A group stands for one operand, with the nodes of the tokens in it. -/
theorem yields_group {tokens : List Token} {program : Program} (hclosed : Token.Closed tokens)
    (h : Program.ofTokens tokens = .ok program) :
    Yields (.openParen :: tokens ++ [.closeParen]) program := by
  intro pending
  obtain ⟨last, settled, rest, hsteps, hfinish, rfl⟩ := exists_steps_of_run h
  obtain ⟨hgroup, hrest⟩ := of_finish_eq_ok hfinish
  have hphrase : last.phrase = none := hsteps.phrase_eq_none_iff.mpr hclosed
  have hframe := hsteps.frame pending
  rw [hphrase] at hframe hrest
  have hclose := Step.closeGroup _ _ _ (Pending.closeGroup?_append hgroup pending)
  have hgrouped := (Step.openGroup pending).single.append (hframe.append hclose.single)
  rw [hrest]
  exact hgrouped

/-- An operand by itself is its own program. -/
theorem Yields.ofTokens {tokens : List Token} {nodes : Program} (h : Yields tokens nodes) :
    Program.ofTokens tokens = .ok nodes := by
  have hend : finish ⟨[], none⟩ = .ok [] := rfl
  rw [(h []).ofTokens_eq hend, List.append_nil]

/-- An end that fails leaves a group open, wherever the query ends. -/
theorem finish_cases (state : Conversion) :
    (∃ rest, state.finish = .ok rest) ∨ state.finish = .error .unmatchedOpen := by
  rw [finish]
  split
  · exact .inr rfl
  · exact .inl ⟨_, rfl⟩

/-- The index of the first token matters to the place of a fault only. -/
theorem run_cases (state : Conversion) (tokens : List Token) :
    (∃ program, ∀ position, state.run position tokens = .ok program) ∨
      ∃ fault : QueryError,
        ∀ position, state.run position tokens = .error (fault.shift position) := by
  rcases steps_cases state tokens with
    ⟨last, settled, hsteps⟩ | ⟨before, rest, last, settled, rfl, hsteps, hphrase, hgroup⟩
  · rcases finish_cases last with ⟨rest, hfinish⟩ | hfinish
    · left
      refine ⟨settled ++ rest, fun position => ?_⟩
      rw [hsteps.run_eq, hfinish]
      rfl
    · right
      refine ⟨.unmatchedOpen, fun position => ?_⟩
      rw [hsteps.run_eq, hfinish]
      rfl
  · right
    refine ⟨.unmatchedClose before.length, fun position => ?_⟩
    rw [hsteps.run_unmatched hphrase hgroup, Nat.add_comm]
    rfl

end Conversion

namespace Program

open Conversion

/-- All that operands in one context have in common: either each gives a program with its own nodes
in the same place, or each gives the same fault, which moves with the tokens after the operand. -/
theorem ofTokens_operand {before : List Token} (hclosed : Token.Closed before)
    (after : List Token) :
    (∃ p₁ p₂ : Program, ∀ operand nodes, Yields operand nodes →
      ofTokens (before ++ operand ++ after) = .ok (p₁ ++ nodes ++ p₂)) ∨
    (∃ i < before.length, ∀ operand,
      ofTokens (before ++ operand ++ after) = .error (.unmatchedClose i)) ∨
    (∃ fault : QueryError, ∀ operand nodes, Yields operand nodes →
      ofTokens (before ++ operand ++ after) =
        .error (fault.shift (before.length + operand.length))) := by
  -- the tokens before the operand fail by themselves, or they leave a state that no operand changes
  rcases steps_cases start before with
    ⟨⟨pending, phrase⟩, settled, hsteps⟩ |
    ⟨first, rest, last, settled, rfl, hsteps, hphrase, hgroup⟩
  · have hphrase : phrase = none := hsteps.phrase_eq_none_iff.mpr hclosed
    subst hphrase
    have hrun : ∀ operand nodes, Yields operand nodes →
        ofTokens (before ++ operand ++ after) =
          (run ⟨pending, none⟩ (before.length + operand.length) after).map fun rest =>
            settled ++ nodes ++ rest := by
      intro operand nodes hyields
      have hboth := (hsteps.append (hyields pending)).run_append 0 after
      rwa [List.length_append, Nat.zero_add] at hboth
    rcases run_cases ⟨pending, none⟩ after with ⟨rest, hrest⟩ | ⟨fault, hfault⟩
    · left
      refine ⟨settled, rest, fun operand nodes hyields => ?_⟩
      rw [hrun operand nodes hyields, hrest]
      rfl
    · right; right
      refine ⟨fault, fun operand nodes hyields => ?_⟩
      rw [hrun operand nodes hyields, hfault]
      rfl
  · right; left
    refine ⟨first.length, by simp, fun operand => ?_⟩
    have hfails : ofTokens (first ++ .closeParen :: (rest ++ operand ++ after)) =
        .error (.unmatchedClose (0 + first.length)) := hsteps.run_unmatched hphrase hgroup 0 _
    rw [Nat.zero_add] at hfails
    simpa using hfails

/-- A group is converted on its own, whatever stands around it. If a query with a word in some
place has a program, then with a group for that word it has the same program, but for the program
of the tokens in the group where the word's node stood; and what stands around is the same for all
words and groups. If the query with the word fails, so does that with the group, and the fault is
the same but for the place of a `)` that stands after. So a query in parentheses has the program of
the query. -/
theorem ofTokens_group (before after : List Token) (hclosed : Token.Closed before) :
    (∃ p₁ p₂ : Program, ∀ (word : Text) (tokens : List Token) (program : Program),
      Token.Closed tokens → ofTokens tokens = .ok program →
        (∀ result, ofTokens (before ++ [.word word] ++ after) = .ok result →
          result = p₁ ++ [Node.ofWord word] ++ p₂ ∧
          ofTokens (before ++ (.openParen :: tokens ++ [.closeParen]) ++ after) =
            .ok (p₁ ++ program ++ p₂)) ∧
        (∀ fault, ofTokens (before ++ [.word word] ++ after) = .error fault →
          ofTokens (before ++ (.openParen :: tokens ++ [.closeParen]) ++ after) =
            .error (fault.shiftFrom (before.length + 1) (tokens.length + 1)))) ∧
    ∀ (tokens : List Token) (program : Program), Token.Closed tokens →
      ofTokens tokens = .ok program →
        ofTokens (.openParen :: tokens ++ [.closeParen]) = .ok program := by
  refine ⟨?_, fun tokens program htokens hprogram => (yields_group htokens hprogram).ofTokens⟩
  rcases ofTokens_operand hclosed after with ⟨p₁, p₂, hok⟩ | ⟨i, hi, hfails⟩ | ⟨fault, hfails⟩
  · refine ⟨p₁, p₂, fun word tokens program htokens hprogram => ⟨?_, ?_⟩⟩
    · intro result hresult
      rw [hok _ _ (yields_word word)] at hresult
      exact ⟨(Except.ok.inj hresult).symm, hok _ _ (yields_group htokens hprogram)⟩
    · intro fault hfault
      rw [hok _ _ (yields_word word)] at hfault
      cases hfault
  · refine ⟨[], [], fun word tokens program _ _ => ⟨?_, ?_⟩⟩
    · intro result hresult
      rw [hfails] at hresult
      cases hresult
    · intro fault hfault
      rw [hfails] at hfault ⊢
      have hlt : ¬ before.length + 1 ≤ i := by omega
      rw [← Except.error.inj hfault, QueryError.shiftFrom, if_neg hlt]
  · refine ⟨[], [], fun word tokens program htokens hprogram => ⟨?_, ?_⟩⟩
    · intro result hresult
      rw [hfails _ _ (yields_word word)] at hresult
      cases hresult
    · intro fault' hfault
      rw [hfails _ _ (yields_word word)] at hfault
      rw [hfails _ _ (yields_group htokens hprogram), ← Except.error.inj hfault,
        QueryError.shiftFrom_shift (by simp)]
      have hplace : before.length + [Token.word word].length + (tokens.length + 1) =
          before.length + (.openParen :: tokens ++ [.closeParen] : List Token).length := by
        simp
        omega
      rw [hplace]

/-- A group with misplaced operators after a parenthesis in quotes, once in a query that has a
program and once in one with a `)` too many. -/
theorem ofTokens_group_misplaced :
    let before := Token.ofQuery "plum AND NOT ( \")\"".toList
    let tokens := Token.ofQuery "OR red NOT ( pear* )".toList
    let program : Program :=
      [.term "\"red\"".toList, .term "pear*".toList, .operator .not, .operator .or]
    Token.Closed before ∧ Token.Closed tokens ∧ ofTokens tokens = .ok program ∧
    (∃ p₁ p₂ : Program, (∃ result,
      ofTokens (before ++ [.word "fig".toList] ++ Token.ofQuery ") OR".toList) = .ok result ∧
      result = p₁ ++ [Node.ofWord "fig".toList] ++ p₂) ∧
      ofTokens (before ++ (.openParen :: tokens ++ [.closeParen]) ++
        Token.ofQuery ") OR".toList) = .ok (p₁ ++ program ++ p₂)) ∧
    ofTokens (before ++ [.word "fig".toList] ++ Token.ofQuery ") OR )".toList) =
      .error (.unmatchedClose 10) ∧
    ofTokens (before ++ (.openParen :: tokens ++ [.closeParen]) ++
      Token.ofQuery ") OR )".toList) = .error (.unmatchedClose 17) ∧
    ofTokens (.openParen :: tokens ++ [.closeParen]) = .ok program := by
  refine ⟨by decide, by decide, rfl, ?_, rfl, ?_, ?_⟩
  · obtain ⟨⟨p₁, p₂, hgroup⟩, -⟩ := ofTokens_group (Token.ofQuery "plum AND NOT ( \")\"".toList)
      (Token.ofQuery ") OR".toList) (by decide)
    obtain ⟨hresult, hprogram⟩ := (hgroup "fig".toList
      (Token.ofQuery "OR red NOT ( pear* )".toList) _ (by decide) rfl).1 _ rfl
    exact ⟨p₁, p₂, ⟨_, rfl, hresult⟩, hprogram⟩
  · obtain ⟨⟨p₁, p₂, hgroup⟩, -⟩ := ofTokens_group (Token.ofQuery "plum AND NOT ( \")\"".toList)
      (Token.ofQuery ") OR )".toList) (by decide)
    exact (hgroup "fig".toList (Token.ofQuery "OR red NOT ( pear* )".toList) _ (by decide)
      rfl).2 _ rfl
  · exact (ofTokens_group [] [] (by decide)).2 _ _ (by decide) rfl

end Program

end BooleanSearch
