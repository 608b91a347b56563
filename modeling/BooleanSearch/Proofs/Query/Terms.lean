import BooleanSearch.Proofs.Query.Conversion
import BooleanSearch.Proofs.Query.Tokens
import BooleanSearch.Proofs.Target.Writing
import BooleanSearch.Proofs.Text.Trim

/-!
# The terms of a program

No token of a query holds a double quote, so no open phrase holds one, whatever the query repeats
in it. Hence every term that a step settles is a term of the target language, and so is every term
of the program of a query.
-/

namespace BooleanSearch

/-- All terms of a program are terms of the target language. -/
def Program.Proper (program : Program) : Prop :=
  ∀ text, .term text ∈ program → Target.IsTerm text

namespace Program

theorem proper_nil : Proper [] := by
  intro text h
  cases h

theorem Proper.append {program more : Program} (h : program.Proper) (h' : more.Proper) :
    Proper (program ++ more) := by
  intro text hmem
  rcases List.mem_append.mp hmem with hmem | hmem
  · exact h text hmem
  · exact h' text hmem

theorem proper_singleton {text : Text} (h : Target.IsTerm text) : Proper [.term text] := by
  intro text' hmem
  cases List.mem_singleton.mp hmem
  exact h

theorem Proper.operator_cons {program : Program} (h : program.Proper) (op : Operator) :
    Proper (.operator op :: program) := by
  intro text hmem
  rcases List.mem_cons.mp hmem with hmem | hmem
  · cases hmem
  · exact h text hmem

theorem proper_nodes (pending : List Pending) : Proper (Pending.nodes pending) := by
  induction pending with
  | nil => exact proper_nil
  | cons entry pending ih =>
    cases entry with
    | group => exact ih
    | operator op => exact ih.operator_cons op

theorem proper_closeGroup? {pending below : List Pending} {settled : Program}
    (h : Pending.closeGroup? pending = some (settled, below)) : Proper settled := by
  obtain ⟨top, -, -, rfl⟩ := Pending.exists_of_closeGroup? h
  exact proper_nodes top

theorem proper_push (op : Operator) (pending : List Pending) :
    Proper (Pending.push op pending).1 := by
  obtain ⟨top, below, -, -, hpush⟩ := Pending.exists_push op pending
  rw [hpush]
  exact proper_nodes top

/-- The term of a word that a query can hold is a term of the target language. -/
theorem proper_ofWord {word : Text} (h : Token.IsWord word) : Proper [Node.ofWord word] := by
  by_cases hstar : '*' ∈ word
  · simpa [Node.ofWord, hstar] using proper_singleton (.wildcard word hstar h.unbroken)
  · have hquote : '"' ∉ word := h.not_mem (by decide)
    simpa [Node.ofWord, Node.literal, hstar] using
      proper_singleton (.literal word h.nonempty hquote)

/-- A phrase without double quotes is no term if it is blank, and else a term of the target
language. -/
theorem proper_closePhrase {phrase : Text} (h : '"' ∉ phrase) :
    Proper (Conversion.closePhrase phrase) := by
  rw [Conversion.closePhrase]
  split
  · exact proper_nil
  · next hne =>
    have hquote : '"' ∉ Text.trim phrase := fun hmem => h ((Text.trim_sublist phrase).subset hmem)
    exact proper_singleton (.literal _ hne hquote)

end Program

namespace Conversion

/-- No phrase that is open holds a double quote. -/
def Clean (state : Conversion) : Prop := ∀ phrase ∈ state.phrase, '"' ∉ phrase

theorem quote_not_mem_keyword (op : Operator) : '"' ∉ op.keyword := by
  cases op <;> decide

theorem quote_not_mem_extendPhrase {phrase : Text} {token : Token} (hphrase : '"' ∉ phrase)
    (htoken : token.Proper) : '"' ∉ extendPhrase phrase token := by
  cases token with
  | openParen => simpa [extendPhrase] using hphrase
  | closeParen =>
    have htrim : '"' ∉ Text.trim phrase :=
      fun hmem => hphrase ((Text.trim_sublist phrase).subset hmem)
    simpa [extendPhrase, hphrase] using htrim
  | quote => exact hphrase
  | operator op => simpa [extendPhrase, hphrase] using quote_not_mem_keyword op
  | word word =>
    have hword : '"' ∉ word := Token.IsWord.not_mem htoken (by decide)
    simpa [extendPhrase, hphrase] using hword

/-- What one step preserves, and what it settles. -/
theorem Step.proper {state next : Conversion} {token : Token} {settled : Program}
    (h : Step state token next settled) (hclean : state.Clean) (htoken : token.Proper) :
    next.Clean ∧ settled.Proper := by
  have hnone : ∀ pending, Clean ⟨pending, none⟩ := by
    intro pending phrase hphrase
    cases hphrase
  cases h with
  | extendPhrase pending phrase =>
    refine ⟨?_, Program.proper_nil⟩
    intro phrase' hphrase'
    cases hphrase'
    exact quote_not_mem_extendPhrase (hclean phrase rfl) htoken
  | closePhrase pending phrase =>
    exact ⟨hnone pending, Program.proper_closePhrase (hclean phrase rfl)⟩
  | openPhrase pending =>
    refine ⟨?_, Program.proper_nil⟩
    intro phrase hphrase
    cases hphrase
    exact List.not_mem_nil
  | openGroup pending => exact ⟨hnone _, Program.proper_nil⟩
  | closeGroup pending below _ hclose => exact ⟨hnone below, Program.proper_closeGroup? hclose⟩
  | operator pending op => exact ⟨hnone _, Program.proper_push op pending⟩
  | word pending word => exact ⟨hnone pending, Program.proper_ofWord htoken⟩

/-- What every run preserves, and what it settles. -/
theorem Steps.proper {state last : Conversion} {tokens : List Token} {settled : Program}
    (h : Steps state tokens last settled) (hclean : state.Clean)
    (htokens : ∀ token ∈ tokens, token.Proper) : last.Clean ∧ settled.Proper := by
  induction h with
  | nil => exact ⟨hclean, Program.proper_nil⟩
  | @cons _ _ _ token _ _ _ first _ ih =>
    obtain ⟨hnext, hsettled⟩ := first.proper hclean (htokens token List.mem_cons_self)
    obtain ⟨hlast, hrest⟩ := ih hnext fun t ht => htokens t (List.mem_cons_of_mem _ ht)
    exact ⟨hlast, hsettled.append hrest⟩

theorem proper_of_finish {state : Conversion} {rest : Program} (hclean : state.Clean)
    (h : state.finish = .ok rest) : rest.Proper := by
  rw [finish] at h
  split at h
  · cases h
  · cases h
    refine Program.Proper.append ?_ (Program.proper_nodes state.pending)
    cases hphrase : state.phrase with
    | none => exact Program.proper_nil
    | some phrase => exact Program.proper_closePhrase (hclean phrase hphrase)

end Conversion

namespace Program

/-- Every term of a query's program is a term of the target language. -/
theorem proper_of_ofQuery {query : Text} {program : Program} (h : ofQuery query = .ok program) :
    program.Proper := by
  obtain ⟨last, settled, rest, hsteps, hfinish, rfl⟩ := Conversion.exists_steps_of_run h
  have hstart : Conversion.start.Clean := by
    intro phrase hphrase
    cases hphrase
  obtain ⟨hlast, hsettled⟩ := hsteps.proper hstart fun _ => Token.proper_of_mem_ofQuery
  exact hsettled.append (Conversion.proper_of_finish hlast hfinish)

/-- The terms of an expression are those of its listing. -/
theorem proper_program_iff (e : Expression) : e.program.Proper ↔ e.Proper := by
  induction e with
  | term text =>
    constructor
    · intro h
      exact h text List.mem_cons_self
    · exact proper_singleton
  | not operand ih => simp [Proper, Expression.program, Expression.Proper, ← ih]
  | join op left right ihleft ihright =>
    simp only [Proper, Expression.program, Expression.Proper, ← ihleft, ← ihright, List.mem_append]
    constructor
    · intro h
      exact ⟨fun text ht => h text (.inl (.inl ht)), fun text ht => h text (.inl (.inr ht))⟩
    · rintro ⟨hleft, hright⟩ text ((ht | ht) | ht)
      · exact hleft text ht
      · exact hright text ht
      · simp at ht

end Program

end BooleanSearch
