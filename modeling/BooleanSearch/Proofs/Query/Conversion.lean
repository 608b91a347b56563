import BooleanSearch.Proofs.Query.Pending
import BooleanSearch.Proofs.Result
import BooleanSearch.Query.Postfix

/-!
# Runs of the conversion

`Step` lists all that one token can do to a state when it does not fail, and `Steps` all that some
tokens can do. A run that does not fail takes its steps and then settles what waits, so what every
step preserves is preserved by every run. A run that fails takes its steps up to a `)` that closes
nothing, or takes them all and leaves a group open.
-/

namespace BooleanSearch.Conversion

/-- What a token that does not fail does to a state, and the nodes that it settles. -/
inductive Step : Conversion → Token → Conversion → Program → Prop
  | extendPhrase (pending : List Pending) (phrase : Text) (token : Token) (h : token ≠ .quote) :
    Step ⟨pending, some phrase⟩ token ⟨pending, some (extendPhrase phrase token)⟩ []
  | closePhrase (pending : List Pending) (phrase : Text) :
    Step ⟨pending, some phrase⟩ .quote ⟨pending, none⟩ (closePhrase phrase)
  | openPhrase (pending : List Pending) :
    Step ⟨pending, none⟩ .quote ⟨pending, some []⟩ []
  | openGroup (pending : List Pending) :
    Step ⟨pending, none⟩ .openParen ⟨.group :: pending, none⟩ []
  | closeGroup (pending below : List Pending) (settled : Program)
    (h : Pending.closeGroup? pending = some (settled, below)) :
    Step ⟨pending, none⟩ .closeParen ⟨below, none⟩ settled
  | operator (pending : List Pending) (op : Operator) :
    Step ⟨pending, none⟩ (.operator op) ⟨(Pending.push op pending).2, none⟩
      (Pending.push op pending).1
  | word (pending : List Pending) (word : Text) :
    Step ⟨pending, none⟩ (.word word) ⟨pending, none⟩ [Node.ofWord word]

/-- The index of a token matters to faults only. -/
theorem step_eq_ok_iff {state next : Conversion} {position : Nat} {token : Token}
    {settled : Program} :
    state.step position token = .ok (next, settled) ↔ Step state token next settled := by
  constructor
  · intro h
    obtain ⟨pending, phrase⟩ := state
    cases phrase with
    | some phrase => cases token <;> cases h <;> constructor <;> simp
    | none =>
      cases token with
      | closeParen =>
        simp only [step] at h
        split at h
        · next hclose => cases h; exact .closeGroup _ _ _ hclose
        · cases h
      | openParen => cases h; exact .openGroup pending
      | quote => cases h; exact .openPhrase pending
      | operator op => cases h; exact .operator pending op
      | word word => cases h; exact .word pending word
  · intro h
    cases h with
    | extendPhrase pending phrase _ h => cases token <;> first | rfl | exact absurd rfl h
    | closeGroup pending below _ h => simp [step, h]
    | closePhrase | openPhrase | openGroup | operator | word => rfl

/-- A token does one thing to a state. -/
theorem Step.unique {state next next' : Conversion} {token : Token} {settled settled' : Program}
    (h : Step state token next settled) (h' : Step state token next' settled') :
    next = next' ∧ settled = settled' := by
  have hstep : state.step 0 token = .ok (next, settled) := step_eq_ok_iff.mpr h
  rw [step_eq_ok_iff.mpr h'] at hstep
  cases hstep
  exact ⟨rfl, rfl⟩

/-- What some tokens do to a state, none of them failing, and the nodes that they settle. -/
inductive Steps : Conversion → List Token → Conversion → Program → Prop
  | nil (state : Conversion) : Steps state [] state []
  | cons {state next last : Conversion} {token : Token} {tokens : List Token}
    {settled rest : Program} (first : Step state token next settled)
    (more : Steps next tokens last rest) : Steps state (token :: tokens) last (settled ++ rest)

theorem Step.single {state next : Conversion} {token : Token} {settled : Program}
    (h : Step state token next settled) : Steps state [token] next settled := by
  simpa using Steps.cons h (Steps.nil next)

theorem Steps.append {state middle last : Conversion} {tokens more : List Token}
    {settled rest : Program} (h : Steps state tokens middle settled)
    (h' : Steps middle more last rest) : Steps state (tokens ++ more) last (settled ++ rest) := by
  induction h with
  | nil => simpa using h'
  | cons first _ ih =>
    rw [List.cons_append, List.append_assoc]
    exact .cons first (ih h')

/-- The state after some tokens, the first of them having this index, and the nodes that they
settle: a run without its end. -/
def steps (state : Conversion) (position : Nat) :
    List Token → Except QueryError (Conversion × Program)
  | [] => .ok (state, [])
  | token :: tokens => do
    let (next, settled) ← state.step position token
    let (last, rest) ← next.steps (position + 1) tokens
    return (last, settled ++ rest)

theorem steps_eq_ok_iff {state last : Conversion} {position : Nat} {tokens : List Token}
    {settled : Program} :
    state.steps position tokens = .ok (last, settled) ↔ Steps state tokens last settled := by
  induction tokens generalizing state position settled with
  | nil =>
    constructor
    · intro h
      cases h
      exact .nil _
    · intro h
      cases h
      rfl
  | cons token tokens ih =>
    constructor
    · intro h
      obtain ⟨⟨next, first⟩, hstep, h⟩ := exists_of_bind_eq_ok h
      obtain ⟨⟨last, rest⟩, hsteps, h⟩ := exists_of_bind_eq_ok h
      cases h
      exact .cons (step_eq_ok_iff.mp hstep) (ih.mp hsteps)
    · intro h
      cases h with
      | cons first more =>
        rw [steps, step_eq_ok_iff.mpr first]
        simp only [bind, Except.bind]
        rw [ih.mpr more]
        rfl

theorem Steps.unique {state last last' : Conversion} {tokens : List Token}
    {settled settled' : Program} (h : Steps state tokens last settled)
    (h' : Steps state tokens last' settled') : last = last' ∧ settled = settled' := by
  have hsteps : state.steps 0 tokens = .ok (last, settled) := steps_eq_ok_iff.mpr h
  rw [steps_eq_ok_iff.mpr h'] at hsteps
  cases hsteps
  exact ⟨rfl, rfl⟩

/-- A run takes its steps and then its end. -/
theorem run_eq_steps (state : Conversion) (position : Nat) (tokens : List Token) :
    state.run position tokens = (do
      let (last, settled) ← state.steps position tokens
      let rest ← last.finish
      return settled ++ rest) := by
  induction tokens generalizing state position with
  | nil =>
    rw [run, steps]
    cases h : state.finish <;> simp [bind, Except.bind, pure, Except.pure, h]
  | cons token tokens ih =>
    rw [run, steps]
    cases hstep : state.step position token with
    | error fault => rfl
    | ok entry =>
      obtain ⟨next, settled⟩ := entry
      simp only [bind, Except.bind, ih]
      cases hsteps : next.steps (position + 1) tokens with
      | error fault => rfl
      | ok entry =>
        obtain ⟨last, rest⟩ := entry
        cases hfinish : last.finish <;> simp [pure, Except.pure, hfinish]

/-- A run whose first tokens do not fail goes on with the others from the state that is left. -/
theorem Steps.run_append {state last : Conversion} {tokens : List Token} {settled : Program}
    (h : Steps state tokens last settled) (position : Nat) (more : List Token) :
    state.run position (tokens ++ more) =
      (last.run (position + tokens.length) more).map fun rest => settled ++ rest := by
  induction h generalizing position with
  | nil state =>
    rw [List.nil_append, List.length_nil, Nat.add_zero]
    cases hrun : state.run position more <;> simp [Except.map]
  | @cons state next last token tokens settled rest first more' ih =>
    have hposition : position + 1 + tokens.length = position + (tokens.length + 1) := by omega
    rw [List.cons_append, run, step_eq_ok_iff.mpr first, List.length_cons, ← hposition]
    simp only [bind, Except.bind, ih]
    cases hrun : last.run (position + 1 + tokens.length) more <;>
      simp [Except.map, pure, Except.pure]

/-- A run that does not fail takes all its steps and then settles what waits. -/
theorem exists_steps_of_run {state : Conversion} {position : Nat} {tokens : List Token}
    {program : Program} (h : state.run position tokens = .ok program) :
    ∃ last settled rest, Steps state tokens last settled ∧ last.finish = .ok rest ∧
      program = settled ++ rest := by
  rw [run_eq_steps] at h
  obtain ⟨⟨last, settled⟩, hsteps, h⟩ := exists_of_bind_eq_ok h
  obtain ⟨rest, hfinish, h⟩ := exists_of_bind_eq_ok h
  exact ⟨last, settled, rest, steps_eq_ok_iff.mp hsteps, hfinish, (Except.ok.inj h).symm⟩

/-- The end fails only if a group is open, and settles the open phrase and then what waits. -/
theorem of_finish_eq_ok {state : Conversion} {rest : Program} (h : state.finish = .ok rest) :
    .group ∉ state.pending ∧
      rest = (state.phrase.map closePhrase).getD [] ++ Pending.nodes state.pending := by
  rw [finish] at h
  split at h
  · cases h
  · next hgroup => exact ⟨hgroup, (Except.ok.inj h).symm⟩

/-- Steps over some tokens and then over others pass a state in between. -/
theorem Steps.exists_of_append {state last : Conversion} {tokens more : List Token}
    {settled : Program} (h : Steps state (tokens ++ more) last settled) :
    ∃ middle first rest, Steps state tokens middle first ∧ Steps middle more last rest ∧
      settled = first ++ rest := by
  induction tokens generalizing state settled with
  | nil => exact ⟨state, [], settled, .nil state, h, rfl⟩
  | cons token tokens ih =>
    cases h with
    | cons first more' =>
      obtain ⟨middle, settled', rest, hsteps, hrest, rfl⟩ := ih more'
      exact ⟨middle, _, rest, .cons first hsteps, hrest, (List.append_assoc _ _ _).symm⟩

/-- The only token that fails is a `)` outside phrases while no group is open. -/
theorem step_cases (state : Conversion) (token : Token) :
    (∃ next settled, Step state token next settled) ∨
      (token = .closeParen ∧ state.phrase = none ∧ .group ∉ state.pending) := by
  obtain ⟨pending, phrase⟩ := state
  cases phrase with
  | some phrase =>
    left
    by_cases hquote : token = .quote
    · subst hquote
      exact ⟨_, _, .closePhrase pending phrase⟩
    · exact ⟨_, _, .extendPhrase pending phrase token hquote⟩
  | none =>
    cases token with
    | openParen => exact .inl ⟨_, _, .openGroup pending⟩
    | quote => exact .inl ⟨_, _, .openPhrase pending⟩
    | operator op => exact .inl ⟨_, _, .operator pending op⟩
    | word word => exact .inl ⟨_, _, .word pending word⟩
    | closeParen =>
      cases hclose : Pending.closeGroup? pending with
      | none => exact .inr ⟨rfl, rfl, Pending.closeGroup?_eq_none_iff.mp hclose⟩
      | some entry => exact .inl ⟨_, _, .closeGroup pending entry.2 entry.1 hclose⟩

/-- Either every token takes its step, or the tokens before some `)` do and that one closes
nothing. -/
theorem steps_cases (state : Conversion) (tokens : List Token) :
    (∃ last settled, Steps state tokens last settled) ∨
      ∃ before rest last settled, tokens = before ++ .closeParen :: rest ∧
        Steps state before last settled ∧ last.phrase = none ∧ .group ∉ last.pending := by
  induction tokens generalizing state with
  | nil => exact .inl ⟨state, [], .nil state⟩
  | cons token tokens ih =>
    rcases step_cases state token with ⟨next, settled, hstep⟩ | ⟨rfl, hphrase, hgroup⟩
    · rcases ih next with ⟨last, rest, hsteps⟩ | ⟨before, rest, last, settled', rfl, hsteps, hlast⟩
      · exact .inl ⟨last, settled ++ rest, .cons hstep hsteps⟩
      · exact .inr
          ⟨token :: before, rest, last, settled ++ settled', rfl, .cons hstep hsteps, hlast⟩
    · exact .inr ⟨[], tokens, state, [], rfl, .nil state, hphrase, hgroup⟩

/-- A run all of whose tokens take their steps ends as the state that is left does. -/
theorem Steps.run_eq {state last : Conversion} {tokens : List Token} {settled : Program}
    (h : Steps state tokens last settled) (position : Nat) :
    state.run position tokens = last.finish.map fun rest => settled ++ rest := by
  have hrun := h.run_append position []
  rwa [List.append_nil, run] at hrun

/-- A conversion whose tokens and end do not fail gives all the nodes that they settle. -/
theorem Steps.ofTokens_eq {last : Conversion} {tokens : List Token} {settled rest : Program}
    (h : Steps start tokens last settled) (hfinish : last.finish = .ok rest) :
    Program.ofTokens tokens = .ok (settled ++ rest) := by
  rw [Program.ofTokens, h.run_eq, hfinish]
  rfl

/-- A run fails at a `)` that closes nothing, and the fault names its index. -/
theorem Steps.run_unmatched {state last : Conversion} {before : List Token} {settled : Program}
    (h : Steps state before last settled) (hphrase : last.phrase = none)
    (hgroup : .group ∉ last.pending) (position : Nat) (rest : List Token) :
    state.run position (before ++ .closeParen :: rest) =
      .error (.unmatchedClose (position + before.length)) := by
  have hclose : Pending.closeGroup? last.pending = none :=
    Pending.closeGroup?_eq_none_iff.mpr hgroup
  have hstep : last.step (position + before.length) .closeParen =
      .error (.unmatchedClose (position + before.length)) := by
    simp [step, hphrase, hclose]
  rw [h.run_append, run, hstep]
  rfl

end BooleanSearch.Conversion
