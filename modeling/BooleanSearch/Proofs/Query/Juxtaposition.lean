import BooleanSearch.Proofs.Query.Operand
import BooleanSearch.Proofs.Target.Faithful

/-!
# Juxtaposed expressions

Nothing in the conversion notices that an operand directly follows another one. If an expression is
followed by another without a connective between them, then the operators that still wait are
settled only after the first operand of the second one, and take it for their own. So expressions in
a row give the text of the last one exactly if what waits for it is an even number of `NOT`s.
-/

namespace BooleanSearch

namespace Infix

open Conversion

theorem exists_nots (e : Infix .not) (count : Nat) :
    ∃ e' : Infix .not, e'.tokens = List.replicate count (.operator .not) ++ e.tokens ∧
      e'.expression.reduce =
        if count % 2 = 0 then e.expression.reduce else e.expression.reduce.negate := by
  induction count with
  | zero => exact ⟨e, rfl, rfl⟩
  | succ count ih =>
    obtain ⟨e', htokens, hreduce⟩ := ih
    refine ⟨.not e', ?_, ?_⟩
    · rw [tokens, htokens]
      rfl
    · rw [expression, Expression.reduce, hreduce]
      rcases Nat.mod_two_eq_zero_or_one count with heven | hodd
      · have hnext : ¬ (count + 1) % 2 = 0 := by omega
        rw [if_pos heven, if_neg hnext]
      · have hnext : (count + 1) % 2 = 0 := by omega
        have hodd' : ¬ count % 2 = 0 := by omega
        rw [if_neg hodd', if_pos hnext, (Expression.normal_reduce _).negate_negate]

/-- `NOT`s in front of a derivation negate its first operand, so an even number of them changes
nothing. -/
theorem exists_negated {level : Level} (e : Infix level) (hlevel : level ≠ .atom) (count : Nat) :
    ∃ e' : Infix level, e'.tokens = List.replicate count (.operator .not) ++ e.tokens ∧
      (e'.expression.reduce = e.expression.reduce ↔ count % 2 = 0) := by
  have hnots : ∀ e : Infix .not, ∃ e' : Infix .not,
      e'.tokens = List.replicate count (.operator .not) ++ e.tokens ∧
      (e'.expression.reduce = e.expression.reduce ↔ count % 2 = 0) := by
    intro e
    obtain ⟨e', htokens, hreduce⟩ := exists_nots e count
    refine ⟨e', htokens, ?_⟩
    rw [hreduce]
    split
    · next heven => exact iff_of_true rfl heven
    · next hodd => exact iff_of_false (Expression.negate_ne _) hodd
  induction e with
  | word | phrase | group => exact absurd rfl hlevel
  | ofAtom atom => exact hnots (.ofAtom atom)
  | not operand => exact hnots (.not operand)
  | ofNot operand =>
    obtain ⟨e', htokens, hreduce⟩ := hnots operand
    exact ⟨.ofNot e', htokens, hreduce⟩
  | ofAnd operand ih =>
    obtain ⟨e', htokens, hreduce⟩ := ih (by simp)
    exact ⟨.ofAnd e', htokens, hreduce⟩
  | and left right ih =>
    obtain ⟨e', htokens, hreduce⟩ := ih (by simp)
    refine ⟨.and e' right, ?_, ?_⟩
    · rw [tokens, htokens, tokens, List.append_assoc]
    · rw [← hreduce]
      simp [expression, Expression.reduce]
  | or left right ih =>
    obtain ⟨e', htokens, hreduce⟩ := ih (by simp)
    refine ⟨.or e' right, ?_, ?_⟩
    · rw [tokens, htokens, tokens, List.append_assoc]
    · rw [← hreduce]
      simp [expression, Expression.reduce]

theorem steps_replicate_not (count : Nat) (pending : List Pending) :
    Steps ⟨pending, none⟩ (List.replicate count (.operator .not))
      ⟨List.replicate count (.operator .not) ++ pending, none⟩ [] := by
  induction count generalizing pending with
  | zero => exact .nil _
  | succ count ih =>
    have hrest := ih (.operator .not :: pending)
    rw [List.append_cons, ← List.replicate_succ'] at hrest
    exact (Step.operator pending .not).single.append hrest

/-- On `NOT`s that wait, an expression is read as if they stood in front of it. -/
theorem run_on_nots {e e' : Infix .or} {count : Nat} {rest : Program}
    (htokens : e'.tokens = List.replicate count (.operator .not) ++ e.tokens)
    (hrun : ∀ position, run ⟨List.replicate count (.operator .not), none⟩ position e.tokens =
      .ok rest) : rest = e'.expression.program := by
  have hnots := steps_replicate_not count []
  have hprogram : Program.ofTokens e'.tokens = .ok e'.expression.program := by
    rw [ofTokens_tokens, settled_append_waiting]
  rw [List.append_nil] at hnots
  rw [htokens, Program.ofTokens, start, hnots.run_append, hrun] at hprogram
  exact Except.ok.inj hprogram

end Infix

namespace Expression

theorem terms_program_negate (e : Expression) :
    Program.terms e.negate.program = Program.terms e.program := by
  have hnot : ∀ e : Expression, Program.terms (Expression.not e).program =
      Program.terms e.program := by
    intro e
    rw [program, Program.terms_append]
    exact List.append_nil _
  cases e with
  | not operand => exact (hnot operand).symm
  | term text => rfl
  | join op left right => exact hnot (.join op left right)

theorem terms_program_reduce (e : Expression) :
    Program.terms e.reduce.program = Program.terms e.program := by
  induction e with
  | term text => rfl
  | not operand ih =>
    rw [reduce, terms_program_negate, ih, program, Program.terms_append]
    exact (List.append_nil _).symm
  | join op left right ihleft ihright =>
    rw [reduce, program, program, Program.terms_append, Program.terms_append, ihleft, ihright,
      Program.terms_append, Program.terms_append]

end Expression

namespace Program

open Conversion

theorem operators_nodes_replicate (op : Operator) (count : Nat) :
    operators (Pending.nodes (List.replicate count (.operator op))) = List.replicate count op := by
  induction count with
  | zero => rfl
  | succ count ih => exact congrArg (List.cons op) ih

/-- How expressions in a row are read: those before the last settle some nodes and leave operators
waiting, and on these the last one is read. -/
structure Juxtaposition (before : List (Infix .or)) (last : Infix .or) (pending : List Pending)
    (settled rest : Program) : Prop where
  steps : Steps start (before.flatMap Infix.tokens) ⟨pending, none⟩ settled
  run : ∀ position, run ⟨pending, none⟩ position last.tokens = .ok rest
  head : ∃ text more, rest = .term text :: more
  terms : terms rest = terms last.expression.program
  operators : (operators rest).Perm
    (operators (Pending.nodes pending) ++ operators last.expression.program)
  connectives_pos : (∃ e ∈ before, e.joins = true) → 0 < connectives (Pending.nodes pending)
  depth : ∃ n, depth (settled ++ rest) 0 = .ok (n + 1)

theorem exists_juxtaposition (before : List (Infix .or)) (last : Infix .or) :
    ∃ pending settled rest, Juxtaposition before last pending settled rest := by
  have hgroup : Pending.group ∉ ([] : List Pending) := List.not_mem_nil
  obtain ⟨pending, settled, m, hsteps, hgroup, hm, hle, hpos⟩ :=
    Infix.exists_steps_flatMap before hgroup (Nat.le_refl 0)
  obtain ⟨rest, hrun, hhead, hterms, hoperators, n, hn⟩ := Infix.exists_run last hgroup hle
  refine ⟨pending, settled, rest, hsteps, hrun, hhead, hterms, hoperators, ?_, n, ?_⟩
  · intro hjoins
    exact hpos (.inr hjoins)
  · rw [depth_append, hm]
    exact hn

namespace Juxtaposition

variable {before : List (Infix .or)} {last : Infix .or} {pending : List Pending}
  {settled rest : Program}

theorem ofTokens_eq (h : Juxtaposition before last pending settled rest) :
    ofTokens (before.flatMap Infix.tokens ++ last.tokens) = .ok (settled ++ rest) := by
  rw [ofTokens, h.steps.run_append, h.run]
  rfl

/-- An end of the program that lists as many terms as the last expression has is all that is settled
from the first operand of that expression on. -/
theorem program_eq (h : Juxtaposition before last pending settled rest) {e : Expression}
    (hsuffix : e.program <:+ settled ++ rest)
    (hterms : (Program.terms e.program).length =
      (Program.terms last.expression.program).length) : e.program = rest := by
  apply eq_of_suffix hsuffix (List.suffix_append _ _) e.exists_program_eq_cons h.head
  rw [hterms, h.terms]

/-- In that case no connective waited for the last expression, as it would join one more term. -/
theorem joins_eq_false (h : Juxtaposition before last pending settled rest) {e : Expression}
    (hsuffix : e.program <:+ settled ++ rest)
    (hterms : (Program.terms e.program).length =
      (Program.terms last.expression.program).length) : ∀ e ∈ before, e.joins = false := by
  have hconnectives : connectives rest =
      connectives (Pending.nodes pending) + connectives last.expression.program := by
    rw [connectives, h.operators.countP_eq, List.countP_append]
    rfl
  have hcount := connectives_program e
  have hcount' := connectives_program last.expression
  rw [hterms, h.program_eq hsuffix hterms, hconnectives] at hcount
  intro e' he'
  cases hjoins : e'.joins with
  | false => rfl
  | true =>
    have hpos := h.connectives_pos ⟨e', he', hjoins⟩
    omega

/-- Without connectives outside groups, only `NOT`s wait for the last expression. -/
theorem eq_of_joins_eq_false (h : Juxtaposition before last pending settled rest)
    (hjoins : ∀ e ∈ before, e.joins = false) :
    pending = List.replicate (before.map Infix.negations).sum (.operator .not) ∧
      settled = before.flatMap Infix.settled := by
  obtain ⟨hlast, hsettled⟩ := h.steps.unique (Infix.steps_flatMap_of_joins_eq_false hjoins [])
  rw [List.append_nil] at hlast
  cases hlast
  exact ⟨rfl, hsettled⟩

/-- The program keeps the expressions apart exactly if each before the last is a single operand. -/
theorem append_eq_iff (h : Juxtaposition before last pending settled rest) :
    settled ++ rest =
        before.flatMap (fun e => e.expression.program) ++ last.expression.program ↔
      ∀ e ∈ before, e.joins = false ∧ e.negations = 0 := by
  constructor
  · intro hprogram
    have hsuffix : last.expression.program <:+ settled ++ rest := by
      rw [hprogram]
      exact List.suffix_append _ _
    have hjoins := h.joins_eq_false hsuffix rfl
    have hlength := h.operators.length_eq
    rw [← h.program_eq hsuffix rfl, List.length_append, (h.eq_of_joins_eq_false hjoins).1,
      operators_nodes_replicate, List.length_replicate] at hlength
    have hsum : (before.map Infix.negations).sum = 0 := by omega
    intro e he
    exact ⟨hjoins e he,
      List.sum_eq_zero_iff_forall_eq_nat.mp hsum _ (List.mem_map_of_mem he)⟩
  · intro hsingle
    have hsettled : before.map Infix.settled = before.map fun e => e.expression.program := by
      apply List.map_congr_left
      intro e he
      have hprogram := e.settled_append_waiting
      rwa [Infix.waiting_of_joins_eq_false (hsingle e he).1, (hsingle e he).2,
        List.replicate_zero, Pending.nodes, List.append_nil] at hprogram
    have hsum : (before.map Infix.negations).sum = 0 := by
      rw [List.sum_eq_zero_iff_forall_eq_nat]
      intro count hcount
      obtain ⟨e, he, rfl⟩ := List.mem_map.mp hcount
      exact (hsingle e he).2
    obtain ⟨hpending, rfl⟩ := h.eq_of_joins_eq_false fun e he => (hsingle e he).1
    rw [hsum, List.replicate_zero] at hpending
    have hrun := h.run 0
    have hlast : ofTokens last.tokens = .ok last.expression.program := by
      rw [Infix.ofTokens_tokens, Infix.settled_append_waiting]
    rw [hpending] at hrun
    obtain rfl : rest = last.expression.program := Except.ok.inj (hrun.symm.trans hlast)
    rw [List.flatMap_def, hsettled, ← List.flatMap_def]

/-- The last expression of the program is that of the last derivation, but for double negations,
exactly if no connective and an even number of `NOT`s waited for that derivation. -/
theorem reduce_eq_iff (h : Juxtaposition before last pending settled rest) {e : Expression}
    {below : List Expression} (hbuild : build (settled ++ rest) [] = .ok (e :: below))
    (hsuffix : e.program <:+ settled ++ rest) :
    e.reduce = last.expression.reduce ↔
      (∀ e ∈ before, e.joins = false) ∧ (before.map Infix.negations).sum % 2 = 0 := by
  have hnots : (∀ e ∈ before, e.joins = false) →
      (e.reduce = last.expression.reduce ↔ (before.map Infix.negations).sum % 2 = 0) := by
    intro hjoins
    obtain ⟨rfl, -⟩ := h.eq_of_joins_eq_false hjoins
    obtain ⟨e', htokens, hreduce⟩ :=
      last.exists_negated (by simp) (before.map Infix.negations).sum
    obtain rfl := Infix.run_on_nots htokens h.run
    rw [runsOnStack_build.append] at hbuild
    obtain ⟨stack, -, hbuild⟩ := exists_of_bind_eq_ok hbuild
    rw [build_program] at hbuild
    cases hbuild
    exact hreduce
  constructor
  · intro hreduce
    have hjoins : ∀ e ∈ before, e.joins = false := by
      apply h.joins_eq_false hsuffix
      rw [← e.terms_program_reduce, hreduce, Expression.terms_program_reduce]
    exact ⟨hjoins, (hnots hjoins).mp hreduce⟩
  · rintro ⟨hjoins, heven⟩
    exact (hnots hjoins).mpr heven

end Juxtaposition

/-- Expressions in a row are always compiled. The program keeps them apart, so that no operator of
one takes an operand of another, exactly if each before the last is a single word, phrase or group.
And the text is that of the last expression by itself exactly if no expression before it has a
connective outside its groups and the `NOT`s that they begin with are even in number. -/
theorem render_juxtaposed (before : List (Infix .or)) (last : Infix .or)
    {query lastQuery field : Text}
    (hquery : Token.ofQuery query = before.flatMap Infix.tokens ++ last.tokens)
    (hlast : Token.ofQuery lastQuery = last.tokens) (hfield : isField field = true) :
    ∃ program text lastText, ofQuery query = .ok program ∧ program.render field = .ok text ∧
      (ofQuery lastQuery >>= render field) = .ok lastText ∧
      (program = before.flatMap (fun e => e.expression.program) ++ last.expression.program ↔
        ∀ e ∈ before, e.joins = false ∧ e.negations = 0) ∧
      (text = lastText ↔
        (∀ e ∈ before, e.joins = false) ∧ (before.map Infix.negations).sum % 2 = 0) := by
  obtain ⟨pending, settled, rest, hrow⟩ := exists_juxtaposition before last
  obtain ⟨n, hdepth⟩ := hrow.depth
  obtain ⟨e, below, hbuild, hsuffix⟩ := exists_build_of_depth hdepth
  have hprogram : ofQuery query = .ok (settled ++ rest) := by
    rw [ofQuery, hquery, hrow.ofTokens_eq]
  have hlastProgram : ofQuery lastQuery = .ok last.expression.program := by
    rw [ofQuery, hlast, Infix.ofTokens_tokens, Infix.settled_append_waiting]
  have hhead := head?_ne_of_isField hfield
  have hproper : e.Proper :=
    proper_of_mem_build hbuild (proper_of_ofQuery hprogram) List.mem_cons_self
  have hlastProper : last.expression.Proper :=
    (proper_program_iff _).mp (proper_of_ofQuery hlastProgram)
  refine ⟨settled ++ rest, e.rendering field, last.expression.rendering field, hprogram, ?_, ?_,
    hrow.append_eq_iff, ?_⟩
  · rw [render_eq_build hhead, hbuild]
    rfl
  · rw [hlastProgram]
    exact render_program hhead last.expression
  · rw [Expression.rendering_inj hfield hfield hproper hlastProper,
      ← hrow.reduce_eq_iff hbuild hsuffix]
    exact and_iff_right rfl

/-- A negated group and a negated phrase before a disjunction: the two `NOT`s cancel out on the
first operand of the disjunction. -/
theorem render_juxtaposed_negations :
    let before : List (Infix .or) := [
      .ofAnd (.ofNot (.not (.ofAtom (.group (.or
        (.ofAnd (.ofNot (.ofAtom (.word "plum".toList))))
        (.ofNot (.ofAtom (.word "fig".toList)))))))),
      .ofAnd (.ofNot (.not (.ofAtom (.phrase
        ⟨[.word "red".toList, .operator .and], by decide, by decide⟩))))]
    let last : Infix .or := .or
      (.ofAnd (.ofNot (.ofAtom (.word "pear*".toList))))
      (.ofNot (.not (.ofAtom (.word "kiwi".toList))))
    let query := "NOT (plum OR fig) NOT \"red AND\" pear* OR NOT kiwi".toList
    let lastQuery := "pear* OR NOT kiwi".toList
    Token.ofQuery query = before.flatMap Infix.tokens ++ last.tokens ∧
    Token.ofQuery lastQuery = last.tokens ∧ isField "title".toList = true ∧
    ∃ program text lastText, ofQuery query = .ok program ∧
      program.render "title".toList = .ok text ∧
      (ofQuery lastQuery >>= render "title".toList) = .ok lastText ∧
      (program = before.flatMap (fun e => e.expression.program) ++ last.expression.program ↔
        ∀ e ∈ before, e.joins = false ∧ e.negations = 0) ∧
      (text = lastText ↔
        (∀ e ∈ before, e.joins = false) ∧ (before.map Infix.negations).sum % 2 = 0) := by
  intro before last query lastQuery
  have hquery : Token.ofQuery query = before.flatMap Infix.tokens ++ last.tokens := by decide
  have hlast : Token.ofQuery lastQuery = last.tokens := by decide
  exact ⟨hquery, hlast, by decide, render_juxtaposed before last hquery hlast (by decide)⟩

/-- Operators of an expression do take operands of the next one: a `NOT` negates the expression that
follows its own, and a connective that waits drops its left operand for the one that follows. -/
theorem render_juxtaposed_captured :
    let apples : Infix .not := .ofAtom (.word "Apples".toList)
    let pears : Infix .not := .ofAtom (.word "Pears".toList)
    let oranges : Infix .or := .ofAnd (.ofNot (.ofAtom (.word "Oranges".toList)))
    let negation : Infix .or := .ofAnd (.ofNot (.not apples))
    let disjunction : Infix .or := .or (.ofAnd (.ofNot apples)) (.ofNot pears)
    Token.ofQuery "NOT Apples Oranges".toList = negation.tokens ++ oranges.tokens ∧
    (ofQuery "NOT Apples Oranges".toList >>= render defaultField) =
      .ok "-text:\"Oranges\"".toList ∧
    Token.ofQuery "Apples OR Pears Oranges".toList = disjunction.tokens ++ oranges.tokens ∧
    (ofQuery "Apples OR Pears Oranges".toList >>= render defaultField) =
      .ok "(text:\"Oranges\" OR text:\"Pears\")".toList ∧
    Token.ofQuery "Oranges".toList = oranges.tokens ∧
    (ofQuery "Oranges".toList >>= render defaultField) = .ok "text:\"Oranges\"".toList :=
  ⟨by decide, rfl, by decide, rfl, by decide, rfl⟩

end Program

end BooleanSearch
