import Mathlib.Algebra.GroupWithZero.Nat
import BooleanSearch.Proofs.Query.Context
import BooleanSearch.Proofs.Query.Depth
import BooleanSearch.Proofs.Query.Precedence

/-!
# Operands on whatever waits

A derivation may be read while operators of any kind wait, also those that its own operators settle.
Its first operand is settled before any of them, and at its end there are enough operands for all
that waits then. So derivations that follow each other without connectives between them are always
read, and their program leaves an operand.
-/

namespace BooleanSearch

namespace Infix

/-- Whether a connective stands in a derivation outside its groups. -/
def joins {level : Level} : Infix level → Bool
  | .word _ | .phrase _ | .group _ => false
  | .ofAtom atom => atom.joins
  | .not operand => operand.joins
  | .ofNot operand => operand.joins
  | .and _ _ => true
  | .ofAnd operand => operand.joins
  | .or _ _ => true

/-- The number of `NOT`s that a derivation begins with. -/
def negations {level : Level} : Infix level → Nat
  | .word _ | .phrase _ | .group _ => 0
  | .ofAtom atom => atom.negations
  | .not operand => operand.negations + 1
  | .ofNot operand => operand.negations
  | .and left _ => left.negations
  | .ofAnd operand => operand.negations
  | .or left _ => left.negations

theorem waiting_of_joins_eq_false {level : Level} {e : Infix level} (h : e.joins = false) :
    e.waiting = List.replicate e.negations (.operator .not) := by
  induction e with
  | word | phrase | group => rfl
  | ofAtom _ ih | ofNot _ ih | ofAnd _ ih => exact ih h
  | not operand ih =>
    rw [waiting, ih h, negations, List.replicate_succ']
  | and | or => cases h

/-- A derivation without connectives outside its groups settles nothing of what waits before it. -/
theorem steps_of_joins_eq_false {level : Level} {e : Infix level} (h : e.joins = false)
    (pending : List Pending) :
    Conversion.Steps ⟨pending, none⟩ e.tokens ⟨e.waiting ++ pending, none⟩ e.settled := by
  induction e with
  | word text => exact steps (.word text) pending (by intro hlevel; simp at hlevel)
  | phrase quoted => exact steps (.phrase quoted) pending (by intro hlevel; simp at hlevel)
  | group inner => exact steps (.group inner) pending (by intro hlevel; simp at hlevel)
  | ofAtom _ ih | ofNot _ ih | ofAnd _ ih => exact ih h
  | not operand => exact steps (.not operand) pending (by intro hlevel; simp at hlevel)
  | and | or => cases h

end Infix

namespace Conversion

open Program

/-- What it takes to read one operand, whatever waits: a term is settled first, no group is left
open, a connective that waits is settled by another one only, and where there are enough operands
for the connectives that waited before there is one more than for those that wait after. -/
structure ReadsOperand (pending : List Pending) (tokens : List Token) (next : List Pending)
    (settled : Program) : Prop where
  steps : Steps ⟨pending, none⟩ tokens ⟨next, none⟩ settled
  head : ∃ text rest, settled = .term text :: rest
  group_not_mem : .group ∉ pending → .group ∉ next
  connectives_pos : 0 < connectives (Pending.nodes pending) → 0 < connectives (Pending.nodes next)
  depth : ∀ n, connectives (Pending.nodes pending) ≤ n →
    ∃ m, Program.depth settled n = .ok m ∧ connectives (Pending.nodes next) < m

/-- What stands for the listing of an expression is an operand. -/
theorem Yields.readsOperand {tokens : List Token} {e : Expression} (h : Yields tokens e.program)
    (pending : List Pending) : ReadsOperand pending tokens pending e.program where
  steps := h pending
  head := e.exists_program_eq_cons
  group_not_mem := id
  connectives_pos := id
  depth n hn := ⟨n + 1, depth_program e n, Nat.lt_succ_of_le hn⟩

theorem ReadsOperand.not {pending next : List Pending} {tokens : List Token} {settled : Program}
    (h : ReadsOperand (.operator .not :: pending) tokens next settled) :
    ReadsOperand pending (.operator .not :: tokens) next settled where
  steps := (Step.operator pending .not).single.append h.steps
  head := h.head
  group_not_mem hgroup := h.group_not_mem (by simpa using hgroup)
  connectives_pos := h.connectives_pos
  depth := h.depth

/-- A connective settles what waits on top, and then the right operand is read on the rest. -/
theorem ReadsOperand.join {pending middle next : List Pending} {tokens tokens' : List Token}
    {settled settled' : Program} (op : Connective)
    (h : ReadsOperand pending tokens middle settled)
    (h' : ReadsOperand (Pending.push op.operator middle).2 tokens' next settled') :
    ReadsOperand pending (tokens ++ .operator op.operator :: tokens') next
        (settled ++ ((Pending.push op.operator middle).1 ++ settled')) ∧
      0 < connectives (Pending.nodes next) := by
  obtain ⟨top, below, rfl, -, hpush⟩ := Pending.exists_push op.operator middle
  have hop := Step.operator (top ++ below) op.operator
  simp only [hpush] at hop h' ⊢
  have hconnectives : connectives (Pending.nodes (.operator op.operator :: below)) =
      connectives (Pending.nodes below) + 1 := by
    rw [Pending.nodes, connectives_operator_cons]
    cases op <;> rfl
  have hpos : 0 < connectives (Pending.nodes next) := h'.connectives_pos (by omega)
  refine ⟨⟨?_, ?_, ?_, fun _ => hpos, ?_⟩, hpos⟩
  · exact h.steps.append (.cons hop h'.steps)
  · obtain ⟨text, rest, rfl⟩ := h.head
    exact ⟨text, rest ++ (Pending.nodes top ++ settled'), rfl⟩
  · intro hgroup
    apply h'.group_not_mem
    intro hmem
    rcases List.mem_cons.mp hmem with heq | hbelow
    · cases heq
    · exact h.group_not_mem hgroup (List.mem_append_right top hbelow)
  · intro n hn
    obtain ⟨m, hm, hlt⟩ := h.depth n hn
    rw [Pending.nodes_append, connectives_append] at hlt
    have htop : Program.depth (Pending.nodes top) m =
        .ok (m - connectives (Pending.nodes top)) := depth_nodes (by omega)
    obtain ⟨k, hk, hnext⟩ := h'.depth (m - connectives (Pending.nodes top)) (by omega)
    refine ⟨k, ?_, hnext⟩
    rw [depth_append, hm]
    show Program.depth (Pending.nodes top ++ settled') m = .ok k
    rw [depth_append, htop]
    exact hk

end Conversion

namespace Infix

open Program Conversion

theorem yields_atom (atom : Infix .atom) : Yields atom.tokens atom.expression.program := by
  intro pending
  have hwaiting : atom.waiting = [] := by cases atom <;> rfl
  have hprogram := settled_append_waiting atom
  have hsteps := steps atom pending (by intro hlevel; simp at hlevel)
  rw [hwaiting, Pending.nodes, List.append_nil] at hprogram
  rwa [hwaiting, List.nil_append, hprogram] at hsteps

/-- A derivation is read as an operand whatever waits. If a connective stands in it outside its
groups, one waits at its end. -/
theorem exists_readsOperand {level : Level} (e : Infix level) (pending : List Pending) :
    ∃ next settled, ReadsOperand pending e.tokens next settled ∧
      (e.joins = true → 0 < connectives (Pending.nodes next)) := by
  induction e generalizing pending with
  | word text => exact ⟨pending, _, (yields_atom (.word text)).readsOperand pending, nofun⟩
  | phrase quoted => exact ⟨pending, _, (yields_atom (.phrase quoted)).readsOperand pending, nofun⟩
  | group inner => exact ⟨pending, _, (yields_atom (.group inner)).readsOperand pending, nofun⟩
  | ofAtom _ ih | ofNot _ ih | ofAnd _ ih => exact ih pending
  | not operand ih =>
    obtain ⟨next, settled, hreads, hjoins⟩ := ih (.operator .not :: pending)
    exact ⟨next, settled, hreads.not, hjoins⟩
  | and left right ihleft ihright =>
    obtain ⟨middle, settled, hleft, -⟩ := ihleft pending
    obtain ⟨next, settled', hright, -⟩ := ihright (Pending.push .and middle).2
    obtain ⟨hreads, hpos⟩ := hleft.join .and hright
    exact ⟨next, _, hreads, fun _ => hpos⟩
  | or left right ihleft ihright =>
    obtain ⟨middle, settled, hleft, -⟩ := ihleft pending
    obtain ⟨next, settled', hright, -⟩ := ihright (Pending.push .or middle).2
    obtain ⟨hreads, hpos⟩ := hleft.join .or hright
    exact ⟨next, _, hreads, fun _ => hpos⟩

/-- Derivations in a row leave enough operands for the connectives that wait after them, of which
there is one if a connective stands in any of them outside its groups. -/
theorem exists_steps_flatMap (es : List (Infix .or)) {pending : List Pending} {n : Nat}
    (hgroup : .group ∉ pending) (hn : connectives (Pending.nodes pending) ≤ n) :
    ∃ next settled m, Steps ⟨pending, none⟩ (es.flatMap tokens) ⟨next, none⟩ settled ∧
      .group ∉ next ∧ Program.depth settled n = .ok m ∧ connectives (Pending.nodes next) ≤ m ∧
      ((0 < connectives (Pending.nodes pending) ∨ ∃ e ∈ es, e.joins = true) →
        0 < connectives (Pending.nodes next)) := by
  induction es generalizing pending n with
  | nil => exact ⟨pending, [], n, .nil _, hgroup, rfl, hn, by simp⟩
  | cons e es ih =>
    obtain ⟨middle, settled, hreads, hjoins⟩ := exists_readsOperand e pending
    obtain ⟨k, hk, hlt⟩ := hreads.depth n hn
    obtain ⟨next, settled', m, hsteps, hnext, hm, hle, hpos⟩ :=
      ih (hreads.group_not_mem hgroup) (Nat.le_of_lt hlt)
    refine ⟨next, settled ++ settled', m, hreads.steps.append hsteps, hnext, ?_, hle, ?_⟩
    · rw [depth_append, hk]
      exact hm
    · rintro (hpending | ⟨e', hmem, he'⟩)
      · exact hpos (.inl (hreads.connectives_pos hpending))
      · rcases List.mem_cons.mp hmem with rfl | hmem
        · exact hpos (.inl (hjoins he'))
        · exact hpos (.inr ⟨e', hmem, he'⟩)

theorem steps_flatMap_of_joins_eq_false {es : List (Infix .or)} (h : ∀ e ∈ es, e.joins = false)
    (pending : List Pending) :
    Steps ⟨pending, none⟩ (es.flatMap tokens)
      ⟨List.replicate (es.map negations).sum (.operator .not) ++ pending, none⟩
      (es.flatMap settled) := by
  induction es generalizing pending with
  | nil => exact .nil _
  | cons e es ih =>
    have he := h e List.mem_cons_self
    have hfirst := steps_of_joins_eq_false he pending
    have hrest := ih (fun e' he' => h e' (List.mem_cons_of_mem _ he')) (e.waiting ++ pending)
    rw [waiting_of_joins_eq_false he] at hfirst hrest
    rw [← List.append_assoc, List.replicate_append_replicate, Nat.add_comm] at hrest
    exact hfirst.append hrest

/-- An expression on what waits: the first operand comes first, then what waits takes its place
among the operators of the expression, and all of them find their operands. -/
theorem exists_run (last : Infix .or) {pending : List Pending} {n : Nat}
    (hgroup : .group ∉ pending) (hn : connectives (Pending.nodes pending) ≤ n) :
    ∃ rest, (∀ position, run ⟨pending, none⟩ position last.tokens = .ok rest) ∧
      (∃ text more, rest = .term text :: more) ∧
      terms rest = terms last.expression.program ∧
      (operators rest).Perm
        (operators (Pending.nodes pending) ++ operators last.expression.program) ∧
      ∃ m, Program.depth rest n = .ok (m + 1) := by
  obtain ⟨next, settled, hreads, -⟩ := exists_readsOperand last pending
  obtain ⟨m, hm, hlt⟩ := hreads.depth n hn
  have hlast : Program.ofTokens last.tokens = .ok last.expression.program := by
    rw [ofTokens_tokens, settled_append_waiting]
  have hfinish : finish ⟨next, none⟩ = .ok (Pending.nodes next) :=
    if_neg (hreads.group_not_mem hgroup)
  have hreadsNone : Reads none ⟨pending, none⟩ := rfl
  refine ⟨settled ++ Pending.nodes next, ?_, ?_, ?_, ?_, ?_⟩
  · intro position
    rw [hreads.steps.run_eq, hfinish]
    rfl
  · obtain ⟨text, more, rfl⟩ := hreads.head
    exact ⟨text, more ++ Pending.nodes next, rfl⟩
  · have hterms := hreads.steps.terms hreadsNone
    rw [terms_append, terms_nodes, terms_of_ofTokens hlast]
    exact hterms
  · have hperm := hreads.steps.operators_perm hreadsNone
    have hlastPerm := operators_perm_of_ofTokens hlast
    rw [← Token.operator?_pieces] at hlastPerm
    rw [operators_append]
    exact hperm.trans (hlastPerm.symm.append_left _)
  · refine ⟨m - connectives (Pending.nodes next) - 1, ?_⟩
    rw [depth_append, hm]
    show Program.depth (Pending.nodes next) m = _
    rw [depth_nodes hlt]
    congr 1
    omega

end Infix

end BooleanSearch
