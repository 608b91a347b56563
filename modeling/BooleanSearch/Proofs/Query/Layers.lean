import Mathlib.Data.List.Chain
import BooleanSearch.Proofs.Query.Conversion

/-!
# Layers of the operator stack

What waits on the operator stack is ordered. An open group may stand anywhere and a `NOT` may wait
on anything, but an `AND` or `OR` waits only on what binds more loosely than itself. Cut at its
groups, the stack falls into layers, and the order means that each of them holds at most one `OR`,
then at most one `AND` and then any number of `NOT`s. Every token keeps the order, whether or not
the operators are well placed, and every ordered stack waits after some tokens: the order says all
that can be said of the stack.
-/

namespace BooleanSearch

namespace Pending

/-- Whether an entry may wait right above another. -/
def WaitsOn (upper lower : Pending) : Prop :=
  upper = .group ∨ upper = .operator .not ∨ upper.looseness < lower.looseness

instance : DecidableRel WaitsOn := fun upper lower =>
  inferInstanceAs (Decidable (upper = .group ∨ upper = .operator .not ∨
    upper.looseness < lower.looseness))

/-- A stack on which each entry may wait on the one below it. -/
def Ordered (pending : List Pending) : Prop := pending.IsChain WaitsOn

/-- The layers of a stack: what waits outside all groups and then in each open group, the
outermost first; in each layer the bottom entry comes first. -/
def layers (pending : List Pending) : List (List Pending) := pending.reverse.splitOn .group

/-- At most one `OR`, then at most one `AND` and then any number of `NOT`s. -/
def IsLayer (layer : List Pending) : Prop :=
  ∃ ors ands nots, ors ≤ 1 ∧ ands ≤ 1 ∧
    layer = List.replicate ors (.operator .or) ++ List.replicate ands (.operator .and) ++
      List.replicate nots (.operator .not)

theorem IsLayer.count_le {layer : List Pending} (h : IsLayer layer) :
    layer.count (.operator .and) ≤ 1 ∧ layer.count (.operator .or) ≤ 1 := by
  obtain ⟨ors, ands, nots, hors, hands, rfl⟩ := h
  simp [List.count_append, List.count_replicate, hors, hands]

/-- Every operator binds more tightly than a group. -/
theorem waitsOn_group (entry : Pending) : WaitsOn entry .group := by
  cases entry with
  | group => exact .inl rfl
  | operator op => cases op <;> exact .inr (.inr (by decide))

theorem ordered_cons {entry : Pending} {pending : List Pending} :
    Ordered (entry :: pending) ↔
      (∀ lower ∈ pending.head?, WaitsOn entry lower) ∧ Ordered pending :=
  List.isChain_cons

/-- A group separates the orders above and below it. -/
theorem ordered_append_group (above below : List Pending) :
    Ordered (above ++ .group :: below) ↔ Ordered above ∧ Ordered below := by
  have habove : ∀ entry ∈ above.getLast?, ∀ lower ∈ (Pending.group :: below).head?,
      WaitsOn entry lower := by
    intro entry _ lower hlower
    cases hlower
    exact waitsOn_group entry
  have hbelow : Ordered (.group :: below) ↔ Ordered below := by
    rw [ordered_cons, and_iff_right_iff_imp]
    exact fun _ _ _ => .inl rfl
  rw [Ordered, List.isChain_append, and_iff_left habove]
  exact and_congr_right' hbelow

/-- A connective waits on exactly what it does not settle. -/
theorem waitsOn_operator_iff {op : Operator} (h : op ≠ .not) {lower : Pending} :
    WaitsOn (.operator op) lower ↔ tighter op lower = false := by
  simp [WaitsOn, tighter, h]

/-- An operator settles nothing if it may wait on the entry on top. -/
theorem push_of_waitsOn {op : Operator} {pending : List Pending}
    (h : ∀ lower ∈ pending.head?, WaitsOn (.operator op) lower) :
    push op pending = ([], .operator op :: pending) := by
  by_cases hnot : op = .not
  · subst hnot
    rfl
  · rw [push_of_ne_not hnot]
    cases pending with
    | nil => rfl
    | cons lower pending =>
      have hloose : tighter op lower = false := (waitsOn_operator_iff hnot).mp (h lower rfl)
      simp [hloose, nodes]

/-- An incoming operator settles all that it may not wait on. -/
theorem Ordered.push {pending : List Pending} (h : Ordered pending) (op : Operator) :
    Ordered (push op pending).2 := by
  by_cases hnot : op = .not
  · subst hnot
    exact ordered_cons.mpr ⟨fun _ _ => .inr (.inl rfl), h⟩
  · rw [push_of_ne_not hnot]
    refine ordered_cons.mpr ⟨?_, h.suffix (List.dropWhile_suffix _)⟩
    intro lower hlower
    have hloose := List.head?_dropWhile_not (tighter op) pending
    rw [hlower] at hloose
    exact (waitsOn_operator_iff hnot).mpr hloose

/-- What waits below a group that is closed was ordered before. -/
theorem Ordered.closeGroup? {pending below : List Pending} {settled : Program}
    (h : Ordered pending) (hclose : closeGroup? pending = some (settled, below)) :
    Ordered below := by
  obtain ⟨top, rfl, -, -⟩ := exists_of_closeGroup? hclose
  exact ((ordered_append_group top below).mp h).2

theorem layers_of_group_notMem {pending : List Pending} (h : .group ∉ pending) :
    layers pending = [pending.reverse] := by
  apply List.splitOn_eq_singleton
  rwa [List.mem_reverse]

theorem layers_append_group (above below : List Pending) :
    layers (above ++ .group :: below) = layers below ++ layers above := by
  rw [layers, List.reverse_append, List.reverse_cons, List.append_assoc, List.singleton_append]
  exact List.splitOn_append_cons_self _ _

/-- If a connective may wait on top of some entries, none that it settles is the first of them. -/
theorem eq_zero_of_waitsOn {op op' : Operator} {n : Nat} {rest : List Pending}
    (h : ∀ lower ∈ (List.replicate n (Pending.operator op') ++ rest).head?,
      WaitsOn (.operator op) lower)
    (hsettles : ¬ WaitsOn (.operator op) (.operator op')) : n = 0 := by
  cases n with
  | zero => rfl
  | succ n => exact absurd (h _ rfl) hsettles

/-- An order without groups has the operators in the order of a layer, the top one first. -/
theorem Ordered.exists_replicate {pending : List Pending} (h : Ordered pending)
    (hgroup : .group ∉ pending) :
    ∃ ors ands nots, ors ≤ 1 ∧ ands ≤ 1 ∧
      pending = List.replicate nots (.operator .not) ++ (List.replicate ands (.operator .and) ++
        List.replicate ors (.operator .or)) := by
  induction pending with
  | nil => exact ⟨0, 0, 0, Nat.zero_le 1, Nat.zero_le 1, rfl⟩
  | cons entry pending ih =>
    rw [List.mem_cons, not_or] at hgroup
    obtain ⟨hhead, hbelow⟩ := ordered_cons.mp h
    obtain ⟨ors, ands, nots, hors, hands, rfl⟩ := ih hbelow hgroup.2
    cases entry with
    | group => exact absurd rfl hgroup.1
    | operator op =>
      cases op with
      | not => exact ⟨ors, ands, nots + 1, hors, hands, rfl⟩
      | and =>
        obtain rfl : nots = 0 := eq_zero_of_waitsOn hhead (by decide)
        obtain rfl : ands = 0 := eq_zero_of_waitsOn hhead (by decide)
        exact ⟨ors, 1, 0, hors, Nat.le_refl 1, rfl⟩
      | or =>
        obtain rfl : nots = 0 := eq_zero_of_waitsOn hhead (by decide)
        obtain rfl : ands = 0 := eq_zero_of_waitsOn hhead (by decide)
        rw [← List.append_nil (List.replicate ors _)] at hhead
        obtain rfl : ors = 0 := eq_zero_of_waitsOn hhead (by decide)
        exact ⟨1, 0, 0, Nat.le_refl 1, Nat.zero_le 1, rfl⟩

theorem ordered_replicate_not_append (nots : Nat) (pending : List Pending) :
    Ordered (List.replicate nots (.operator .not) ++ pending) ↔ Ordered pending := by
  induction nots with
  | zero => rfl
  | succ nots ih =>
    rw [List.replicate_succ, List.cons_append, ordered_cons, ih, and_iff_right_iff_imp]
    exact fun _ _ _ => .inr (.inl rfl)

theorem isLayer_reverse_iff {pending : List Pending} (hgroup : .group ∉ pending) :
    IsLayer pending.reverse ↔ Ordered pending := by
  constructor
  · rintro ⟨ors, ands, nots, hors, hands, h⟩
    rw [List.reverse_eq_iff, List.reverse_append, List.reverse_append, List.reverse_replicate,
      List.reverse_replicate, List.reverse_replicate] at h
    rw [h, ordered_replicate_not_append]
    -- at most one `AND` may wait on at most one `OR`
    rcases Nat.le_one_iff_eq_zero_or_eq_one.mp hors with rfl | rfl <;>
      rcases Nat.le_one_iff_eq_zero_or_eq_one.mp hands with rfl | rfl <;>
      simp [Ordered, WaitsOn, looseness]
  · intro h
    obtain ⟨ors, ands, nots, hors, hands, rfl⟩ := h.exists_replicate hgroup
    refine ⟨ors, ands, nots, hors, hands, ?_⟩
    rw [List.reverse_append, List.reverse_append, List.reverse_replicate, List.reverse_replicate,
      List.reverse_replicate]

/-- A stack is ordered exactly if its layers are. -/
theorem ordered_iff_layers (pending : List Pending) :
    Ordered pending ↔ ∀ layer ∈ layers pending, IsLayer layer := by
  -- on the length: what waits below the nearest group is a shorter stack with the other layers
  induction hlength : pending.length using Nat.strong_induction_on generalizing pending with
  | _ n ih =>
    by_cases hgroup : .group ∈ pending
    · obtain ⟨top, below, rfl, htop⟩ := List.eq_append_cons_of_mem hgroup
      have hlt : below.length < n := by
        rw [← hlength, List.length_append, List.length_cons]
        omega
      rw [ordered_append_group, layers_append_group, layers_of_group_notMem htop,
        ih below.length hlt below rfl, ← isLayer_reverse_iff htop, List.forall_mem_append,
        List.forall_mem_singleton]
      exact and_comm
    · rw [layers_of_group_notMem hgroup, List.forall_mem_singleton, isLayer_reverse_iff hgroup]

end Pending

namespace Conversion

/-- Every token keeps the order of what waits. -/
theorem Step.ordered {state next : Conversion} {token : Token} {settled : Program}
    (h : Step state token next settled) (hordered : Pending.Ordered state.pending) :
    Pending.Ordered next.pending := by
  cases h with
  | extendPhrase | closePhrase | openPhrase | word => exact hordered
  | openGroup => exact Pending.ordered_cons.mpr ⟨fun _ _ => .inl rfl, hordered⟩
  | closeGroup pending below _ hclose => exact hordered.closeGroup? hclose
  | operator pending op => exact hordered.push op

theorem Steps.ordered {state last : Conversion} {tokens : List Token} {settled : Program}
    (h : Steps state tokens last settled) (hordered : Pending.Ordered state.pending) :
    Pending.Ordered last.pending := by
  induction h with
  | nil => exact hordered
  | cons first _ ih => exact ih (first.ordered hordered)

/-- An ordered stack waits after the parentheses and operators that are on it, read from the
bottom. -/
theorem exists_steps_of_ordered {pending : List Pending} (h : Pending.Ordered pending) :
    ∃ tokens, Steps start tokens ⟨pending, none⟩ [] := by
  induction pending with
  | nil => exact ⟨[], .nil start⟩
  | cons entry pending ih =>
    obtain ⟨hhead, hbelow⟩ := Pending.ordered_cons.mp h
    obtain ⟨tokens, hsteps⟩ := ih hbelow
    cases entry with
    | group => exact ⟨tokens ++ [.openParen], hsteps.append (Step.openGroup pending).single⟩
    | operator op =>
      have hop := Step.operator pending op
      rw [Pending.push_of_waitsOn hhead] at hop
      exact ⟨tokens ++ [.operator op], hsteps.append hop.single⟩

/-- The stacks that wait after some tokens are those whose layers all are in order. -/
theorem exists_steps_iff_layers (pending : List Pending) :
    (∃ tokens phrase settled, Steps start tokens ⟨pending, phrase⟩ settled) ↔
      ∀ layer ∈ Pending.layers pending, Pending.IsLayer layer := by
  rw [← Pending.ordered_iff_layers]
  constructor
  · rintro ⟨tokens, phrase, settled, hsteps⟩
    exact hsteps.ordered .nil
  · intro h
    obtain ⟨tokens, hsteps⟩ := exists_steps_of_ordered h
    exact ⟨tokens, none, [], hsteps⟩

/-- The shape of the operator stack after any tokens that do not fail. Each of its layers holds at
most one `OR`, then at most one `AND` and then any number of `NOT`s, so within one group at most
one `AND` and one `OR` wait; and an incoming operator settles entries above the nearest group only
and leaves all others, so it takes no group away. -/
theorem pending_layered {tokens : List Token} {state : Conversion} {settled : Program}
    (h : start.steps 0 tokens = .ok (state, settled)) :
    (∀ layer ∈ Pending.layers state.pending, Pending.IsLayer layer) ∧
      (∀ op, ∃ top below, state.pending = top ++ below ∧ .group ∉ top ∧
        Pending.push op state.pending = (Pending.nodes top, .operator op :: below)) ∧
      ∀ layer ∈ Pending.layers state.pending,
        layer.count (.operator .and) ≤ 1 ∧ layer.count (.operator .or) ≤ 1 := by
  have hlayers : ∀ layer ∈ Pending.layers state.pending, Pending.IsLayer layer :=
    (exists_steps_iff_layers state.pending).mp
      ⟨tokens, state.phrase, settled, steps_eq_ok_iff.mp h⟩
  refine ⟨hlayers, ?_, ?_⟩
  · intro op
    exact Pending.exists_push op state.pending
  · intro layer hlayer
    exact (hlayers layer hlayer).count_le

/-- A query that begins with connectives, leaves two groups open and ends in a phrase. -/
theorem pending_layered_malformed :
    let tokens := Token.ofQuery
      "OR AND plum NOT (NOT apple AND NOT pear OR fig AND NOT NOT (\"red )".toList
    let state : Conversion :=
      ⟨[.group, .operator .not, .operator .not, .operator .and, .operator .or, .group,
        .operator .not, .operator .and, .operator .or], some "red red) ".toList⟩
    let settled : Program := [.term "\"plum\"".toList, .term "\"apple\"".toList, .operator .not,
      .term "\"pear\"".toList, .operator .not, .operator .and, .term "\"fig\"".toList]
    start.steps 0 tokens = .ok (state, settled) ∧
      Pending.layers state.pending =
        [[.operator .or, .operator .and, .operator .not],
          [.operator .or, .operator .and, .operator .not, .operator .not], []] ∧
      (∀ layer ∈ Pending.layers state.pending, Pending.IsLayer layer) ∧
      (∀ op, ∃ top below, state.pending = top ++ below ∧ .group ∉ top ∧
        Pending.push op state.pending = (Pending.nodes top, .operator op :: below)) ∧
      ∀ layer ∈ Pending.layers state.pending,
        layer.count (.operator .and) ≤ 1 ∧ layer.count (.operator .or) ≤ 1 := by
  intro tokens state settled
  have hsteps : start.steps 0 tokens = .ok (state, settled) := rfl
  exact ⟨hsteps, rfl, pending_layered hsteps⟩

end Conversion

end BooleanSearch
