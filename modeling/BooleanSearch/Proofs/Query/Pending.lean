import BooleanSearch.Query.Postfix

/-!
# The operator stack

What the two ways of settling operators do to the stack. A `)` settles the entries above the
nearest group and takes that group away; an operator settles some entries above the nearest group
and takes none away but those. So no group ever leaves the stack except by its own `)`.
-/

namespace BooleanSearch.Pending

theorem nodes_append (pending below : List Pending) :
    nodes (pending ++ below) = nodes pending ++ nodes below := by
  induction pending with
  | nil => rfl
  | cons entry pending ih => cases entry <;> simp [nodes, ih]

/-- Operators down to the nearest group are settled by its `)`. -/
theorem closeGroup?_append {pending : List Pending} (h : .group ∉ pending) (below : List Pending) :
    closeGroup? (pending ++ .group :: below) = some (nodes pending, below) := by
  induction pending with
  | nil => rfl
  | cons entry pending ih =>
    rw [List.mem_cons, not_or] at h
    cases entry with
    | group => exact absurd rfl h.1
    | operator op => simp [closeGroup?, ih h.2, nodes]

/-- A `)` closes something exactly if a group is open. -/
theorem closeGroup?_eq_none_iff {pending : List Pending} :
    closeGroup? pending = none ↔ .group ∉ pending := by
  induction pending with
  | nil => simp [closeGroup?]
  | cons entry pending ih => cases entry <;> simp [closeGroup?, ih]

/-- All that a `)` can do: it settles what waits above the nearest group, and that group goes. -/
theorem exists_of_closeGroup? {pending below : List Pending} {settled : List Node}
    (h : closeGroup? pending = some (settled, below)) :
    ∃ top, pending = top ++ .group :: below ∧ .group ∉ top ∧ settled = nodes top := by
  induction pending generalizing settled with
  | nil => cases h
  | cons entry pending ih =>
    cases entry with
    | group =>
      cases h
      exact ⟨[], rfl, List.not_mem_nil, rfl⟩
    | operator op =>
      rw [closeGroup?, Option.map_eq_some_iff] at h
      obtain ⟨⟨rest, below'⟩, hrest, heq⟩ := h
      cases heq
      obtain ⟨top, rfl, htop, rfl⟩ := ih hrest
      refine ⟨.operator op :: top, rfl, ?_, rfl⟩
      simpa using htop

/-- Whether an incoming operator settles an entry that it meets on top. -/
def tighter (op : Operator) (entry : Pending) : Bool :=
  decide (entry.looseness ≤ (Pending.operator op).looseness)

/-- A group is looser than every operator. -/
theorem tighter_group (op : Operator) : tighter op .group = false := by
  cases op <;> rfl

theorem push_of_ne_not {op : Operator} (h : op ≠ .not) (pending : List Pending) :
    push op pending =
      (nodes (pending.takeWhile (tighter op)),
        .operator op :: pending.dropWhile (tighter op)) := by
  cases op with
  | not => exact absurd rfl h
  | and => rfl
  | or => rfl

theorem group_not_mem_takeWhile (op : Operator) (pending : List Pending) :
    .group ∉ pending.takeWhile (tighter op) := by
  intro h
  have htight := List.all_eq_true.mp List.all_takeWhile _ h
  rw [tighter_group] at htight
  cases htight

/-- All that an incoming operator can do: it settles some entries on top, no group among them, and
waits on the others. -/
theorem exists_push (op : Operator) (pending : List Pending) :
    ∃ top below, pending = top ++ below ∧ .group ∉ top ∧
      push op pending = (nodes top, .operator op :: below) := by
  by_cases h : op = .not
  · subst h
    exact ⟨[], pending, rfl, List.not_mem_nil, rfl⟩
  · exact ⟨_, _, List.takeWhile_append_dropWhile.symm, group_not_mem_takeWhile op pending,
      push_of_ne_not h pending⟩

/-- Entries are settled alike whether the stack ends or a group is open below. -/
theorem takeWhile_append_group (op : Operator) (pending below : List Pending) :
    (pending ++ .group :: below).takeWhile (tighter op) = pending.takeWhile (tighter op) ∧
      (pending ++ .group :: below).dropWhile (tighter op) =
        pending.dropWhile (tighter op) ++ .group :: below := by
  induction pending with
  | nil => simp [tighter_group]
  | cons entry pending ih =>
    by_cases htight : tighter op entry = true
    · simp [htight, ih]
    · simp [htight]

/-- An incoming operator sees nothing below an open group. -/
theorem push_append_group (op : Operator) (pending below : List Pending) :
    push op (pending ++ .group :: below) =
      ((push op pending).1, (push op pending).2 ++ .group :: below) := by
  by_cases h : op = .not
  · subst h
    rfl
  · obtain ⟨htake, hdrop⟩ := takeWhile_append_group op pending below
    rw [push_of_ne_not h, push_of_ne_not h, htake, hdrop, List.cons_append]

end BooleanSearch.Pending
