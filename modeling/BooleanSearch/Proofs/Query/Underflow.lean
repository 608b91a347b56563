import BooleanSearch.Proofs.Query.Depth

/-!
# Operators without operands

A program fails at its first operator that finds too few operands. How many it finds can be told
from the nodes before it alone: their terms less their connectives. Rendering and counting fail
there alike, with the same fault, and where they do not fail they agree on how many texts are left.
-/

namespace BooleanSearch.Program

/-- How many more terms than connectives a program has. -/
def balance (program : Program) : Int := program.terms.length - program.connectives

/-- Whether every operator of a program finds its operands in the balance of the nodes before it. -/
def FindsOperands (program : Program) : Prop :=
  ∀ (before : Program) (op : Operator) (after : Program),
    program = before ++ .operator op :: after → (op.arity : Int) ≤ before.balance

theorem balance_of_depth {program : Program} {m : Nat} (h : depth program 0 = .ok m) :
    program.balance = m := by
  have hbalance := depth_balance h
  rw [balance]
  omega

/-- An operator that finds too few operands ends the count, whatever comes after it. -/
theorem depth_of_underflow {before : Program} {op : Operator} {n available : Nat}
    (h : depth before n = .ok available) (hlt : available < op.arity) (after : Program) :
    depth (before ++ .operator op :: after) n = .error (.underflow op op.arity available) := by
  rw [depth_append, h]
  exact if_pos hlt

/-- A count fails only at an operator that finds too few operands. -/
theorem exists_underflow_of_depth {program : Program} {n : Nat} {fault : QueryError}
    (h : depth program n = .error fault) :
    ∃ (before : Program) (op : Operator) (after : Program) (available : Nat),
      program = before ++ .operator op :: after ∧ depth before n = .ok available ∧
        available < op.arity ∧ fault = .underflow op op.arity available := by
  induction program generalizing n with
  | nil => cases h
  | cons node program ih =>
    cases node with
    | term text =>
      obtain ⟨before, op, after, available, rfl, hbefore, hlt, rfl⟩ := ih h
      exact ⟨.term text :: before, op, after, available, rfl, hbefore, hlt, rfl⟩
    | operator op =>
      rw [depth] at h
      split at h
      · next hlt =>
        cases h
        exact ⟨[], op, program, n, rfl, rfl, hlt, rfl⟩
      · next hge =>
        obtain ⟨before, op', after, available, rfl, hbefore, hlt, rfl⟩ := ih h
        refine ⟨.operator op :: before, op', after, available, rfl, ?_, hlt, rfl⟩
        rw [depth, if_neg hge]
        exact hbefore

theorem findsOperands_of_depth {program : Program} {m : Nat} (h : depth program 0 = .ok m) :
    program.FindsOperands := by
  rintro before op after rfl
  cases hbefore : depth before 0 with
  | error fault =>
    rw [depth_append, hbefore] at h
    cases h
  | ok available =>
    rw [balance_of_depth hbefore]
    refine Int.not_lt.mp fun hlt => ?_
    rw [depth_of_underflow hbefore (Int.ofNat_lt.mp hlt)] at h
    cases h

theorem exists_depth_of_findsOperands {program : Program} (h : program.FindsOperands) :
    ∃ m, depth program 0 = .ok m := by
  cases hdepth : depth program 0 with
  | ok m => exact ⟨m, rfl⟩
  | error fault =>
    obtain ⟨before, op, after, available, hsplit, hbefore, hlt, -⟩ :=
      exists_underflow_of_depth hdepth
    have harity := h before op after hsplit
    rw [balance_of_depth hbefore] at harity
    omega

/-- A count fails at the first operator that does not find its operands in the balance of the nodes
before it, and the fault names this operator and that balance. -/
theorem depth_eq_error_iff {program : Program} {fault : QueryError} :
    depth program 0 = .error fault ↔
      ∃ (before : Program) (op : Operator) (after : Program) (available : Nat),
        program = before ++ .operator op :: after ∧ before.FindsOperands ∧
          before.balance = available ∧ available < op.arity ∧
          fault = .underflow op op.arity available := by
  constructor
  · intro h
    obtain ⟨before, op, after, available, hsplit, hbefore, hlt, hfault⟩ :=
      exists_underflow_of_depth h
    exact ⟨before, op, after, available, hsplit, findsOperands_of_depth hbefore,
      balance_of_depth hbefore, hlt, hfault⟩
  · rintro ⟨before, op, after, available, rfl, hfinds, hbalance, hlt, rfl⟩
    obtain ⟨m, hbefore⟩ := exists_depth_of_findsOperands hfinds
    have hm : m = available := Int.ofNat_inj.mp ((balance_of_depth hbefore).symm.trans hbalance)
    exact depth_of_underflow (hm ▸ hbefore) hlt after

/-- A program that is not empty leaves something: it begins with a term or with an operator. -/
theorem depth_pos_of_ne_nil {program : Program} {m : Nat} (hne : program ≠ [])
    (h : depth program 0 = .ok m) : 0 < m := by
  cases program with
  | nil => exact absurd rfl hne
  | cons node rest =>
    cases node with
    | term text =>
      have hrest : depth rest 1 = .ok m := h
      exact depth_pos hrest (.inl Nat.one_pos)
    | operator op => exact depth_pos h (.inr (by simp [operators, Node.operator?]))

/-- What a program that is not empty leaves when it is rendered: one text besides its orphans. -/
theorem exists_operands_of_orphans {program : Program} {count : Nat} (hne : program ≠ [])
    (h : program.orphans = .ok count) (field : Text) :
    ∃ stack, program.operands field [] = .ok stack ∧ stack.length = count + 1 := by
  have hdepth := (runsOnStack_operands field).depth_eq program []
  rw [orphans_eq_operands program field] at h
  cases hstack : program.operands field [] with
  | error fault =>
    rw [hstack] at h
    cases h
  | ok stack =>
    rw [hstack] at h hdepth
    have hpos : 0 < stack.length := depth_pos_of_ne_nil hne hdepth
    have hcount : stack.length - 1 = count := Except.ok.inj h
    exact ⟨stack, rfl, by omega⟩

/-- Rendering and counting the orphans fail alike, whatever the program and the field: at the first
operator that takes more than the terms less the connectives before it, and with that difference as
what the operator found. Where they do not fail on a program that is not empty, the texts that are
left are the orphans and one more. -/
theorem faults_agree (field : Text) (program : Program) :
    (∀ fault, program.render field = .error fault ↔ program.orphans = .error fault) ∧
    (∀ fault, program.orphans = .error fault ↔
      ∃ (before : Program) (op : Operator) (after : Program) (available : Nat),
        program = before ++ .operator op :: after ∧ before.FindsOperands ∧
          before.balance = available ∧ available < op.arity ∧
          fault = .underflow op op.arity available) ∧
    (program ≠ [] → ∀ count, program.orphans = .ok count →
      ∃ stack, program.operands field [] = .ok stack ∧ stack.length = count + 1) := by
  refine ⟨fun fault => render_eq_error_iff, fun fault => ?_, fun hne count hcount => ?_⟩
  · rw [orphans_eq_error_iff, depth_eq_error_iff]
  · exact exists_operands_of_orphans hne hcount field

/-- An `OR` that finds one operand behind an `AND` that finds two, and a program with an orphan. -/
theorem faults_agree_second_connective :
    let before : Program :=
      [.term "plum".toList, .operator .not, .term "pear*".toList, .operator .and]
    let short : Program := before ++ .operator .or :: [.term "fig".toList]
    let orphaned : Program := .term "fig".toList :: before
    before.FindsOperands ∧ before.balance = 1 ∧ orphaned ≠ [] ∧ orphaned.orphans = .ok 1 ∧
      short.orphans = .error (.underflow .or 2 1) ∧
      short.render "-x".toList = .error (.underflow .or 2 1) ∧
      ∃ stack, orphaned.operands "-x".toList [] = .ok stack ∧ stack.length = 2 := by
  intro before short orphaned
  have hfinds : before.FindsOperands := findsOperands_of_depth (m := 1) rfl
  have hbalance : before.balance = 1 := by decide
  obtain ⟨hrender, hfirst, -⟩ := faults_agree "-x".toList short
  obtain ⟨-, -, hleft⟩ := faults_agree "-x".toList orphaned
  have hshort : short.orphans = .error (.underflow .or 2 1) :=
    (hfirst _).mpr ⟨before, .or, _, 1, rfl, hfinds, hbalance, by decide, rfl⟩
  exact ⟨hfinds, hbalance, nofun, rfl, hshort, (hrender _).mpr hshort, hleft nofun 1 rfl⟩

end BooleanSearch.Program
