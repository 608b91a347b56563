import BooleanSearch.Proofs.Query.Conservation
import BooleanSearch.Proofs.Query.Expression

/-!
# The depth of the operand stack

Rendering fails where the count of operands does, and the count is a matter of numbers: a term adds
one operand, `NOT` keeps their number and a connective joins two to one. An operator leaves at least
one operand behind. So a program with an operator needs more terms than connectives.
-/

namespace BooleanSearch

/-- Whether an operator joins two operands. -/
def Operator.isConnective : Operator → Bool
  | .not => false
  | .and => true
  | .or => true

/-- An operator changes the number of operands as it says, and fails exactly if there are too
few. -/
theorem Target.map_length_apply (op : Operator) (operands : List Text) :
    (apply op operands).map List.length =
      if operands.length < op.arity then .error (.underflow op op.arity operands.length)
      else .ok (operands.length - op.arity + 1) := by
  cases op <;> rcases operands with _ | ⟨_, _ | ⟨_, rest⟩⟩ <;>
    simp [apply, Except.map, Operator.arity]

namespace Program

/-- The number of operators that join two operands. -/
def connectives (program : Program) : Nat := program.operators.countP Operator.isConnective

theorem connectives_operator_cons (op : Operator) (program : Program) :
    connectives (.operator op :: program) =
      connectives program + if op.isConnective then 1 else 0 := List.countP_cons

theorem runsOnStack_operands (field : Text) :
    RunsOnStack (Target.term field) Target.apply (operands field) where
  nil _ := rfl
  term _ _ _ := rfl
  operator _ _ _ := rfl
  map_length_apply := Target.map_length_apply

/-- Orphans are the rendered operands that rendering drops. -/
theorem orphans_eq_operands (program : Program) (field : Text) :
    program.orphans = (program.operands field []).map fun stack => stack.length - 1 := by
  have hdepth := (runsOnStack_operands field).depth_eq program []
  rw [List.length_nil] at hdepth
  rw [orphans, hdepth]
  cases program.operands field [] <;> rfl

theorem orphans_eq_error_iff {program : Program} {fault : QueryError} :
    program.orphans = .error fault ↔ depth program 0 = .error fault := by
  rw [orphans]
  cases depth program 0 with
  | error fault' => rfl
  | ok m => constructor <;> rintro ⟨⟩

/-- Rendering fails where the orphans cannot be counted, and alike. -/
theorem render_eq_error_iff {field : Text} {program : Program} {fault : QueryError} :
    program.render field = .error fault ↔ program.orphans = .error fault := by
  rw [orphans_eq_operands program field, render]
  cases program.operands field [] with
  | error fault' =>
    constructor
    · rintro ⟨⟩
      rfl
    · rintro ⟨⟩
      rfl
  | ok stack => constructor <;> rintro ⟨⟩

theorem render_eq_error_of_depth {program : Program} {fault : QueryError}
    (h : depth program 0 = .error fault) (field : Text) : render field program = .error fault :=
  render_eq_error_iff.mpr (orphans_eq_error_iff.mpr h)

/-- What a program leaves of its operands: its terms add to them and its connectives take from
them. -/
theorem depth_balance {program : Program} {n m : Nat} (h : depth program n = .ok m) :
    m + program.connectives = n + program.terms.length := by
  induction program generalizing n with
  | nil =>
    cases h
    rfl
  | cons node program ih =>
    cases node with
    | term text =>
      have hrest := ih h
      have hterms : terms (.term text :: program) = .term text :: terms program := rfl
      have hconnectives : connectives (.term text :: program) = connectives program := rfl
      rw [hterms, hconnectives, List.length_cons]
      omega
    | operator op =>
      rw [depth] at h
      split at h
      · cases h
      · next hge =>
        have hrest := ih h
        have hterms : terms (.operator op :: program) = terms program := rfl
        rw [hterms, connectives_operator_cons]
        cases op <;> simp [Operator.arity, Operator.isConnective] at hge hrest ⊢ <;> omega

/-- A program leaves some operand if it starts with one or has an operator. -/
theorem depth_pos {program : Program} {n m : Nat} (h : depth program n = .ok m)
    (hsome : 0 < n ∨ program.operators ≠ []) : 0 < m := by
  induction program generalizing n with
  | nil =>
    cases h
    rcases hsome with hpos | hne
    · exact hpos
    · exact absurd rfl hne
  | cons node program ih =>
    cases node with
    | term text => exact ih h (.inl (Nat.succ_pos n))
    | operator op =>
      rw [depth] at h
      split at h
      · cases h
      · exact ih h (.inl (Nat.succ_pos _))

theorem connectives_append (program more : Program) :
    connectives (program ++ more) = connectives program + connectives more := by
  rw [connectives, operators_append, List.countP_append]
  rfl

theorem depth_append (program more : Program) (n : Nat) :
    depth (program ++ more) n = depth program n >>= depth more := by
  induction program generalizing n with
  | nil => rfl
  | cons node program ih =>
    cases node with
    | term text => exact ih (n + 1)
    | operator op =>
      rw [List.cons_append, depth, depth]
      split
      · rfl
      · exact ih _

/-- The listing of an expression adds one operand. -/
theorem depth_program (e : Expression) (n : Nat) : depth e.program n = .ok (n + 1) := by
  have hdepth := runsOnStack_build.depth_eq e.program (List.replicate n e)
  rw [build_program, List.length_replicate] at hdepth
  rw [hdepth]
  simp [Except.map]

/-- What waits finds its operands if there are more of them than connectives that wait. -/
theorem depth_nodes {pending : List Pending} {n : Nat}
    (h : connectives (Pending.nodes pending) < n) :
    depth (Pending.nodes pending) n = .ok (n - connectives (Pending.nodes pending)) := by
  induction pending generalizing n with
  | nil => rfl
  | cons entry pending ih =>
    cases entry with
    | group => exact ih h
    | operator op =>
      have harity : op.arity = (if op.isConnective then 1 else 0) + 1 := by cases op <;> rfl
      rw [Pending.nodes, connectives_operator_cons] at h ⊢
      have hge : ¬ n < op.arity := by omega
      rw [depth, if_neg hge, ih (by omega)]
      congr 1
      omega

/-- A program with an operator fails unless it has more terms than connectives. -/
theorem exists_fault_of_terms_le {program : Program} (hop : program.operators ≠ [])
    (hle : program.terms.length ≤ program.connectives) :
    ∃ fault, depth program 0 = .error fault := by
  cases hdepth : depth program 0 with
  | error fault => exact ⟨fault, rfl⟩
  | ok m =>
    have hbalance := depth_balance hdepth
    have hpos := depth_pos hdepth (.inr hop)
    omega

/-- An expression has one term more than connectives. -/
theorem connectives_program (e : Expression) :
    connectives e.program + 1 = (terms e.program).length := by
  have hbalance := depth_balance (depth_program e 0)
  omega

/-- What a program leaves that leaves anything: the last operand is listed by its end. -/
theorem exists_build_of_depth {program : Program} {n : Nat} (h : depth program 0 = .ok (n + 1)) :
    ∃ e below, build program [] = .ok (e :: below) ∧ e.program <:+ program := by
  have hdepth := runsOnStack_build.depth_eq program []
  rw [List.length_nil, h] at hdepth
  cases hbuild : build program [] with
  | error fault =>
    rw [hbuild] at hdepth
    cases hdepth
  | ok stack =>
    cases stack with
    | nil =>
      rw [hbuild] at hdepth
      cases hdepth
    | cons e below =>
      have hnodes := flatMap_program_of_build hbuild
      refine ⟨e, below, rfl, below.reverse.flatMap Expression.program, ?_⟩
      simpa using hnodes

/-- Of two ends of a program that begin with a term and have as many terms, none is the longer. -/
theorem eq_of_suffix {program more all : Program} (h : program <:+ all) (h' : more <:+ all)
    (hhead : ∃ text rest, program = .term text :: rest)
    (hhead' : ∃ text rest, more = .term text :: rest)
    (hterms : (terms program).length = (terms more).length) : program = more := by
  have hlonger : ∀ {short long : Program}, short <:+ long →
      (∃ text rest, long = .term text :: rest) →
      (terms short).length = (terms long).length → short = long := by
    rintro short long ⟨front, rfl⟩ ⟨text, rest, hlong⟩ hlength
    rw [terms_append, List.length_append] at hlength
    have hfront : (terms front).length = 0 := by omega
    cases front with
    | nil => rfl
    | cons node front =>
      cases hlong
      cases hfront
  rcases List.suffix_or_suffix_of_suffix h h' with hsuffix | hsuffix
  · exact hlonger hsuffix hhead' hterms
  · exact (hlonger hsuffix hhead hterms.symm).symm

end Program

end BooleanSearch
