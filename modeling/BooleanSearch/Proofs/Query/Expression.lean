import BooleanSearch.Proofs.Result
import BooleanSearch.Query.Render

/-!
# Boolean expressions

The trees that programs are written from. `Expression.program` lists a tree in postfix order, and
`Program.build` reads a program back on a stack of trees. Reading back undoes listing, so each
program lists at most one tree; and a program whose nodes are all used up lists exactly one.
-/

namespace BooleanSearch

/-- A binary connective. -/
inductive Connective where
  | and
  | or
  deriving DecidableEq, Repr

namespace Connective

/-- The operator that a connective is. -/
def operator : Connective → Operator
  | .and => .and
  | .or => .or

/-- The truth value that a connective makes of two. -/
def eval : Connective → Bool → Bool → Bool
  | .and, a, b => a && b
  | .or, a, b => a || b

theorem eval_comm (op : Connective) (a b : Bool) : op.eval a b = op.eval b a := by
  cases op with
  | and => exact Bool.and_comm a b
  | or => exact Bool.or_comm a b

end Connective

/-- A Boolean expression of terms, each in its final form. -/
inductive Expression where
  | term (text : Text)
  | not (operand : Expression)
  | join (op : Connective) (left right : Expression)
  deriving DecidableEq, Repr

namespace Expression

/-- The listing in postfix order. -/
def program : Expression → Program
  | .term text => [.term text]
  | .not operand => operand.program ++ [.operator .not]
  | .join op left right => left.program ++ right.program ++ [.operator op.operator]

/-- The listing of an expression begins with a term. -/
theorem exists_program_eq_cons (e : Expression) :
    ∃ text rest, e.program = .term text :: rest := by
  induction e with
  | term text => exact ⟨text, [], rfl⟩
  | not operand ih =>
    obtain ⟨text, rest, hprogram⟩ := ih
    exact ⟨text, rest ++ [.operator .not], by rw [program, hprogram]; rfl⟩
  | join op left right ih _ =>
    obtain ⟨text, rest, hprogram⟩ := ih
    exact ⟨text, rest ++ right.program ++ [.operator op.operator], by rw [program, hprogram]; rfl⟩

/-- The truth value under an assignment of truth values to terms. -/
def eval (assignment : Text → Bool) : Expression → Bool
  | .term text => assignment text
  | .not operand => !operand.eval assignment
  | .join op left right => op.eval (left.eval assignment) (right.eval assignment)

/-- The stack of expressions after an operator is applied to the topmost ones. -/
def apply (op : Operator) (stack : List Expression) : Except QueryError (List Expression) :=
  match op, stack with
  | .not, operand :: rest => .ok (.not operand :: rest)
  | .and, right :: left :: rest => .ok (.join .and left right :: rest)
  | .or, right :: left :: rest => .ok (.join .or left right :: rest)
  | op, stack => .error (.underflow op op.arity stack.length)

theorem apply_operator (op : Connective) (left right : Expression) (rest : List Expression) :
    apply op.operator (right :: left :: rest) = .ok (.join op left right :: rest) := by
  cases op <;> rfl

/-- An operator that does not fail joins the topmost expressions to one. -/
theorem apply_eq_ok {op : Operator} {stack result : List Expression}
    (h : apply op stack = .ok result) :
    (∃ operand rest, op = .not ∧ stack = operand :: rest ∧ result = .not operand :: rest) ∨
    (∃ connective left right rest, op = Connective.operator connective ∧
      stack = right :: left :: rest ∧ result = .join connective left right :: rest) := by
  unfold apply at h
  split at h
  · next operand rest => cases h; exact .inl ⟨operand, rest, rfl, rfl, rfl⟩
  · next right left rest => cases h; exact .inr ⟨.and, left, right, rest, rfl, rfl, rfl⟩
  · next right left rest => cases h; exact .inr ⟨.or, left, right, rest, rfl, rfl, rfl⟩
  · cases h

/-- An operator fails exactly if the stack is too short for it. -/
theorem map_length_apply (op : Operator) (stack : List Expression) :
    (apply op stack).map List.length =
      if stack.length < op.arity then .error (.underflow op op.arity stack.length)
      else .ok (stack.length - op.arity + 1) := by
  cases op <;> rcases stack with _ | ⟨_, _ | ⟨_, rest⟩⟩ <;> simp [apply, Except.map, Operator.arity]

end Expression

namespace Program

/-- A way to run programs on a stack: a term pushes one entry, and an operator takes as many as it
joins, if there are so many, and leaves one. -/
structure RunsOnStack {α : Type} (entry : Text → α)
    (apply : Operator → List α → Except QueryError (List α))
    (run : Program → List α → Except QueryError (List α)) : Prop where
  nil (stack : List α) : run [] stack = .ok stack
  term (text : Text) (program : Program) (stack : List α) :
    run (.term text :: program) stack = run program (entry text :: stack)
  operator (op : Operator) (program : Program) (stack : List α) :
    run (.operator op :: program) stack = apply op stack >>= run program
  map_length_apply (op : Operator) (stack : List α) :
    (apply op stack).map List.length =
      if stack.length < op.arity then .error (.underflow op op.arity stack.length)
      else .ok (stack.length - op.arity + 1)

namespace RunsOnStack

variable {α : Type} {entry : Text → α} {apply : Operator → List α → Except QueryError (List α)}
  {run : Program → List α → Except QueryError (List α)}

/-- A program that follows another one runs on the stack that it leaves. -/
theorem append (h : RunsOnStack entry apply run) (program more : Program) (stack : List α) :
    run (program ++ more) stack = run program stack >>= run more := by
  induction program generalizing stack with
  | nil =>
    rw [List.nil_append, h.nil]
    rfl
  | cons node program ih =>
    cases node with
    | term text => rw [List.cons_append, h.term, h.term, ih]
    | operator op =>
      rw [List.cons_append, h.operator, h.operator]
      cases happly : apply op stack with
      | error fault => rfl
      | ok next => exact ih next

/-- The stack is as deep as is counted, and the run fails where the count does. -/
theorem depth_eq (h : RunsOnStack entry apply run) (program : Program) (stack : List α) :
    depth program stack.length = (run program stack).map List.length := by
  induction program generalizing stack with
  | nil =>
    rw [h.nil]
    rfl
  | cons node program ih =>
    cases node with
    | term text =>
      rw [h.term]
      exact ih (entry text :: stack)
    | operator op =>
      have hlength := h.map_length_apply op stack
      rw [depth, h.operator]
      cases happly : apply op stack with
      | error fault =>
        rw [happly] at hlength
        split at hlength
        · next hlt => rw [if_pos hlt, ← hlength]; rfl
        · cases hlength
      | ok next =>
        rw [happly] at hlength
        split at hlength
        · cases hlength
        · next hge =>
          rw [if_neg hge]
          rw [← (Except.ok.inj hlength : next.length = _)]
          exact ih next

end RunsOnStack

/-- The expressions that a program makes on a stack of some, the topmost first. -/
def build : Program → List Expression → Except QueryError (List Expression)
  | [], stack => .ok stack
  | .term text :: rest, stack => build rest (.term text :: stack)
  | .operator op :: rest, stack => do build rest (← Expression.apply op stack)

theorem runsOnStack_build : RunsOnStack .term Expression.apply build where
  nil _ := rfl
  term _ _ _ := rfl
  operator _ _ _ := rfl
  map_length_apply := Expression.map_length_apply

/-- Reading the listing of an expression pushes that expression. -/
theorem build_program (e : Expression) (stack : List Expression) :
    build e.program stack = .ok (e :: stack) := by
  induction e generalizing stack with
  | term text => rfl
  | not operand ih =>
    rw [Expression.program, runsOnStack_build.append, ih]
    rfl
  | join op left right ihleft ihright =>
    rw [Expression.program, runsOnStack_build.append, runsOnStack_build.append, ihleft]
    simp only [bind, Except.bind, ihright, build, Expression.apply_operator]

/-- Reading a program keeps its nodes: from the bottom to the top, the stack lists what was read. -/
theorem flatMap_program_of_build {program : Program} {stack result : List Expression}
    (h : build program stack = .ok result) :
    result.reverse.flatMap Expression.program =
      stack.reverse.flatMap Expression.program ++ program := by
  induction program generalizing stack with
  | nil =>
    cases h
    simp
  | cons node program ih =>
    cases node with
    | term text =>
      rw [ih h]
      simp [Expression.program]
    | operator op =>
      obtain ⟨next, happly, hnext⟩ := exists_of_bind_eq_ok h
      rw [ih hnext]
      obtain ⟨operand, rest, rfl, rfl, rfl⟩ | ⟨connective, left, right, rest, rfl, rfl, rfl⟩ :=
        Expression.apply_eq_ok happly
      · simp [Expression.program]
      · simp [Expression.program]

end Program

namespace Expression

/-- Different expressions have different listings. -/
theorem program_injective {e₁ e₂ : Expression} (h : e₁.program = e₂.program) : e₁ = e₂ := by
  have hbuild := Program.build_program e₁ []
  rw [h, Program.build_program e₂ []] at hbuild
  simpa using hbuild.symm

end Expression

namespace Program

/-- A program without orphans that is not empty is the listing of an expression. -/
theorem exists_expression {program : Program} (hne : program ≠ [])
    (h : program.orphans = .ok 0) : ∃ e : Expression, e.program = program := by
  have hdepth := runsOnStack_build.depth_eq program []
  rw [List.length_nil] at hdepth
  cases hbuild : build program [] with
  | error fault => simp [orphans, hdepth, hbuild, Except.map, bind, Except.bind] at h
  | ok stack =>
    have hlength : stack.length - 1 = 0 := by
      simpa [orphans, hdepth, hbuild, Except.map, bind, Except.bind, pure, Except.pure] using h
    have hnodes := flatMap_program_of_build hbuild
    rcases stack with _ | ⟨e, _ | ⟨e', rest⟩⟩
    · exact absurd (by simpa using hnodes.symm) hne
    · exact ⟨e, by simpa using hnodes⟩
    · simp at hlength

/-- The listing of an expression has no orphans. -/
theorem orphans_program (e : Expression) : orphans e.program = .ok 0 := by
  have hdepth := runsOnStack_build.depth_eq e.program []
  rw [build_program, List.length_nil] at hdepth
  rw [orphans, hdepth]
  rfl

end Program

end BooleanSearch
