import BooleanSearch.Proofs.Query.Expression

/-!
# Reduced expressions

The target language writes an expression without double negations and with swapped operands.
`Expression.reduce` and `Expression.mirror` are these two changes; neither changes what an
expression means, and the second can be undone.
-/

namespace BooleanSearch.Expression

/-- The expression and all expressions within it. -/
def parts : Expression → List Expression
  | .term text => [.term text]
  | .not operand => .not operand :: operand.parts
  | .join op left right => .join op left right :: (left.parts ++ right.parts)

/-- Whether an expression is a negation at its root. -/
def isNegation : Expression → Bool
  | .not _ => true
  | _ => false

/-- No `NOT` stands directly under another one. -/
def Normal : Expression → Prop
  | .term _ => True
  | .not operand => operand.isNegation = false ∧ operand.Normal
  | .join _ left right => left.Normal ∧ right.Normal

/-- The negation, by which a `NOT` at the root is lifted. -/
def negate : Expression → Expression
  | .not operand => operand
  | operand => .not operand

/-- The expression with every pair of successive `NOT`s cancelled. -/
def reduce : Expression → Expression
  | .term text => .term text
  | .not operand => operand.reduce.negate
  | .join op left right => .join op left.reduce right.reduce

/-- The expression with the operands of every connective swapped. -/
def mirror : Expression → Expression
  | .term text => .term text
  | .not operand => .not operand.mirror
  | .join op left right => .join op right.mirror left.mirror

theorem negate_of_not_isNegation {e : Expression} (h : e.isNegation = false) :
    e.negate = .not e := by
  cases e with
  | not operand => cases h
  | term text => rfl
  | join op left right => rfl

theorem Normal.negate {e : Expression} (h : e.Normal) : e.negate.Normal := by
  cases e with
  | not operand => exact h.2
  | term text => exact ⟨rfl, h⟩
  | join op left right => exact ⟨rfl, h⟩

theorem normal_reduce (e : Expression) : e.reduce.Normal := by
  induction e with
  | term text => trivial
  | not operand ih => exact ih.negate
  | join op left right ihleft ihright => exact ⟨ihleft, ihright⟩

theorem negate_ne (e : Expression) : e.negate ≠ e := by
  intro h
  have hsize := congrArg sizeOf h
  cases e <;> simp [negate] at hsize

theorem Normal.negate_negate {e : Expression} (h : e.Normal) : e.negate.negate = e := by
  cases e with
  | not operand => exact negate_of_not_isNegation h.1
  | term text => rfl
  | join op left right => rfl

theorem Normal.of_mem_parts {e part : Expression} (h : e.Normal) (hpart : part ∈ e.parts) :
    part.Normal := by
  induction e with
  | term text =>
    cases List.mem_singleton.mp hpart
    trivial
  | not operand ih =>
    rcases List.mem_cons.mp hpart with rfl | hpart
    · exact h
    · exact ih h.2 hpart
  | join op left right ihleft ihright =>
    rcases List.mem_cons.mp hpart with rfl | hpart
    · exact h
    · rcases List.mem_append.mp hpart with hpart | hpart
      · exact ihleft h.1 hpart
      · exact ihright h.2 hpart

theorem isNegation_mirror (e : Expression) : e.mirror.isNegation = e.isNegation := by
  cases e <;> rfl

theorem normal_mirror {e : Expression} (h : e.Normal) : e.mirror.Normal := by
  induction e with
  | term text => trivial
  | not operand ih => exact ⟨(isNegation_mirror operand).trans h.1, ih h.2⟩
  | join op left right ihleft ihright => exact ⟨ihright h.2, ihleft h.1⟩

theorem mirror_negate (e : Expression) : e.negate.mirror = e.mirror.negate := by
  cases e <;> rfl

theorem mirror_mirror (e : Expression) : e.mirror.mirror = e := by
  induction e with
  | term text => rfl
  | not operand ih => rw [mirror, mirror, ih]
  | join op left right ihleft ihright => rw [mirror, mirror, ihleft, ihright]

theorem eval_negate (assignment : Text → Bool) (e : Expression) :
    e.negate.eval assignment = !e.eval assignment := by
  cases e with
  | not operand => rw [negate, eval, Bool.not_not]
  | term text => rfl
  | join op left right => rfl

theorem eval_reduce (assignment : Text → Bool) (e : Expression) :
    e.reduce.eval assignment = e.eval assignment := by
  induction e with
  | term text => rfl
  | not operand ih => rw [reduce, eval_negate, ih, eval]
  | join op left right ihleft ihright => rw [reduce, eval, ihleft, ihright, eval]

theorem eval_mirror (assignment : Text → Bool) (e : Expression) :
    e.mirror.eval assignment = e.eval assignment := by
  induction e with
  | term text => rfl
  | not operand ih => rw [mirror, eval, ih, eval]
  | join op left right ihleft ihright =>
    rw [mirror, eval, ihleft, ihright, Connective.eval_comm, eval]

end BooleanSearch.Expression
