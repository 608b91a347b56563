import BooleanSearch.Proofs.Query.Terms

/-!
# Rendering

Rendering works on a stack of texts. Each of them is the writing of an expression that is reduced
and mirrored: taking a leading `-` away lifts a `NOT`, since no field begins with `-`, and a group
names its later operand first. So rendering a program is building its expressions and writing them.
-/

namespace BooleanSearch

namespace Expression

/-- The text that rendering makes of an expression. -/
def rendering (field : Text) (e : Expression) : Text := e.reduce.mirror.write field

theorem head?_write_ne {field : Text} (hfield : field.head? ≠ some '-') {e : Expression}
    (he : e.isNegation = false) : (e.write field).head? ≠ some '-' := by
  cases e with
  | not operand => cases he
  | join op left right => simp [write]
  | term text =>
    cases field with
    | nil => simp [write]
    | cons c field => simpa [write] using hfield

/-- A reduced expression is not written with two negations in front. -/
theorem Normal.not_prefix_write {field : Text} (hfield : field.head? ≠ some '-') {e : Expression}
    (h : e.Normal) : ¬ ['-', '-'] <+: e.write field := by
  cases hneg : e.isNegation with
  | true =>
    cases e with
    | not operand =>
      have hhead := head?_write_ne hfield h.1
      rw [write, List.cons_prefix_cons]
      rintro ⟨-, rest, htext⟩
      rw [← htext] at hhead
      exact hhead rfl
    | term text => cases hneg
    | join op left right => cases hneg
  | false =>
    have hhead := head?_write_ne hfield hneg
    rintro ⟨rest, htext⟩
    rw [← htext] at hhead
    exact hhead rfl

/-- Negating a text negates what it is written from, lifting a `NOT` at the root. -/
theorem negate_write {field : Text} (hfield : field.head? ≠ some '-') (e : Expression) :
    Target.negate (e.write field) = e.negate.write field := by
  cases hneg : e.isNegation with
  | true =>
    cases e with
    | not operand => simp [write, negate, Target.negate, Target.negation]
    | term text => cases hneg
    | join op left right => cases hneg
  | false =>
    have hhead := head?_write_ne hfield hneg
    rw [negate_of_not_isNegation hneg, write]
    cases htext : e.write field with
    | nil => rfl
    | cons c rest =>
      rw [htext, List.head?_cons, ne_eq, Option.some.injEq] at hhead
      exact if_neg hhead

theorem rendering_not {field : Text} (hfield : field.head? ≠ some '-') (e : Expression) :
    Target.negate (e.rendering field) = (Expression.not e).rendering field := by
  rw [rendering, negate_write hfield, rendering, reduce, mirror_negate]

theorem rendering_join (field : Text) (op : Connective) (left right : Expression) :
    Target.group op.operator (right.rendering field) (left.rendering field) =
      (join op left right).rendering field := by
  cases op <;> rfl

/-- An operator does to texts what it does to the expressions that they are written from. -/
theorem apply_rendering {field : Text} (hfield : field.head? ≠ some '-') (op : Operator)
    (stack : List Expression) :
    Target.apply op (stack.map (rendering field)) =
      (apply op stack).map (List.map (rendering field)) := by
  have hcons : ∀ {text text' : Text} (rest : List Expression), text = text' →
      (Except.ok (text :: rest.map (rendering field)) : Except QueryError (List Text)) =
        .ok (text' :: rest.map (rendering field)) := by
    rintro text _ rest rfl
    rfl
  cases op with
  | not =>
    rcases stack with _ | ⟨operand, rest⟩
    · rfl
    · exact hcons rest (rendering_not hfield operand)
  | and =>
    rcases stack with _ | ⟨right, _ | ⟨left, rest⟩⟩
    · rfl
    · rfl
    · exact hcons rest (rendering_join field .and left right)
  | or =>
    rcases stack with _ | ⟨right, _ | ⟨left, rest⟩⟩
    · rfl
    · rfl
    · exact hcons rest (rendering_join field .or left right)

end Expression

namespace Program

/-- Rendering simulates building, faults included. -/
theorem operands_rendering {field : Text} (hfield : field.head? ≠ some '-') (program : Program)
    (stack : List Expression) :
    operands field program (stack.map (Expression.rendering field)) =
      (build program stack).map (List.map (Expression.rendering field)) := by
  induction program generalizing stack with
  | nil => rfl
  | cons node program ih =>
    cases node with
    | term text => exact ih (.term text :: stack)
    | operator op =>
      rw [operands, build, Expression.apply_rendering hfield]
      cases happly : Expression.apply op stack with
      | error fault => rfl
      | ok next => exact ih next

/-- The text of a program is the rendering of the last expression that it builds. -/
theorem render_eq_build {field : Text} (hfield : field.head? ≠ some '-') (program : Program) :
    render field program = (build program []).map fun stack =>
      (stack.map (Expression.rendering field)).headD (Target.everything field) := by
  have hoperands := operands_rendering hfield program []
  rw [List.map_nil] at hoperands
  rw [render, hoperands]
  cases hbuild : build program [] <;> rfl

theorem render_program {field : Text} (hfield : field.head? ≠ some '-') (e : Expression) :
    render field e.program = .ok (e.rendering field) := by
  rw [render_eq_build hfield, build_program]
  rfl

/-- Every expression that a program builds is made of the program's own terms. -/
theorem proper_of_mem_build {program : Program} {stack : List Expression}
    (h : build program [] = .ok stack) (hproper : program.Proper) {e : Expression}
    (he : e ∈ stack) : e.Proper := by
  have hnodes := flatMap_program_of_build h
  rw [← proper_program_iff]
  intro text htext
  apply hproper text
  have hmem : Node.term text ∈ stack.reverse.flatMap Expression.program :=
    List.mem_flatMap.mpr ⟨e, List.mem_reverse.mpr he, htext⟩
  simpa [hnodes] using hmem

end Program

namespace Expression

theorem Proper.negate {e : Expression} (h : e.Proper) : e.negate.Proper := by
  cases e with
  | not operand => exact h
  | term text => exact h
  | join op left right => exact h

theorem Proper.reduce {e : Expression} (h : e.Proper) : e.reduce.Proper := by
  induction e with
  | term text => exact h
  | not operand ih => exact (ih h).negate
  | join op left right ihleft ihright => exact ⟨ihleft h.1, ihright h.2⟩

theorem Proper.mirror {e : Expression} (h : e.Proper) : e.mirror.Proper := by
  induction e with
  | term text => exact h
  | not operand ih => exact ih h
  | join op left right ihleft ihright => exact ⟨ihright h.2, ihleft h.1⟩

end Expression

/-- No field name begins like a negation. -/
theorem head?_ne_of_isField {field : Text} (h : isField field = true) :
    field.head? ≠ some '-' := by
  obtain ⟨c, rest, rfl, hminus, -⟩ := exists_cons_of_isField h
  simpa using hminus

end BooleanSearch
