import BooleanSearch.Proofs.Query.Depth
import BooleanSearch.Proofs.Target.Rendering

/-!
# Negations on the stack

Rendering tells a negation by the first character of its text alone. That character is a `-` just
for the expressions that are negations once their double negations are cancelled, whatever the
terms are, because a text of any other kind begins with the field, with `:` or with `(`. So lifting
a negation takes away the `-` that a `NOT` has set, and two `NOT`s in a row do nothing to a stack.
-/

namespace BooleanSearch

namespace Expression

/-- Cancelling double negations cancels two `NOT`s at the root. -/
theorem rendering_not_not (field : Text) (e : Expression) :
    (Expression.not (.not e)).rendering field = e.rendering field := by
  have hreduce : (Expression.not (.not e)).reduce = e.reduce := (normal_reduce e).negate_negate
  rw [rendering, hreduce, rendering]

/-- The text of an expression begins with `-` exactly if a `NOT` is left at its root. -/
theorem head?_rendering_iff {field : Text} (hfield : field.head? ≠ some '-') (e : Expression) :
    (e.rendering field).head? = some '-' ↔ e.reduce.isNegation = true := by
  rw [← isNegation_mirror, rendering]
  cases hneg : e.reduce.mirror.isNegation with
  | true =>
    cases hmirror : e.reduce.mirror with
    | not operand => simp [write]
    | term text | join op left right =>
      rw [hmirror] at hneg
      cases hneg
  | false => simpa using head?_write_ne hfield hneg

/-- If no `NOT` is left at the root, negating takes nothing away. -/
theorem negate_rendering_of_not_isNegation {field : Text} (hfield : field.head? ≠ some '-')
    {e : Expression} (h : e.reduce.isNegation = false) :
    Target.negate (e.rendering field) = '-' :: e.rendering field := by
  rw [← isNegation_mirror] at h
  rw [rendering, negate_write hfield, negate_of_not_isNegation h, write]

/-- If a `NOT` is left at the root, lifting the negation leaves all of the text of its operand. -/
theorem negate_rendering_of_reduce_eq {field : Text} {e operand : Expression}
    (h : e.reduce = .not operand) :
    e.rendering field = '-' :: operand.mirror.write field ∧
      Target.negate (e.rendering field) = operand.mirror.write field := by
  have htext : e.rendering field = '-' :: operand.mirror.write field := by
    rw [rendering, h]
    rfl
  exact ⟨htext, by rw [htext]; rfl⟩

end Expression

namespace Program

/-- Every stack of texts is the rendering of a stack of expressions. -/
theorem exists_build_of_operands {field : Text} (hfield : field.head? ≠ some '-')
    {program : Program} {stack : List Text} (h : operands field program [] = .ok stack) :
    ∃ expressions, build program [] = .ok expressions ∧
      stack = expressions.map (Expression.rendering field) := by
  have hbuild := operands_rendering hfield program []
  rw [List.map_nil, h] at hbuild
  cases hexpressions : build program [] with
  | error fault =>
    rw [hexpressions] at hbuild
    cases hbuild
  | ok expressions =>
    rw [hexpressions] at hbuild
    exact ⟨expressions, rfl, Except.ok.inj hbuild⟩

/-- Two `NOT`s in a row do nothing to a stack that is not empty. -/
theorem operands_not_not {field : Text} (hfield : field.head? ≠ some '-') {program : Program}
    {stack : List Text} (h : operands field program [] = .ok stack) (hne : stack ≠ []) :
    operands field [.operator .not, .operator .not] stack = .ok stack := by
  obtain ⟨expressions, -, rfl⟩ := exists_build_of_operands hfield h
  cases expressions with
  | nil => exact absurd rfl hne
  | cons e below =>
    have htwice : Target.negate (Target.negate (e.rendering field)) = e.rendering field := by
      rw [Expression.rendering_not hfield, Expression.rendering_not hfield,
        Expression.rendering_not_not]
    show Except.ok (Target.negate (Target.negate (e.rendering field)) :: _) = _
    rw [htwice]
    rfl

/-- Double negations cancel anywhere. Where a beginning of a program leaves some operand, two `NOT`s
after it change neither the text nor the fault, whatever comes next. At any point of any program the
stack holds the texts of the expressions that were built, and a text begins with `-` exactly if a
`NOT` is left at the root when double negations are cancelled. Negating such a text takes the `-` of
that `NOT` and leaves all of the text of the operand; negating any other takes nothing away. -/
theorem render_double_negation {field : Text} (hfield : field.head? ≠ some '-')
    {before : Program} {stack : List Text} (h : operands field before [] = .ok stack)
    (hne : stack ≠ []) (after : Program) :
    render field (before ++ .operator .not :: .operator .not :: after) =
      render field (before ++ after) ∧
    ∀ (read : Program) (texts : List Text), operands field read [] = .ok texts →
      ∃ expressions, build read [] = .ok expressions ∧
        texts = expressions.map (Expression.rendering field) ∧
        ∀ e ∈ expressions,
          ((e.rendering field).head? = some '-' ↔ e.reduce.isNegation = true) ∧
          (e.reduce.isNegation = false →
            Target.negate (e.rendering field) = '-' :: e.rendering field) ∧
          ∀ operand, e.reduce = .not operand →
            e.rendering field = '-' :: operand.mirror.write field ∧
            Target.negate (e.rendering field) = operand.mirror.write field := by
  constructor
  · have happend := (runsOnStack_operands field).append
    have hnots : operands field (.operator .not :: .operator .not :: after) stack =
        operands field after stack := by
      have hsplit := happend [.operator .not, .operator .not] after stack
      rwa [operands_not_not hfield h hne] at hsplit
    have hsame : operands field (before ++ .operator .not :: .operator .not :: after) [] =
        operands field (before ++ after) [] := by
      rw [happend, happend, h]
      exact hnots
    rw [render, render, hsame]
  · intro read texts htexts
    obtain ⟨expressions, hbuild, hstack⟩ := exists_build_of_operands hfield htexts
    refine ⟨expressions, hbuild, hstack, ?_⟩
    intro e _
    refine ⟨e.head?_rendering_iff hfield, ?_, ?_⟩
    · intro hplain
      exact Expression.negate_rendering_of_not_isNegation hfield hplain
    · intro operand hoperand
      exact Expression.negate_rendering_of_reduce_eq hoperand

/-- Terms that begin with `-`, an empty field, and an `OR` at the end that finds one operand. -/
theorem render_double_negation_underflow :
    let before : Program :=
      [.term "-plum".toList, .term "--".toList, .operator .and, .operator .not]
    let after : Program := [.operator .not, .operator .or]
    ([] : Text).head? ≠ some '-' ∧
      operands [] before [] = .ok ["-(:-- AND :-plum)".toList] ∧
      render [] (before ++ .operator .not :: .operator .not :: after) =
        .error (.underflow .or 2 1) ∧
      render [] (before ++ after) = .error (.underflow .or 2 1) ∧
      render [] (before ++ [.operator .not, .operator .not]) = .ok "-(:-- AND :-plum)".toList := by
  intro before after
  have hfield : ([] : Text).head? ≠ some '-' := by simp
  have hbefore : operands [] before [] = .ok ["-(:-- AND :-plum)".toList] := rfl
  obtain ⟨hfault, -⟩ := render_double_negation hfield hbefore (by simp) after
  obtain ⟨htext, -⟩ := render_double_negation hfield hbefore (by simp) []
  exact ⟨hfield, hbefore, hfault, rfl, htext⟩

end Program

end BooleanSearch
