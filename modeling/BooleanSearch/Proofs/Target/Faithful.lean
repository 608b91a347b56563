import BooleanSearch.Proofs.Target.Rendering

/-!
# Faithfulness of the target language

A text of the target language has at most one reading. So two programs of queries that are
rendered to one text are of one field and list expressions that differ in double negations only.
-/

namespace BooleanSearch

/-- A text has at most one reading for a field. -/
theorem Expression.Reads.unique {field text : Text} (hfield : isField field = true)
    {e e' : Expression} (h : e.Reads field text) (h' : e'.Reads field text) : e = e' := by
  have htext : e.write field ++ [] = e'.write field ++ [] := by rw [h.2, h'.2]
  exact (write_append_inj hfield hfield h.1 h'.1 (by simp) (by simp) htext).2.1

/-- Expressions of terms of the target language are rendered alike exactly if they are alike but
for double negations. -/
theorem Expression.rendering_inj {field₁ field₂ : Text} (hfield₁ : isField field₁ = true)
    (hfield₂ : isField field₂ = true) {e₁ e₂ : Expression} (he₁ : e₁.Proper) (he₂ : e₂.Proper) :
    e₁.rendering field₁ = e₂.rendering field₂ ↔ field₁ = field₂ ∧ e₁.reduce = e₂.reduce := by
  constructor
  · intro h
    have htext : e₁.reduce.mirror.write field₁ ++ [] = e₂.reduce.mirror.write field₂ ++ [] := by
      rw [List.append_nil, List.append_nil]
      exact h
    obtain ⟨hfield, hmirror, -⟩ := write_append_inj hfield₁ hfield₂ he₁.reduce.mirror
      he₂.reduce.mirror (by simp) (by simp) htext
    refine ⟨hfield, ?_⟩
    rw [← mirror_mirror e₁.reduce, hmirror, mirror_mirror]
  · rintro ⟨rfl, hreduce⟩
    rw [rendering, rendering, hreduce]

/-- The target language loses nothing but double negations: programs of queries that are not
empty and have no orphans each list exactly one expression and are rendered; and the texts are the
same exactly if the fields are and the expressions are once every pair of successive `NOT`s is
cancelled. -/
theorem Program.render_faithful (query₁ query₂ : Text) {field₁ field₂ : Text}
    {program₁ program₂ : Program}
    (hquery₁ : ofQuery query₁ = .ok program₁) (hquery₂ : ofQuery query₂ = .ok program₂)
    (hne₁ : program₁ ≠ []) (hne₂ : program₂ ≠ [])
    (horphans₁ : program₁.orphans = .ok 0) (horphans₂ : program₂.orphans = .ok 0)
    (hfield₁ : isField field₁ = true) (hfield₂ : isField field₂ = true) :
    ∃ e₁ e₂ : Expression, (∀ e : Expression, e.program = program₁ ↔ e = e₁) ∧
      (∀ e : Expression, e.program = program₂ ↔ e = e₂) ∧
      ∃ text₁ text₂, program₁.render field₁ = .ok text₁ ∧ program₂.render field₂ = .ok text₂ ∧
        (text₁ = text₂ ↔ field₁ = field₂ ∧ e₁.reduce = e₂.reduce) := by
  obtain ⟨e₁, rfl⟩ := exists_expression hne₁ horphans₁
  obtain ⟨e₂, rfl⟩ := exists_expression hne₂ horphans₂
  have he₁ : e₁.Proper := (proper_program_iff e₁).mp (proper_of_ofQuery hquery₁)
  have he₂ : e₂.Proper := (proper_program_iff e₂).mp (proper_of_ofQuery hquery₂)
  refine ⟨e₁, e₂, fun e => ⟨Expression.program_injective, congrArg _⟩,
    fun e => ⟨Expression.program_injective, congrArg _⟩, e₁.rendering field₁, e₂.rendering field₂,
    render_program (head?_ne_of_isField hfield₁) e₁,
    render_program (head?_ne_of_isField hfield₂) e₂, ?_⟩
  exact Expression.rendering_inj hfield₁ hfield₂ he₁ he₂

/-- Two queries that differ in parentheses, spaces and double negations. -/
theorem Program.render_faithful_double_negations :
    let program₁ : Program := [.term "pear*".toList, .operator .not, .operator .not,
      .term "\"red OR plum\"".toList, .operator .and]
    let program₂ : Program := [.term "pear*".toList, .term "\"red OR plum\"".toList,
      .operator .not, .operator .not, .operator .and]
    ofQuery "NOT NOT pear* AND \"red  OR plum\"".toList = .ok program₁ ∧
    ofQuery "(pear*) AND ( NOT NOT \"red OR plum\" )".toList = .ok program₂ ∧
    ∃ e₁ e₂ : Expression, (∀ e : Expression, e.program = program₁ ↔ e = e₁) ∧
      (∀ e : Expression, e.program = program₂ ↔ e = e₂) ∧
      ∃ text₁ text₂, program₁.render "text".toList = .ok text₁ ∧
        program₂.render "text".toList = .ok text₂ ∧
        (text₁ = text₂ ↔ "text".toList = "text".toList ∧ e₁.reduce = e₂.reduce) :=
  ⟨rfl, rfl, render_faithful "NOT NOT pear* AND \"red  OR plum\"".toList
    "(pear*) AND ( NOT NOT \"red OR plum\" )".toList rfl rfl (by simp) (by simp)
    rfl rfl (by decide) (by decide)⟩

end BooleanSearch
