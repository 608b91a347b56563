import BooleanSearch.Proofs.Query.Underflow
import Mathlib.Logic.ExistsUnique

/-!
# The last operand of a program

A program that can be rendered ends in the listing of just one expression. The nodes before it leave
the orphans, and no operator of the listing reaches them: what is rendered is the listing alone.
-/

namespace BooleanSearch

/-- A connective joins the two topmost texts to one. -/
theorem Target.exists_apply_operator (op : Connective) (first second : Text) :
    ∃ text, ∀ rest, apply op.operator (first :: second :: rest) = .ok (text :: rest) := by
  cases op with
  | and => exact ⟨group .and first second, fun _ => rfl⟩
  | or => exact ⟨group .or first second, fun _ => rfl⟩

namespace Program

/-- The listing of an expression adds the same text to any stack. -/
theorem exists_operands_program (field : Text) (e : Expression) :
    ∃ text, ∀ stack, operands field e.program stack = .ok (text :: stack) := by
  induction e with
  | term text => exact ⟨Target.term field text, fun _ => rfl⟩
  | not operand ih =>
    obtain ⟨text, hoperand⟩ := ih
    refine ⟨Target.negate text, fun stack => ?_⟩
    rw [Expression.program, (runsOnStack_operands field).append, hoperand]
    rfl
  | join op left right ihleft ihright =>
    obtain ⟨second, hleft⟩ := ihleft
    obtain ⟨first, hright⟩ := ihright
    obtain ⟨text, happly⟩ := Target.exists_apply_operator op first second
    refine ⟨text, fun stack => ?_⟩
    rw [Expression.program, (runsOnStack_operands field).append,
      (runsOnStack_operands field).append, hleft]
    simp only [bind, Except.bind, hright, operands, happly]

/-- A program that is read as expressions has one listing of an expression at its end only. -/
theorem listing_unique {dropped dropped' : Program} {e e' : Expression} {stack : List Expression}
    (h : build (dropped ++ e.program) [] = .ok stack)
    (hsame : dropped ++ e.program = dropped' ++ e'.program) : dropped = dropped' ∧ e = e' := by
  have hhead : ∀ {first : Program} {last : Expression},
      build (first ++ last.program) [] = .ok stack → stack.head? = some last := by
    intro first last hbuild
    rw [runsOnStack_build.append] at hbuild
    obtain ⟨below, -, hlisted⟩ := exists_of_bind_eq_ok hbuild
    rw [build_program] at hlisted
    cases hlisted
    rfl
  have he : e = e' := Option.some.inj ((hhead h).symm.trans (hhead (hsame ▸ h)))
  subst he
  exact ⟨List.append_cancel_right hsame, rfl⟩

theorem exists_orphans_of_render {program : Program} {field text : Text}
    (h : program.render field = .ok text) : ∃ count, program.orphans = .ok count := by
  cases hcount : program.orphans with
  | ok count => exact ⟨count, rfl⟩
  | error fault =>
    rw [render_eq_error_iff.mpr hcount] at h
    cases h

/-- A program that is not empty and can be counted ends in a listing, and can be read. -/
theorem exists_listing {program : Program} {count : Nat} (hne : program ≠ [])
    (h : program.orphans = .ok count) :
    ∃ (dropped : Program) (e : Expression) (stack : List Expression),
      program = dropped ++ e.program ∧ build program [] = .ok stack := by
  cases hdepth : depth program 0 with
  | error fault =>
    rw [orphans_eq_error_iff.mpr hdepth] at h
    cases h
  | ok m =>
    obtain ⟨n, rfl⟩ := Nat.exists_eq_succ_of_ne_zero (Nat.ne_of_gt (depth_pos_of_ne_nil hne hdepth))
    obtain ⟨e, below, hbuild, dropped, hprogram⟩ := exists_build_of_depth hdepth
    exact ⟨dropped, e, e :: below, hprogram.symm, hbuild⟩

/-- Of a program with a listing at its end the listing is rendered. The nodes before it leave the
orphans. -/
theorem render_append_listing {dropped : Program} {e : Expression} {count : Nat}
    (h : orphans (dropped ++ e.program) = .ok count) (field : Text) :
    ∃ text stack, render field (dropped ++ e.program) = .ok text ∧
      render field e.program = .ok text ∧ operands field dropped [] = .ok stack ∧
        orphans (dropped ++ e.program) = .ok stack.length := by
  obtain ⟨text, hlisted⟩ := exists_operands_program field e
  have happend := (runsOnStack_operands field).append dropped e.program []
  cases hstack : operands field dropped [] with
  | error fault =>
    rw [orphans_eq_operands _ field, happend, hstack] at h
    cases h
  | ok stack =>
    have hall : operands field (dropped ++ e.program) [] = .ok (text :: stack) := by
      rw [happend, hstack]
      exact hlisted stack
    refine ⟨text, stack, ?_, ?_, rfl, ?_⟩
    · rw [render, hall]
      rfl
    · rw [render, hlisted]
      rfl
    · rw [orphans_eq_operands _ field, hall]
      rfl

/-- Rendering drops just the nodes before its last operand. A program that is not empty and can be
rendered has one split only into nodes to drop and the listing of an expression; for each field, the
text of the program is that of the listing, and the orphans are what the nodes to drop leave. -/
theorem render_last_operand {program : Program} {field text : Text} (hne : program ≠ [])
    (h : program.render field = .ok text) :
    (∃! split : Program × Program,
      program = split.1 ++ split.2 ∧ ∃ e : Expression, split.2 = e.program) ∧
    ∀ (dropped : Program) (e : Expression), program = dropped ++ e.program →
      ∀ field, ∃ text stack, program.render field = .ok text ∧ render field e.program = .ok text ∧
        operands field dropped [] = .ok stack ∧ program.orphans = .ok stack.length := by
  obtain ⟨count, hcount⟩ := exists_orphans_of_render h
  obtain ⟨dropped, e, stack, hprogram, hbuild⟩ := exists_listing hne hcount
  refine ⟨⟨(dropped, e.program), ⟨hprogram, e, rfl⟩, ?_⟩, ?_⟩
  · rintro ⟨dropped', _⟩ ⟨hsame, e', rfl⟩
    obtain ⟨rfl, rfl⟩ := listing_unique (hprogram ▸ hbuild) (hprogram.symm.trans hsame)
    rfl
  · rintro dropped' e' rfl field
    exact render_append_listing hcount field

/-- Two operands are dropped, one of them made by operators. -/
theorem render_last_operand_orphans :
    let dropped : Program :=
      [.term "plum".toList, .term "pear*".toList, .term "fig".toList, .operator .or,
        .operator .not]
    let kept : Expression := .join .and (.term "kiwi".toList) (.not (.term "lime".toList))
    let program := dropped ++ kept.program
    program ≠ [] ∧ program.render "text".toList = .ok "(-text:lime AND text:kiwi)".toList ∧
      (∃! split : Program × Program,
        program = split.1 ++ split.2 ∧ ∃ e : Expression, split.2 = e.program) ∧
      ∀ field, ∃ text stack, program.render field = .ok text ∧
        render field kept.program = .ok text ∧ operands field dropped [] = .ok stack ∧
          program.orphans = .ok stack.length := by
  intro dropped kept program
  have hne : program ≠ [] := nofun
  have hrender : program.render "text".toList = .ok "(-text:lime AND text:kiwi)".toList := rfl
  obtain ⟨hsplit, hall⟩ := render_last_operand hne hrender
  exact ⟨hne, hrender, hsplit, hall dropped kept rfl⟩

end Program

end BooleanSearch
