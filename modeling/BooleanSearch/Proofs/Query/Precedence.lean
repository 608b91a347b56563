import BooleanSearch.Proofs.Query.Conversion
import BooleanSearch.Proofs.Query.Infix
import BooleanSearch.Proofs.Query.Pending

/-!
# Precedence

The conversion agrees with the infix grammar: the program of the tokens of a derivation is the
listing of its expression. While a derivation is read, some of its nodes are settled and some of
its operators wait; `Infix.settled` and `Infix.waiting` say which, and the two together are always
the whole listing. An operator of a looser level then settles exactly what waits.
-/

namespace BooleanSearch

namespace Infix

/-- The operators of a derivation that wait when its last token is read, the topmost first. -/
def waiting {level : Level} : Infix level → List Pending
  | .word _ | .phrase _ | .group _ => []
  | .ofAtom atom => atom.waiting
  | .not operand => operand.waiting ++ [.operator .not]
  | .ofNot operand => operand.waiting
  | .and _ right => right.waiting ++ [.operator .and]
  | .ofAnd operand => operand.waiting
  | .or _ right => right.waiting ++ [.operator .or]

/-- The nodes of a derivation that are settled when its last token is read. -/
def settled {level : Level} : Infix level → Program
  | .word text => [Node.ofWord text]
  | .phrase quoted => [Node.ofPhrase (phraseText quoted.tokens)]
  | .group inner => inner.expression.program
  | .ofAtom atom => atom.settled
  | .not operand => operand.settled
  | .ofNot operand => operand.settled
  | .and left right => left.expression.program ++ right.settled
  | .ofAnd operand => operand.settled
  | .or left right => left.expression.program ++ right.settled

end Infix

/-- A word with a wildcard is a term as it is, any other in double quotes. -/
theorem Node.ofWord_eq (text : Text) :
    Node.ofWord text = .term (if '*' ∈ text then text else '"' :: text ++ ['"']) := by
  by_cases h : '*' ∈ text
  · simp [Node.ofWord, h]
  · simp [Node.ofWord, Node.literal, h]

namespace Pending

/-- A binary operator settles what binds at most as loosely as it does, down to the first entry
that binds more loosely. -/
theorem push_append (op : Connective) {pending below : List Pending}
    (htight : ∀ entry ∈ pending, entry.looseness ≤ (Pending.operator op.operator).looseness)
    (hloose : ∀ entry ∈ below.head?, (Pending.operator op.operator).looseness < entry.looseness) :
    push op.operator (pending ++ below) = (nodes pending, .operator op.operator :: below) := by
  have hne : op.operator ≠ .not := by cases op <;> nofun
  have hall : ∀ entry ∈ pending, tighter op.operator entry = true := by
    simpa [tighter] using htight
  rw [push_of_ne_not hne, List.takeWhile_append_of_pos hall, List.dropWhile_append_of_pos hall]
  cases below with
  | nil => simp
  | cons entry below =>
    have hentry : ¬ tighter op.operator entry = true := by
      simpa [tighter] using hloose entry (by simp)
    rw [List.takeWhile_cons_of_neg hentry, List.dropWhile_cons_of_neg hentry, List.append_nil]

end Pending

namespace Level

/-- The looseness of the loosest operator that a derivation of a level leaves waiting. -/
def looseness : Level → Nat
  | .atom => 0
  | .not => 1
  | .and => 2
  | .or => 3

/-- What may wait when a derivation of a level begins: its own binary operators must not settle
anything of it. `NOT` settles nothing, so below the binary levels anything may wait. -/
def FitsOn (level : Level) (pending : List Pending) : Prop :=
  level = .and ∨ level = .or → ∀ entry ∈ pending.head?, level.looseness < entry.looseness

end Level

namespace Infix

theorem looseness_le_of_mem_waiting {level : Level} (e : Infix level) :
    ∀ entry ∈ e.waiting, entry.looseness ≤ level.looseness := by
  induction e with
  | word | phrase | group => intro entry h; cases h
  | ofAtom _ ih | ofNot _ ih | ofAnd _ ih =>
    intro entry h
    exact Nat.le_succ_of_le (ih entry h)
  | not _ ih | and _ _ _ ih | or _ _ _ ih =>
    intro entry h
    rw [waiting, List.mem_append, List.mem_singleton] at h
    rcases h with h | rfl
    · have hle := ih entry h
      simp only [Level.looseness] at hle ⊢
      omega
    · exact Nat.le_refl _

theorem group_not_mem_waiting {level : Level} (e : Infix level) : .group ∉ e.waiting := by
  intro h
  have hle := looseness_le_of_mem_waiting e .group h
  cases level <;> simp [Pending.looseness, Level.looseness] at hle

/-- What is settled and what waits make up the listing. -/
theorem settled_append_waiting {level : Level} (e : Infix level) :
    e.settled ++ Pending.nodes e.waiting = e.expression.program := by
  induction e with
  | word text => rw [settled, Node.ofWord_eq]; rfl
  | phrase quoted => rfl
  | group inner => simp [settled, waiting, expression, Pending.nodes]
  | ofAtom _ ih | ofNot _ ih | ofAnd _ ih => exact ih
  | not operand ih =>
    rw [settled, waiting, Pending.nodes_append, ← List.append_assoc, ih]
    rfl
  | and left right _ ih | or left right _ ih =>
    rw [settled, waiting, Pending.nodes_append, ← List.append_assoc,
      List.append_assoc left.expression.program, ih]
    rfl

/-- Tokens between quotes only extend the phrase. -/
theorem steps_phrase (pending : List Pending) (text : Text) {tokens : List Token}
    (h : .quote ∉ tokens) :
    Conversion.Steps ⟨pending, some text⟩ tokens
      ⟨pending, some (tokens.foldl Conversion.extendPhrase text)⟩ [] := by
  induction tokens generalizing text with
  | nil => exact .nil _
  | cons token tokens ih =>
    rw [List.mem_cons, not_or] at h
    exact .cons (.extendPhrase pending text token (Ne.symm h.1)) (ih _ h.2)

/-- An operator between two operands settles what waits of the left one. -/
theorem steps_join (op : Connective) {pending waiting waiting' : List Pending}
    {tokens tokens' : List Token} {settled settled' : Program}
    (htight : ∀ entry ∈ waiting, entry.looseness ≤ (Pending.operator op.operator).looseness)
    (hloose : ∀ entry ∈ pending.head?, (Pending.operator op.operator).looseness < entry.looseness)
    (hleft : Conversion.Steps ⟨pending, none⟩ tokens ⟨waiting ++ pending, none⟩ settled)
    (hright : Conversion.Steps ⟨.operator op.operator :: pending, none⟩ tokens'
      ⟨waiting' ++ .operator op.operator :: pending, none⟩ settled') :
    Conversion.Steps ⟨pending, none⟩ (tokens ++ .operator op.operator :: tokens')
      ⟨waiting' ++ .operator op.operator :: pending, none⟩
      (settled ++ Pending.nodes waiting ++ settled') := by
  have hop := Conversion.Step.operator (waiting ++ pending) op.operator
  rw [Pending.push_append op htight hloose] at hop
  rw [List.append_assoc]
  exact hleft.append (.cons hop hright)

/-- While a derivation is read, its nodes are settled but for the operators that wait, and what
waited before it still does. -/
theorem steps {level : Level} (e : Infix level) (pending : List Pending)
    (h : level.FitsOn pending) :
    Conversion.Steps ⟨pending, none⟩ e.tokens ⟨e.waiting ++ pending, none⟩ e.settled := by
  -- on the derivation; what waits below it is arbitrary, as every operand is read with the entries
  -- of its context below
  induction e generalizing pending with
  | word text => exact (Conversion.Step.word pending text).single
  | phrase quoted =>
    have hclose : Conversion.closePhrase (quoted.tokens.foldl Conversion.extendPhrase []) =
        [Node.ofPhrase (phraseText quoted.tokens)] := if_neg quoted.nonblank
    have hsteps := (Conversion.Step.openPhrase pending).single.append
      ((steps_phrase pending [] quoted.unquoted).append
        (Conversion.Step.closePhrase pending _).single)
    rw [hclose] at hsteps
    exact hsteps
  | group inner ih =>
    have hinner : Level.FitsOn .or (.group :: pending) := by
      intro _ entry hentry
      cases hentry
      decide
    have hclose := Conversion.Step.closeGroup _ _ _
      (Pending.closeGroup?_append (group_not_mem_waiting inner) pending)
    have hsteps := (Conversion.Step.openGroup pending).single.append
      ((ih _ hinner).append hclose.single)
    rw [settled_append_waiting] at hsteps
    exact hsteps
  | ofAtom atom ih => exact ih pending (by intro hlevel; simp at hlevel)
  | not operand ih =>
    -- `NOT` settles nothing, so it may wait on another `NOT` although that binds as tightly
    have hsteps := (Conversion.Step.operator pending .not).single.append
      (ih (.operator .not :: pending) (by intro hlevel; simp at hlevel))
    rw [waiting, List.append_assoc]
    exact hsteps
  | ofNot operand ih => exact ih pending (by intro hlevel; simp at hlevel)
  | ofAnd operand ih =>
    apply ih pending
    intro _ entry hentry
    exact Nat.lt_of_succ_lt (h (by simp) entry hentry)
  | and left right ihleft ihright =>
    rw [tokens, waiting, settled, ← settled_append_waiting left, List.append_assoc]
    exact steps_join .and (looseness_le_of_mem_waiting left) (h (by simp)) (ihleft pending h)
      (ihright _ (by intro hlevel; simp at hlevel))
  | or left right ihleft ihright =>
    have hright : Level.FitsOn .and (.operator .or :: pending) := by
      intro _ entry hentry
      cases hentry
      decide
    rw [tokens, waiting, settled, ← settled_append_waiting left, List.append_assoc]
    exact steps_join .or (looseness_le_of_mem_waiting left) (h (by simp)) (ihleft pending h)
      (ihright _ hright)

/-- The end settles what still waits. -/
theorem ofTokens_tokens {level : Level} (e : Infix level) :
    Program.ofTokens e.tokens = .ok (e.settled ++ Pending.nodes e.waiting) := by
  have hsteps := steps e [] (by intro _ entry hentry; cases hentry)
  rw [List.append_nil] at hsteps
  exact hsteps.ofTokens_eq (if_neg (group_not_mem_waiting e))

end Infix

/-- The conversion agrees with the grammar: the program of a derivation's tokens is the listing of
its expression in postfix order. -/
theorem Program.ofTokens_infix {level : Level} (e : Infix level) :
    Program.ofTokens e.tokens = .ok e.expression.program := by
  rw [Infix.ofTokens_tokens, Infix.settled_append_waiting]

end BooleanSearch
