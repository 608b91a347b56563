import BooleanSearch.Field
import BooleanSearch.Proofs.Query.Reduction
import BooleanSearch.Proofs.Query.Tokens

/-!
# Writing expressions in the target language

The texts of the target language for a field `f` are

    e ::= f:"literal" | f:wildcard | -e | (e AND e) | (e OR e)

where a literal is not empty and holds no double quote, and a wildcard holds a `*` but no ASCII
white space, parenthesis or double quote. A reading of a text is an expression of such terms that
is written as the text. There is at most one reading, for at most one field: the field ends at the
first `:`, a literal at the next double quote, and a wildcard where a character that it cannot hold
or the text ends.
-/

namespace BooleanSearch

/-- The terms of the target language. -/
inductive Target.IsTerm : Text → Prop
  | literal (text : Text) (nonempty : text ≠ []) (unquoted : '"' ∉ text) :
    IsTerm ('"' :: text ++ ['"'])
  | wildcard (text : Text) (starred : '*' ∈ text)
    (unbroken : ∀ c ∈ text, Token.breaks c = false) : IsTerm text

namespace Expression

/-- All terms are terms of the target language. -/
def Proper : Expression → Prop
  | .term text => Target.IsTerm text
  | .not operand => operand.Proper
  | .join _ left right => left.Proper ∧ right.Proper

/-- The text of an expression in the target language, all terms being of one field. -/
def write (field : Text) : Expression → Text
  | .term text => field ++ ':' :: text
  | .not operand => '-' :: operand.write field
  | .join op left right =>
    '(' :: left.write field ++ ' ' :: op.operator.keyword ++ ' ' :: right.write field ++ [')']

/-- An expression is a reading of a text for a field. -/
def Reads (field text : Text) (e : Expression) : Prop := e.Proper ∧ e.write field = text

end Expression

namespace Target

/-- A term in double quotes holds a character that no wildcard holds. -/
theorem literal_append_ne {a b rest rest' : Text} (hstar : '*' ∈ b)
    (hfree : ∀ c ∈ b, Token.breaks c = false) : '"' :: a ++ rest ≠ b ++ rest' := by
  cases b with
  | nil => cases hstar
  | cons c b =>
    intro h
    have hc : '"' = c := (List.cons.inj h).1
    have hbreak := hfree c List.mem_cons_self
    rw [← hc] at hbreak
    exact absurd hbreak (by decide)

/-- A term ends where a character that no word holds follows it. -/
theorem IsTerm.append_inj {a b rest rest' : Text} (ha : IsTerm a) (hb : IsTerm b)
    (hrest : ∀ c ∈ rest.head?, Token.breaks c = true)
    (hrest' : ∀ c ∈ rest'.head?, Token.breaks c = true) (h : a ++ rest = b ++ rest') :
    a = b ∧ rest = rest' := by
  cases ha with
  | literal a _ ha =>
    cases hb with
    | literal b _ hb =>
      simp only [List.cons_append, List.append_assoc, List.cons.injEq, true_and,
        List.nil_append] at h
      obtain ⟨rfl, hrest⟩ := Text.append_cons_inj ha hb h
      exact ⟨rfl, hrest⟩
    | wildcard _ hstar hfree =>
      rw [List.append_assoc] at h
      exact absurd h (literal_append_ne hstar hfree)
  | wildcard _ hstar hfree =>
    cases hb with
    | literal b _ hb =>
      rw [List.append_assoc] at h
      exact absurd h.symm (literal_append_ne hstar hfree)
    | wildcard _ _ hfree' => exact Text.append_inj_of_stop hfree hfree' hrest hrest' h

end Target

/-- A field name holds no `:`. -/
theorem colon_not_mem_of_isField {field : Text} (h : isField field = true) : ':' ∉ field := by
  cases field with
  | nil => cases h
  | cons c field =>
    rw [isField, Bool.and_eq_true, List.all_eq_true] at h
    intro hmem
    rcases List.mem_cons.mp hmem with rfl | hmem
    · exact absurd h.1 (by decide)
    · exact absurd (h.2 ':' hmem) (by decide)

/-- A field name starts neither like a negation nor like a group. -/
theorem exists_cons_of_isField {field : Text} (h : isField field = true) :
    ∃ c rest, field = c :: rest ∧ c ≠ '-' ∧ c ≠ '(' := by
  cases field with
  | nil => cases h
  | cons c rest =>
    rw [isField, Bool.and_eq_true] at h
    refine ⟨c, rest, rfl, ?_, ?_⟩ <;> rintro rfl <;> exact absurd h.1 (by decide)

namespace Expression

/-- The keyword of a connective, followed by a space, tells which connective it is. -/
theorem keyword_append_inj {op op' : Connective} {a b : Text}
    (h : op.operator.keyword ++ ' ' :: a = op'.operator.keyword ++ ' ' :: b) :
    op = op' ∧ a = b := by
  cases op <;> cases op' <;> simp_all [Connective.operator, Operator.keyword]

/-- A term starts neither like a negation nor like a group. -/
theorem write_term_append_ne {field : Text} (hfield : isField field = true) (text rest : Text)
    {c : Char} {tail : Text} (h : (term text).write field ++ rest = c :: tail) :
    c ≠ '-' ∧ c ≠ '(' := by
  obtain ⟨d, name, rfl, hne⟩ := exists_cons_of_isField hfield
  have hd : d = c := (List.cons.inj h).1
  rw [← hd]
  exact hne

/-- Unique reading: where a written expression is followed by the end of the text or by a
character that no word holds, the text tells the field, the expression and where it ends. -/
theorem write_append_inj {field field' : Text} (hfield : isField field = true)
    (hfield' : isField field' = true) {e e' : Expression} (he : e.Proper) (he' : e'.Proper)
    {rest rest' : Text} (hrest : ∀ c ∈ rest.head?, Token.breaks c = true)
    (hrest' : ∀ c ∈ rest'.head?, Token.breaks c = true)
    (h : e.write field ++ rest = e'.write field' ++ rest') :
    field = field' ∧ e = e' ∧ rest = rest' := by
  -- on the first expression; the first character tells whether the second has the same shape
  induction e generalizing e' rest rest' with
  | term text =>
    cases e' with
    | term text' =>
      simp only [write, List.append_assoc, List.cons_append] at h
      obtain ⟨rfl, htext⟩ := Text.append_cons_inj (colon_not_mem_of_isField hfield)
        (colon_not_mem_of_isField hfield') h
      obtain ⟨rfl, rfl⟩ := Target.IsTerm.append_inj he he' hrest hrest' htext
      exact ⟨rfl, rfl, rfl⟩
    | not operand => exact absurd rfl (write_term_append_ne hfield text rest h).1
    | join op left right => exact absurd rfl (write_term_append_ne hfield text rest h).2
  | not operand ih =>
    cases e' with
    | term text' => exact absurd rfl (write_term_append_ne hfield' text' rest' h.symm).1
    | not operand' =>
      obtain ⟨rfl, rfl, rfl⟩ := ih he (show operand'.Proper from he') hrest hrest'
        (List.cons.inj h).2
      exact ⟨rfl, rfl, rfl⟩
    | join op left right => cases h
  | join op left right ihleft ihright =>
    cases e' with
    | term text' => exact absurd rfl (write_term_append_ne hfield' text' rest' h.symm).2
    | not operand' => cases h
    | join op' left' right' =>
      simp only [write, List.append_assoc, List.cons_append, List.cons.injEq, true_and] at h
      -- the left operand ends at the space before the keyword, the right one at the `)`
      obtain ⟨-, rfl, hop⟩ := ihleft he.1 he'.1 (by simp; decide) (by simp; decide) h
      obtain ⟨rfl, hright⟩ := keyword_append_inj (List.cons.inj hop).2
      obtain ⟨rfl, rfl, hrest⟩ := ihright he.2 he'.2 (by simp; decide) (by simp; decide) hright
      exact ⟨rfl, rfl, (List.cons.inj hrest).2⟩

end Expression

end BooleanSearch
