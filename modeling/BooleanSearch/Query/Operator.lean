import BooleanSearch.Text.Basic

/-!
# Operators

The three Boolean operators with their keywords and the number of operands that each takes.
-/

namespace BooleanSearch

/-- A Boolean operator of the query language. -/
inductive Operator where
  | and
  | or
  | not
  deriving DecidableEq, Repr

namespace Operator

/-- The keyword of an operator. -/
def keyword : Operator → Text
  | .and => ['A', 'N', 'D']
  | .or => ['O', 'R']
  | .not => ['N', 'O', 'T']

/-- The operator with this keyword. Keywords are in capitals: `and` is an ordinary word. -/
def ofKeyword? (word : Text) : Option Operator :=
  if word = ['A', 'N', 'D'] then some .and
  else if word = ['O', 'R'] then some .or
  else if word = ['N', 'O', 'T'] then some .not
  else none

theorem ofKeyword?_keyword (op : Operator) : ofKeyword? op.keyword = some op := by
  cases op <;> rfl

theorem keyword_of_ofKeyword? {word : Text} {op : Operator} (h : ofKeyword? word = some op) :
    op.keyword = word := by
  unfold ofKeyword? at h
  split at h
  · next hw => cases h; exact hw.symm
  · split at h
    · next hw => cases h; exact hw.symm
    · split at h
      · next hw => cases h; exact hw.symm
      · cases h

/-- The number of operands that an operator takes. -/
def arity : Operator → Nat
  | .not => 1
  | .and => 2
  | .or => 2

end Operator

end BooleanSearch
