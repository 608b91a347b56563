import BooleanSearch.Query.Postfix

/-!
# The target language

A program is folded into the target language on a stack of texts. A term is prefixed by its field,
a binary operator wraps its two operands in a group, the later one first, and `NOT` sets or lifts
a leading `-`. Operands that no operator joins are dropped but for the last.
-/

namespace BooleanSearch

namespace Target

/-- The mark of a negated operand. -/
def negation : Char := '-'

/-- A term of a field. -/
def term (field text : Text) : Text := field ++ ':' :: text

/-- All entries that have a field: what an empty program finds. -/
def everything (field : Text) : Text := term field ['*']

/-- The negation of an operand. A second negation lifts the first. -/
def negate (operand : Text) : Text :=
  match operand with
  | c :: rest => if c = negation then rest else negation :: operand
  | [] => [negation]

/-- The group of two operands, of which `first` was made last. -/
def group (op : Operator) (first second : Text) : Text :=
  '(' :: first ++ ' ' :: op.keyword ++ ' ' :: second ++ [')']

/-- The operands after an operator is applied to the topmost ones. -/
def apply (op : Operator) (operands : List Text) : Except QueryError (List Text) :=
  match op, operands with
  | .not, operand :: rest => .ok (negate operand :: rest)
  | .and, first :: second :: rest => .ok (group .and first second :: rest)
  | .or, first :: second :: rest => .ok (group .or first second :: rest)
  | op, operands => .error (.underflow op op.arity operands.length)

end Target

namespace Program

/-- The operands that a program leaves on those that it starts with, the topmost first. -/
def operands (field : Text) : Program → List Text → Except QueryError (List Text)
  | [], stack => .ok stack
  | .term text :: rest, stack => operands field rest (Target.term field text :: stack)
  | .operator op :: rest, stack => do operands field rest (← Target.apply op stack)

/-- The text of a program in the target language, all terms being of one field. -/
def render (field : Text) (program : Program) : Except QueryError Text := do
  return (← operands field program []).headD (Target.everything field)

/-- How many operands a program leaves on `depth` operands. -/
def depth : Program → Nat → Except QueryError Nat
  | [], depth => .ok depth
  | .term _ :: rest, n => depth rest (n + 1)
  | .operator op :: rest, n =>
    if n < op.arity then .error (.underflow op op.arity n) else depth rest (n - op.arity + 1)

/-- How many operands rendering drops because no operator joins them to the last one. -/
def orphans (program : Program) : Except QueryError Nat := do
  return (← depth program 0) - 1

end Program

end BooleanSearch
