import BooleanSearch.Query.Operator

/-!
# Faults of a query

The ways in which a query can be malformed, with their messages.
-/

namespace BooleanSearch

/-- Why a query cannot be compiled. -/
inductive QueryError where
  /-- A `)` outside phrases closes nothing; it is the token with this index. -/
  | unmatchedClose (position : Nat)
  /-- A `(` outside phrases is still open at the end. -/
  | unmatchedOpen
  /-- An operator found fewer operands than it takes. -/
  | underflow (operator : Operator) (needed available : Nat)
  deriving DecidableEq, Repr

namespace QueryError

/-- The message of a fault. -/
def message : QueryError → Text
  | .unmatchedClose position => "unmatched ')' at token ".toList ++ Text.decimal position
  | .unmatchedOpen => "unmatched '(' at end of input".toList
  | .underflow operator needed available =>
    operator.keyword ++ " needs ".toList ++ Text.decimal needed ++
      " operand(s), found ".toList ++ Text.decimal available

/-- Whether a fault is one of unbalanced parentheses. -/
def isGrouping : QueryError → Bool
  | .unmatchedClose _ => true
  | .unmatchedOpen => true
  | .underflow _ _ _ => false

end QueryError

end BooleanSearch
