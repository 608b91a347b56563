import BooleanSearch.Query.Error
import BooleanSearch.Text.Causes
import BooleanSearch.Text.Quoted

/-!
# Faults of the service

The ways in which the service can refuse a request, with their messages.
-/

namespace BooleanSearch

/-- Why the service refuses a request. -/
inductive ServiceError where
  /-- The query is malformed. -/
  | query (fault : QueryError)
  /-- This many operands are joined to the rest by no operator. -/
  | orphans (count : Nat)
  /-- A text is no field name. -/
  | field (name : Text)
  /-- Something beyond the request went wrong. -/
  | unexpected (causes : Causes)
  deriving DecidableEq, Repr

namespace ServiceError

/-- The message of a fault. -/
def message : ServiceError → Text
  | .query fault => "malformed query: ".toList ++ fault.message
  | .orphans count =>
    Text.decimal count ++
      " term(s) are not joined to the rest of the query by any operator".toList
  | .field name => "invalid field name ".toList ++ Text.quoted name
  | .unexpected causes => "unexpected error: ".toList ++ causes.report

/-- Whether the request is to blame. -/
def isBadInput : ServiceError → Bool
  | .unexpected _ => false
  | _ => true

/-- The texts of a fault and of what caused it. -/
def causes (fault : ServiceError) : Causes :=
  fault.message ::
    match fault with
    | .query cause => [cause.message]
    | .unexpected causes => causes
    | _ => []

end ServiceError

end BooleanSearch
