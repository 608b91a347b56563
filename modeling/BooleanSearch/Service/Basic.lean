import BooleanSearch.Config.Basic
import BooleanSearch.Query.Render
import BooleanSearch.Service.Error

/-!
# The service

Queries are compiled under a configuration. No call changes anything, so the answer to a call
hangs on the configuration and its arguments alone.
-/

namespace BooleanSearch

/-- The compiler of queries under a configuration. -/
structure Service where
  config : Config
  deriving DecidableEq, Repr

namespace Service

/-- The tokens of a query. -/
def tokens (_ : Service) (query : Text) : List Token := Token.ofQuery query

/-- The program of a query. -/
def program (_ : Service) (query : Text) : Except ServiceError Program :=
  (Program.ofQuery query).mapError .query

/-- The text of a query in the target language, for the chosen field or else the configured one.
The field is checked first, then the grouping, and in strict mode the operands. -/
def compile (service : Service) (query : Text) (field : Option Text) :
    Except ServiceError Text := do
  let field := field.getD service.config.field
  if !isField field then throw (.field field)
  let program ← service.program query
  if service.config.strict then
    let orphans ← program.orphans.mapError .query
    if 0 < orphans then throw (.orphans orphans)
  (program.render field).mapError .query

end Service

end BooleanSearch
