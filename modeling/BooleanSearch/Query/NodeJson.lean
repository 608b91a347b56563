import BooleanSearch.Json.Basic
import BooleanSearch.Query.Postfix

/-!
# Programs as JSON

A node is written as an object with its kind and its value, and a program as the array of its
nodes. A node may also be given as the array of kind and value.
-/

namespace BooleanSearch

namespace Operator

/-- The operators by their keywords. -/
def byKeyword : List (Text × Operator) :=
  [(keyword .and, .and), (keyword .or, .or), (keyword .not, .not)]

end Operator

namespace Node

/-- The two kinds of nodes. -/
inductive Kind where
  | term
  | operator
  deriving DecidableEq, Repr

/-- The kinds by their names. -/
def Kind.byName : List (Text × Kind) :=
  [("term".toList, .term), ("op".toList, .operator)]

private def kindKey : Text := "kind".toList
private def valueKey : Text := "value".toList

/-- What stands for a node in JSON. -/
private def expected : String := "adjacently tagged enum PostfixNode"

/-- A node as a JSON object. -/
def toJson : Node → Json
  | .term text => .object [(kindKey, .string "term".toList), (valueKey, .string text)]
  | .operator op => .object [(kindKey, .string "op".toList), (valueKey, .string op.keyword)]

/-- The node of a kind with this value. -/
def ofValue (kind : Kind) (value : Json) : Except Json.Unfit Node :=
  match kind with
  | .term => .term <$> value.text
  | .operator => .operator <$> value.alternative Operator.byKeyword

/-- The node that a JSON value stands for. -/
def ofJson (json : Json) : Except Json.Unfit Node :=
  match json with
  | .object members =>
    match Json.member? members kindKey with
    | none => .error (.missing kindKey)
    | some kind => do
      let kind ← kind.alternative Kind.byName
      match Json.member? members valueKey with
      | none => .error (.missing valueKey)
      | some value => ofValue kind value
  | .array [] => .error (.length 0 expected.toList)
  | .array (kind :: rest) => do
    let kind ← kind.alternative Kind.byName
    match rest with
    | [] => .error (.length 1 expected.toList)
    | value :: more =>
      let node ← ofValue kind value
      if more.isEmpty then .ok node
      else .error (.length (more.length + 2) "fewer elements in array".toList)
  | value => Json.misfit value expected

end Node

namespace Program

/-- A program as a JSON array. -/
def toJson (program : Program) : Json := .array (program.map Node.toJson)

/-- The program that a JSON value stands for. -/
def ofJson : Json → Except Json.Unfit Program
  | .array items => items.mapM Node.ofJson
  | value => Json.misfit value "a sequence"

end Program

end BooleanSearch
