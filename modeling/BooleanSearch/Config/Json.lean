import BooleanSearch.Config.Basic
import BooleanSearch.Json.Basic

/-!
# Configurations as JSON

A configuration is an object of its three settings, any of which may be missing; other members are
ignored. It may also be given as the array of the settings in their order.
-/

namespace BooleanSearch.Config

/-- A configuration as a JSON object. -/
def toJson (config : Config) : BooleanSearch.Json :=
  .object [(fieldKey, .string config.field), (addressKey, .string config.address),
    (strictKey, .boolean config.strict)]

/-- A setting that may be missing. -/
private def setting (read : BooleanSearch.Json → Except Json.Unfit α) (default : α) :
    Option BooleanSearch.Json → Except Json.Unfit α
  | some value => read value
  | none => .ok default

/-- The configuration of three settings that may be missing. -/
private def ofSettings (field address strict : Option BooleanSearch.Json) :
    Except Json.Unfit Config := do
  let default : Config := {}
  let field ← setting Json.text default.field field
  let address ← setting Json.text default.address address
  let strict ← setting Json.truth default.strict strict
  return ⟨field, address, strict⟩

/-- The configuration that a JSON value stands for. -/
def ofJson : BooleanSearch.Json → Except Json.Unfit Config
  | .object members =>
    ofSettings (Json.member? members fieldKey) (Json.member? members addressKey)
      (Json.member? members strictKey)
  | .array items => do
    let config ← ofSettings items[0]? items[1]? items[2]?
    if items.length ≤ 3 then return config
    else throw (.length items.length "fewer elements in array".toList)
  | value => Json.misfit value "struct Config"

end BooleanSearch.Config
