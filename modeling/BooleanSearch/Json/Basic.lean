import BooleanSearch.Json.Numeral
import BooleanSearch.Text.Quoted

/-!
# JSON values

JSON values and the ways in which a value can fail to be what a reader expects.
-/

namespace BooleanSearch

/-- A JSON value. The members of an object are kept in their order. -/
inductive Json where
  | null
  | boolean (value : Bool)
  | number (value : Json.Numeral)
  | string (text : Text)
  | array (items : List Json)
  | object (members : List (Text × Json))
  deriving Inhabited

namespace Json

/-- The value of a member of an object. -/
def member? (members : List (Text × Json)) (key : Text) : Option Json :=
  (members.find? fun entry => entry.1 == key).map Prod.snd

/-- What a value is called where it does not fit. -/
def described : Json → Text
  | .null => "null".toList
  | .boolean true => "boolean \x60true\x60".toList
  | .boolean false => "boolean \x60false\x60".toList
  | .number n => n.described?.getD "number".toList
  | .string text => "string ".toList ++ Text.quoted text
  | .array _ => "sequence".toList
  | .object _ => "map".toList

/-- Why a value is not what a reader expects. -/
inductive Unfit where
  /-- Another kind of value, described, stands in its place. -/
  | kind (found expected : Text)
  /-- An object has not exactly one member. -/
  | members
  /-- An array has the wrong number of items. -/
  | length (found : Nat) (expected : Text)
  /-- A member is missing. -/
  | missing (key : Text)
  /-- A member stands twice. -/
  | duplicate (key : Text)
  /-- A name is none of those that are known. -/
  | name (found : Text) (known : List Text)
  deriving DecidableEq, Repr

namespace Unfit

private def marked (t : Text) : Text := '\x60' :: t ++ ['\x60']

private def alternatives : List Text → Text
  | [first, second] => marked first ++ " or ".toList ++ marked second
  | known => "one of ".toList ++ [',', ' '].intercalate (known.map marked)

/-- The message of a misfit. -/
def message : Unfit → Text
  | .kind found expected => "invalid type: ".toList ++ found ++ ", expected ".toList ++ expected
  | .members => "invalid value: map, expected map with a single key".toList
  | .length found expected =>
    "invalid length ".toList ++ Text.decimal found ++ ", expected ".toList ++ expected
  | .missing key => "missing field ".toList ++ marked key
  | .duplicate key => "duplicate field ".toList ++ marked key
  | .name found known =>
    "unknown variant ".toList ++ marked found ++ ", expected ".toList ++ alternatives known

end Unfit

/-- A value where something else is expected. -/
def misfit (value : Json) (expected : String) : Except Unfit α :=
  .error (.kind value.described expected.toList)

/-- The text of a string. -/
def text : Json → Except Unfit Text
  | .string text => .ok text
  | value => misfit value "a string"

/-- The truth value of a Boolean. -/
def truth : Json → Except Unfit Bool
  | .boolean value => .ok value
  | value => misfit value "a boolean"

/-- The meaning of a name. -/
def meaning (known : List (Text × α)) (name : Text) : Except Unfit α :=
  match known.find? fun entry => entry.1 == name with
  | some (_, meaning) => .ok meaning
  | none => .error (.name name (known.map Prod.fst))

/-- One of several alternatives, given by its name: as a string, or as the only key of an object
whose value is null. -/
def alternative (known : List (Text × α)) : Json → Except Unfit α
  | .string name => meaning known name
  | .object [(name, value)] => do
    let choice ← meaning known name
    match value with
    | .null => .ok choice
    | value => misfit value "unit"
  | .object _ => .error .members
  | value => misfit value "string or map"

end Json

end BooleanSearch
