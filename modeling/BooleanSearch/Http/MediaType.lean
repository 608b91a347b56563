import BooleanSearch.Text.Basic

/-!
# Media types

The type of a request body: a type and a subtype, then parameters. Only whether a type is that of
a JSON text matters here: `application/json`, or a subtype that ends in `+json`.
-/

namespace BooleanSearch.MediaType

/-- A character of a name. -/
def isToken (c : Char) : Bool :=
  c.isAlphanum || "!#$%&'*+-.^_\x60|~".toList.contains c

/-- A character of a quoted value. -/
def isQuotable (c : Char) : Bool := 31 < c.toNat && c.toNat != 127

/-- What may stand next in the parameters of a type. -/
inductive ParameterState where
  /-- A name, of which `some` is read. -/
  | name (some : Bool)
  /-- A value, of which `some` is read. -/
  | value (some : Bool)
  /-- A quoted value, of which `some` is read. -/
  | quoted (some : Bool)
  /-- The end of a parameter. -/
  | done
  deriving DecidableEq, Repr

/-- Whether a text ends the parameters of a type. A semicolon may stand at the end. -/
def parametersValid : ParameterState → Text → Bool
  | .name false, [] => true
  | .name true, [] => false
  | .value _, [] => true
  | .quoted _, [] => false
  | .done, [] => true
  | .name started, c :: t =>
    if c = ' ' ∧ !started then parametersValid (.name false) t
    else if isToken c then parametersValid (.name true) t
    else c = '=' && started && parametersValid (.value false) t
  | .value started, c :: t =>
    if c = '"' ∧ !started then parametersValid (.quoted false) t
    else if isToken c then parametersValid (.value true) t
    else c = ';' && started && parametersValid (.name false) t
  | .quoted started, c :: t =>
    if c = '"' ∧ started then parametersValid .done t
    else isQuotable c && parametersValid (.quoted true) t
  | .done, c :: t =>
    if c = ';' then parametersValid (.name false) t
    else c = ' ' && parametersValid .done t

/-- The subtype of a JSON text, in lower case: `json`, or a name with the suffix `json`. -/
def isJsonSubtype (subtype : Text) : Bool :=
  let json : Text := ['j', 's', 'o', 'n']
  match Text.splitLast? '+' subtype with
  | some (c :: name, suffix) => c :: name == json || suffix == json
  | _ => subtype == json

/-- Whether a type is that of a JSON text. -/
def isJson (t : Text) : Bool :=
  match t.dropWhile isToken with
  | '/' :: rest =>
    let subtype := rest.takeWhile isToken
    let valid := match rest.dropWhile isToken with
      | [] => true
      | c :: parameters => c = ';' && !subtype.isEmpty && parametersValid (.name false) parameters
    valid && Text.lower (t.takeWhile isToken) == "application".toList &&
      isJsonSubtype (Text.lower subtype)
  | _ => false

end BooleanSearch.MediaType
