import BooleanSearch.Config.Basic
import BooleanSearch.Yaml.Node
import BooleanSearch.Yaml.Rendering

/-!
# Configurations as YAML

A configuration is kept as a mapping of its three settings. Any of them may be missing, and other
entries are ignored; none of them may be given twice.
-/

namespace BooleanSearch

namespace Yaml

/-- The tag of truth values. -/
def truthTag : Text := "tag:yaml.org,2002:bool".toList

/-- The text that a node of a document stands for: that of any scalar. -/
def Node.text? (root node : Node) : Option Text :=
  match root.resolve? node with
  | some (.scalar _ _ text) => some text
  | _ => none

/-- The truth value that a text reads as. -/
def truthValue? (t : Text) : Option Bool :=
  if t = "true".toList ∨ t = "True".toList ∨ t = "TRUE".toList then some true
  else if t = "false".toList ∨ t = "False".toList ∨ t = "FALSE".toList then some false
  else none

/-- The truth value that a node of a document stands for: that of a plain scalar, or of a block
that is tagged as one. -/
def Node.truth? (root node : Node) : Option Bool :=
  match root.resolve? node with
  | some (.scalar tag style text) =>
    if style = .plain ∨ (style = .literal ∧ tag = some truthTag) then truthValue? text else none
  | _ => none

end Yaml

namespace Config

/-- The settings of a file, as far as they are given. -/
structure Given where
  field : Option Text := none
  address : Option Text := none
  strict : Option Bool := none
  deriving DecidableEq, Repr

/-- The configuration with the settings that are given; all others have their defaults. -/
def ofGiven (given : Given) : Config :=
  let default : Config := {}
  ⟨given.field.getD default.field, given.address.getD default.address,
    given.strict.getD default.strict⟩

/-- The settings of a file with a further entry of its mapping. -/
def Given.add? (root : Yaml.Node) (given : Given) (key value : Yaml.Node) : Option Given := do
  let name ← root.text? key
  if name = fieldKey then
    if given.field.isSome then none else return { given with field := some (← root.text? value) }
  else if name = addressKey then
    if given.address.isSome then none
    else return { given with address := some (← root.text? value) }
  else if name = strictKey then
    if given.strict.isSome then none
    else return { given with strict := some (← root.truth? value) }
  else return given

/-- The settings of the entries of a mapping. -/
def Given.addAll? (root : Yaml.Node) : Given → List (Yaml.Node × Yaml.Node) → Option Given
  | given, [] => some given
  | given, (key, value) :: entries => do addAll? root (← given.add? root key value) entries

/-- The settings of a document: those of a mapping, or none if the document is left empty. -/
def Given.ofDocument? : Option Yaml.Node → Option Given
  | none => some {}
  | some root =>
    match root.resolve? root with
    | some (.mapping entries) => Given.addAll? root {} entries
    | some (.scalar _ .plain []) => some {}
    | _ => none

/-- The settings of a YAML text; `none` if it is malformed. -/
def Given.ofYaml? (t : Text) : Option Given := do Given.ofDocument? (← Yaml.document? t)

/-- The configuration of a YAML text; `none` if it is malformed. -/
def ofYaml? (t : Text) : Option Config := (Given.ofYaml? t).map ofGiven

/-- The configuration as a YAML text. -/
def toYaml (config : Config) : Text :=
  Yaml.renderEntry fieldKey (Yaml.renderText config.field) ++
  Yaml.renderEntry addressKey (Yaml.renderText config.address) ++
  Yaml.renderEntry strictKey (Yaml.renderTruth config.strict)

end Config

end BooleanSearch
