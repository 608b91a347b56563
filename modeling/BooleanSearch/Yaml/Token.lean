import BooleanSearch.Text.Basic

/-!
# The words of YAML

A YAML text is read as a list of words. Some of them are not written: they stand where the layout
of the text opens or closes a collection, or makes a key of what was read.
-/

namespace BooleanSearch.Yaml

/-- How a scalar is written. -/
inductive Style where
  | plain
  | singleQuoted
  | doubleQuoted
  | literal
  | folded
  deriving DecidableEq, Repr

/-- A word of a YAML text. -/
inductive Token where
  /-- The directive of the version. -/
  | version (major minor : Nat)
  /-- The directive that gives a tag handle its meaning. -/
  | tagPrefix (handle meaning : Text)
  | documentStart
  | documentEnd
  /-- The layout opens a sequence. -/
  | blockSequence
  /-- The layout opens a mapping. -/
  | blockMapping
  /-- The layout closes a collection. -/
  | blockEnd
  | flowSequence
  | flowSequenceEnd
  | flowMapping
  | flowMappingEnd
  /-- The dash before an item of a sequence. -/
  | item
  | comma
  /-- What follows is a key. -/
  | key
  /-- What follows is the value of a key. -/
  | value
  | alias (name : Text)
  | anchor (name : Text)
  | tag (handle name : Text)
  | scalar (style : Style) (text : Text)
  deriving DecidableEq, Repr

end BooleanSearch.Yaml
