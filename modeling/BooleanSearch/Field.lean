import BooleanSearch.Text.Basic

/-!
# Field names

A field name becomes the prefix of every term, so it is a single bare word. A leading `-` would
read as a negation.
-/

namespace BooleanSearch

/-- The field of a term when no other is chosen. -/
def defaultField : Text := "text".toList

/-- A character that a field name may start with. -/
def isFieldStart (c : Char) : Bool := c.isAlphanum || c = '_'

/-- A character that a field name may go on with. -/
def isFieldRest (c : Char) : Bool := c.isAlphanum || c = '_' || c = '.'

/-- Whether a text is a field name: a letter, a digit or `_`, then any of these and `.`. -/
def isField : Text → Bool
  | [] => false
  | c :: cs => isFieldStart c && cs.all isFieldRest

end BooleanSearch
