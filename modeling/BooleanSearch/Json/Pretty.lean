import BooleanSearch.Json.Basic

/-!
# JSON as text

A JSON value is written over several lines, each level set in by two spaces. Control characters
are escaped, and all other characters stand for themselves.
-/

namespace BooleanSearch.Json

/-- One character of a string. -/
def escapedChar (c : Char) : Text :=
  match c with
  | '"' => ['\\', '"']
  | '\\' => ['\\', '\\']
  | '\x08' => ['\\', 'b']
  | '\x0c' => ['\\', 'f']
  | '\n' => ['\\', 'n']
  | '\x0d' => ['\\', 'r']
  | '\t' => ['\\', 't']
  | c =>
    if c.toNat < 16 then ['\\', 'u', '0', '0', '0'] ++ Text.hexadecimal c.toNat
    else if c.toNat < 32 then ['\\', 'u', '0', '0'] ++ Text.hexadecimal c.toNat
    else [c]

/-- A string in its quotes. -/
def stringText (t : Text) : Text := '"' :: t.flatMap escapedChar ++ ['"']

/-- A number as it was written. -/
def Numeral.text (n : Numeral) : Text :=
  (if n.negative then ['-'] else []) ++ n.whole ++
    (match n.fraction with
      | some digits => '.' :: digits
      | none => []) ++
    (match n.exponent with
      | some (true, digits) => 'e' :: '-' :: digits
      | some (false, digits) => 'e' :: digits
      | none => [])

/-- A new line at a level. -/
def newLine (level : Nat) : Text := '\n' :: List.replicate (2 * level) ' '

mutual

/-- A value that stands at a level. -/
def prettyAt (level : Nat) : Json → Text
  | .null => "null".toList
  | .boolean true => "true".toList
  | .boolean false => "false".toList
  | .number n => n.text
  | .string t => stringText t
  | .array [] => ['[', ']']
  | .array (item :: items) =>
    '[' :: newLine (level + 1) ++ prettyAt (level + 1) item ++ prettyItems (level + 1) items ++
      newLine level ++ [']']
  | .object [] => ['\x7b', '\x7d']
  | .object ((key, value) :: members) =>
    '\x7b' :: newLine (level + 1) ++ stringText key ++ [':', ' '] ++ prettyAt (level + 1) value ++
      prettyMembers (level + 1) members ++ newLine level ++ ['\x7d']

/-- The items of an array after the first. -/
def prettyItems (level : Nat) : List Json → Text
  | [] => []
  | item :: items => ',' :: newLine level ++ prettyAt level item ++ prettyItems level items

/-- The members of an object after the first. -/
def prettyMembers (level : Nat) : List (Text × Json) → Text
  | [] => []
  | (key, value) :: members =>
    ',' :: newLine level ++ stringText key ++ [':', ' '] ++ prettyAt level value ++
      prettyMembers level members

end

/-- The text of a value. -/
def pretty (value : Json) : Text := prettyAt 0 value

end BooleanSearch.Json
