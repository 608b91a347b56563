import BooleanSearch.Text.Printable
import BooleanSearch.Text.Extender

/-!
# Quoted texts

A text between double quotes in which every character can be seen: a few control characters have
a short escape, and all other characters that do not show on their own are written by number.
-/

namespace BooleanSearch.Text

/-- One character of a quoted text. -/
def quotedChar (c : Char) : Text :=
  match c with
  | '\x00' => ['\\', '0']
  | '\t' => ['\\', 't']
  | '\x0d' => ['\\', 'r']
  | '\n' => ['\\', 'n']
  | '"' => ['\\', '"']
  | '\\' => ['\\', '\\']
  | c =>
    if isExtender c || !isPrintable c then
      ['\\', 'u', '\x7b'] ++ hexadecimal c.toNat ++ ['\x7d']
    else [c]

/-- A text in double quotes, with all that does not show escaped. -/
def quoted (t : Text) : Text := '"' :: t.flatMap quotedChar ++ ['"']

end BooleanSearch.Text
