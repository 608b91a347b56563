/-!
# Texts

A text is the list of its characters. Everything that the library reads, holds or writes is a
`Text`, so its laws are laws of lists.
-/

namespace BooleanSearch

/-- A text, as the list of its characters. -/
abbrev Text := List Char

namespace Text

/-- The decimal digits of a number, without leading zeros. -/
def decimal (n : Nat) : Text := Nat.toDigits 10 n

/-- The hexadecimal digits of a number in lower case, without leading zeros. -/
def hexadecimal (n : Nat) : Text := Nat.toDigits 16 n

/-- The value of a hexadecimal digit of either case. -/
def hexValue? (c : Char) : Option Nat :=
  if '0' ≤ c ∧ c ≤ '9' then some (c.toNat - '0'.toNat)
  else if 'a' ≤ c ∧ c ≤ 'f' then some (c.toNat - 'a'.toNat + 10)
  else if 'A' ≤ c ∧ c ≤ 'F' then some (c.toNat - 'A'.toNat + 10)
  else none

/-- The number that a run of decimal digits stands for; any other character counts as zero. -/
def ofDecimal (digits : Text) : Nat :=
  digits.foldl (fun n c => 10 * n + (c.toNat - '0'.toNat)) 0

/-- Capital ASCII letters in lower case, all other characters as they are. -/
def lower (t : Text) : Text := t.map Char.toLower

/-- The text cut at each occurrence of a character; always at least one piece. -/
def splitAt (separator : Char) : Text → List Text
  | [] => [[]]
  | c :: cs =>
    if c = separator then [] :: splitAt separator cs
    else match splitAt separator cs with
      | [] => [[c]]
      | piece :: pieces => (c :: piece) :: pieces

/-- The text cut at the last occurrence of a character, which is left out; `none` if there is
none. -/
def splitLast? (separator : Char) : Text → Option (Text × Text)
  | [] => none
  | c :: cs =>
    match splitLast? separator cs with
    | some (before, after) => some (c :: before, after)
    | none => if c = separator then some ([], cs) else none

/-- The text cut at the first occurrence of a character, which is left out; `none` if there is
none. -/
def splitFirst? (separator : Char) (t : Text) : Option (Text × Text) :=
  match t.dropWhile (· ≠ separator) with
  | [] => none
  | _ :: after => some (t.takeWhile (· ≠ separator), after)

end Text

end BooleanSearch
