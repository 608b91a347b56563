import BooleanSearch.Json.Basic

/-!
# The words of JSON

Readers for the white space, the strings and the numbers of a JSON text. Each takes what it reads
from the front of a text and returns the rest; `none` means that the text is malformed.
-/

namespace BooleanSearch.Json

/-- The white space of JSON. -/
def isSpace (c : Char) : Bool := c = ' ' || c = '\n' || c = '\t' || c = '\x0d'

/-- A text without the white space in front. -/
def skipSpace (t : Text) : Text := t.dropWhile isSpace

/-- The rest of a text that starts with this word. -/
def afterWord? : Text → Text → Option Text
  | [], t => some t
  | _ :: _, [] => none
  | c :: word, d :: t => if c = d then afterWord? word t else none

/-- What the surrogates of a string that are not paired are read as. -/
inductive Unpaired where
  /-- The string is malformed. -/
  | refused
  /-- They are replaced. -/
  | replaced
  deriving DecidableEq, Repr

/-- Where the reader of a string stands between two characters. -/
inductive StringState where
  | plain
  /-- After a backslash. -/
  | escape
  /-- Within a number of four digits, after `count` digits of this value; `high` is the first half
  of a pair. -/
  | number (high : Option Nat) (count value : Nat)
  /-- After the first half of a pair. -/
  | second (high : Nat)
  /-- After the backslash that follows the first half of a pair. -/
  | secondEscape (high : Nat)
  deriving DecidableEq, Repr

/-- The characters of the short escapes. -/
def escapeValue? : Char → Option Char
  | '"' => some '"'
  | '\\' => some '\\'
  | '/' => some '/'
  | 'b' => some '\x08'
  | 'f' => some '\x0c'
  | 'n' => some '\n'
  | 'r' => some '\x0d'
  | 't' => some '\t'
  | _ => none

/-- The character that stands for a surrogate without its partner. -/
def replacement : Char := '\ufffd'

/-- What follows an escape by number: the text it adds, and where the reader stands then. -/
def afterNumber? (unpaired : Unpaired) (high : Option Nat) (value : Nat) :
    Option (Text × StringState) :=
  match unpaired, high with
  | .replaced, _ =>
    let isSurrogate := 0xD800 ≤ value ∧ value ≤ 0xDFFF
    some ([if isSurrogate then replacement else Char.ofNat value], .plain)
  | .refused, none =>
    if 0xDC00 ≤ value ∧ value ≤ 0xDFFF then none
    else if 0xD800 ≤ value ∧ value ≤ 0xDBFF then some ([], .second value)
    else some ([Char.ofNat value], .plain)
  | .refused, some high =>
    if 0xDC00 ≤ value ∧ value ≤ 0xDFFF then
      some ([Char.ofNat ((high - 0xD800) * 0x400 + (value - 0xDC00) + 0x10000)], .plain)
    else none

/-- The text of a string after its opening quote, and the rest after the closing one. -/
def stringRest? (unpaired : Unpaired) : StringState → Text → Option (Text × Text)
  | _, [] => none
  | .plain, c :: rest =>
    if c = '"' then some ([], rest)
    else if c = '\\' then stringRest? unpaired .escape rest
    else if c.toNat < 32 then none
    else (stringRest? unpaired .plain rest).map fun (t, rest) => (c :: t, rest)
  | .escape, c :: rest =>
    if c = 'u' then stringRest? unpaired (.number none 0 0) rest
    else match escapeValue? c with
      | none => none
      | some d => (stringRest? unpaired .plain rest).map fun (t, rest) => (d :: t, rest)
  | .number high count value, c :: rest =>
    match Text.hexValue? c with
    | none => none
    | some digit =>
      let value := 16 * value + digit
      if count < 3 then stringRest? unpaired (.number high (count + 1) value) rest
      else match afterNumber? unpaired high value with
        | none => none
        | some (added, state) =>
          (stringRest? unpaired state rest).map fun (t, rest) => (added ++ t, rest)
  | .second high, c :: rest =>
    if c = '\\' then stringRest? unpaired (.secondEscape high) rest else none
  | .secondEscape high, c :: rest =>
    if c = 'u' then stringRest? unpaired (.number (some high) 0 0) rest else none

/-- The digits at the front of a text, of which there must be one. -/
def someDigits? (t : Text) : Option (Text × Text) :=
  match t.takeWhile Char.isDigit with
  | [] => none
  | digits => some (digits, t.dropWhile Char.isDigit)

/-- The digits before the point: a single zero, or digits that start with another one. -/
def wholeDigits? (t : Text) : Option (Text × Text) :=
  match someDigits? t with
  | some ('0' :: _ :: _, _) => none
  | result => result

/-- The exponent of a number, if there is one. -/
def exponent? : Text → Option (Option (Bool × Text) × Text)
  | [] => some (none, [])
  | c :: t =>
    if c = 'e' ∨ c = 'E' then
      let (negative, t) := match t with
        | '-' :: t => (true, t)
        | '+' :: t => (false, t)
        | t => (false, t)
      (someDigits? t).map fun (digits, t) => (some (negative, digits), t)
    else some (none, c :: t)

/-- A number. -/
def numeral? (t : Text) : Option (Numeral × Text) := do
  let (negative, t) := match t with
    | '-' :: t => (true, t)
    | t => (false, t)
  let (whole, t) ← wholeDigits? t
  let (fraction, t) ← match t with
    | '.' :: t => (someDigits? t).map fun (digits, t) => (some digits, t)
    | t => some (none, t)
  let (exponent, t) ← exponent? t
  return (⟨negative, whole, fraction, exponent⟩, t)

end BooleanSearch.Json
