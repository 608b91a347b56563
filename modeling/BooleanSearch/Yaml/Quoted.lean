import BooleanSearch.Yaml.Space

/-!
# Quoted scalars

Readers for the rest of a scalar after its opening quote. In single quotes a quote is written
twice; in double quotes a backslash starts an escape. Each reader gives the text of the scalar and
what follows its closing quote; `none` means that the scalar is malformed.
-/

namespace BooleanSearch.Yaml

/-- The rest of a scalar in single quotes, after this white space. -/
def singleQuoted? (space : Space) (atLineStart : Bool) : Text → Option (Text × Text)
  | [] => none
  | c :: rest =>
    if atLineStart && atDocumentBound (c :: rest) then none
    else if isGap c || isBreak c then singleQuoted? (space.add c) (isBreak c) rest
    else if c = '\'' then
      match rest with
      | '\'' :: rest =>
        (singleQuoted? .empty false rest).map fun (t, rest) => (space.text ++ '\'' :: t, rest)
      | rest => some (space.text, rest)
    else
      (singleQuoted? .empty false rest).map fun (t, rest) => (space.text ++ c :: t, rest)

/-- Where the reader of a scalar in double quotes stands. -/
inductive DoubleState where
  /-- After white space. -/
  | plain (space : Space) (atLineStart : Bool)
  /-- After a backslash. -/
  | escape
  /-- Within a number of which `left + 1` digits are missing. -/
  | number (left value : Nat)
  deriving DecidableEq, Repr

/-- The character of an escape that consists of one character. -/
def escapeValue? : Char → Option Char
  | '0' => some '\x00'
  | 'a' => some '\x07'
  | 'b' => some '\x08'
  | 't' => some '\t'
  | '\t' => some '\t'
  | 'n' => some '\n'
  | 'v' => some '\x0b'
  | 'f' => some '\x0c'
  | 'r' => some '\x0d'
  | 'e' => some '\x1b'
  | ' ' => some ' '
  | '"' => some '"'
  | '/' => some '/'
  | '\\' => some '\\'
  | 'N' => some '\u0085'
  | '_' => some '\u00a0'
  | 'L' => some '\u2028'
  | 'P' => some '\u2029'
  | _ => none

/-- How many further digits follow the first one after the letter of an escape by number. -/
def escapeDigits? : Char → Option Nat
  | 'x' => some 1
  | 'u' => some 3
  | 'U' => some 7
  | _ => none

/-- The character of a number, which must not be a surrogate. -/
def character? (n : Nat) : Option Char := if n.isValidChar then some (Char.ofNat n) else none

/-- The rest of a scalar in double quotes. -/
def doubleQuoted? : DoubleState → Text → Option (Text × Text)
  | _, [] => none
  | .plain space atLineStart, c :: rest =>
    if atLineStart && atDocumentBound (c :: rest) then none
    else if isGap c || isBreak c then doubleQuoted? (.plain (space.add c) (isBreak c)) rest
    else if c = '"' then some (space.text, rest)
    else if c = '\\' then
      (doubleQuoted? .escape rest).map fun (t, rest) => (space.text ++ t, rest)
    else
      (doubleQuoted? (.plain .empty false) rest).map fun (t, rest) => (space.text ++ c :: t, rest)
  | .escape, c :: rest =>
    if isBreak c then doubleQuoted? (.plain (.across none []) true) rest
    else match escapeDigits? c with
      | some left => doubleQuoted? (.number left 0) rest
      | none =>
        match escapeValue? c with
        | none => none
        | some d =>
          (doubleQuoted? (.plain .empty false) rest).map fun (t, rest) => (d :: t, rest)
  | .number left value, c :: rest =>
    match Text.hexValue? c with
    | none => none
    | some digit =>
      let value := 16 * value + digit
      match left with
      | left + 1 => doubleQuoted? (.number left value) rest
      | 0 =>
        match character? value with
        | none => none
        | some d =>
          (doubleQuoted? (.plain .empty false) rest).map fun (t, rest) => (d :: t, rest)

end BooleanSearch.Yaml
