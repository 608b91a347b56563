import BooleanSearch.Yaml.Character
import BooleanSearch.Yaml.Token

/-!
# Writing YAML scalars

A text is written plain where it reads back as itself and as nothing but a text. Otherwise it is
put in single quotes, and in double quotes where it holds characters that need an escape. A text
with a line feed is written as a block.
-/

namespace BooleanSearch.Yaml

/-- The words that read as something else than a text, in lower case. -/
def reservedWords : List Text :=
  ["y", "yes", "n", "no", "on", "off", "true", "false", "null", "nil", "~", "nan"].map String.toList

/-- Whether a text might be read as something else than a text: an empty one, a reserved word, or
one that starts like a number. -/
def isAmbiguous (t : Text) : Bool :=
  match t with
  | [] => true
  | c :: _ =>
    reservedWords.contains (Text.lower t) || c.isDigit || c = '-' || c = '.' || c = '+'

/-- The characters that need no escape. -/
def isPrintable (c : Char) : Bool :=
  let n := c.toNat
  n = 0x0A || (0x20 ≤ n && n ≤ 0x7E) || (0xA0 ≤ n && n ≤ 0xD7FF) ||
  (0xE000 ≤ n && n ≤ 0xFFFD && n ≠ 0xFEFF) || 0x10000 ≤ n

/-- The signs with which no plain text starts. -/
def isLeadingSign (c : Char) : Bool :=
  c ∈ ['#', ',', '[', ']', '\x7b', '\x7d', '&', '*', '!', '|', '>', '\'', '"', '%', '@', '\x60']

/-- Whether two neighbours in a text are of these two classes. -/
def hasNeighbours (first second : Char → Bool) : Text → Bool
  | c :: d :: t => (first c && second d) || hasNeighbours first second (d :: t)
  | _ => false

/-- The space character. -/
def isSpaceChar (c : Char) : Bool := c = ' '

/-- Whether a colon stands at the end of a word. -/
def endsWordWithColon : Text → Bool
  | [] => false
  | c :: t => (c = ':' && atWordEnd t) || endsWordWithColon t

/-- Whether a text can be written plain. -/
def fitsPlain (t : Text) : Bool :=
  t.all isPrintable && !t.any isBreak &&
  t.head? ≠ some ' ' && t.getLast? ≠ some ' ' &&
  !(t.take 3 = ['-', '-', '-'] || t.take 3 = ['.', '.', '.']) &&
  !((t.head?.map isLeadingSign).getD false) &&
  !((t.head? = some '?' || t.head? = some '-') && atWordEnd t.tail) &&
  !endsWordWithColon t && !hasNeighbours isSpaceChar (· = '#') t

/-- Whether a text can be written in single quotes. -/
def fitsSingleQuoted (t : Text) : Bool :=
  t.all isPrintable && !hasNeighbours isSpaceChar isBreak t && !hasNeighbours isBreak isSpaceChar t

/-- Whether a text can be written as a block. -/
def fitsLiteral (t : Text) : Bool :=
  t.all isPrintable && !hasNeighbours isSpaceChar isBreak t && t.getLast? ≠ some ' '

/-- The style in which a text is written. -/
def Style.ofText (t : Text) : Style :=
  if t.contains '\n' then (if fitsLiteral t then .literal else .doubleQuoted)
  else if !isAmbiguous t && fitsPlain t then .plain
  else if fitsSingleQuoted t then .singleQuoted
  else .doubleQuoted

/-- What a line of a scalar is set in by. -/
def scalarMargin : Text := [' ', ' ']

/-- The text between single quotes: a quote is written twice, and what follows a line break is set
in. -/
def singleQuotedBody (afterBreak : Bool) : Text → Text
  | [] => if afterBreak then scalarMargin else []
  | c :: t =>
    if isBreak c then c :: singleQuotedBody true t
    else
      (if afterBreak then scalarMargin else []) ++
        (if c = '\'' then ['\'', '\''] else [c]) ++ singleQuotedBody false t

/-- A number in this many hexadecimal digits, in upper case. -/
def hexDigits (width n : Nat) : Text :=
  let digits := (Text.hexadecimal n).map Char.toUpper
  List.replicate (width - digits.length) '0' ++ digits

/-- The letter of a short escape. -/
def escapeLetter? : Char → Option Char
  | '\x00' => some '0'
  | '\x07' => some 'a'
  | '\x08' => some 'b'
  | '\t' => some 't'
  | '\n' => some 'n'
  | '\x0b' => some 'v'
  | '\x0c' => some 'f'
  | '\x0d' => some 'r'
  | '\x1b' => some 'e'
  | '"' => some '"'
  | '\\' => some '\\'
  | '\u0085' => some 'N'
  | '\u2028' => some 'L'
  | '\u2029' => some 'P'
  | _ => none

/-- A character between double quotes. -/
def doubleQuotedChar (c : Char) : Text :=
  match escapeLetter? c with
  | some letter => ['\\', letter]
  | none =>
    if isPrintable c then [c]
    else if c.toNat ≤ 0xFF then '\\' :: 'x' :: hexDigits 2 c.toNat
    else if c.toNat ≤ 0xFFFF then '\\' :: 'u' :: hexDigits 4 c.toNat
    else '\\' :: 'U' :: hexDigits 8 c.toNat

/-- The lines of a block, set in. -/
def literalBody (afterBreak : Bool) : Text → Text
  | [] => []
  | c :: t =>
    if isBreak c then c :: literalBody true t
    else (if afterBreak then scalarMargin else []) ++ c :: literalBody false t

/-- The header of a block: by how many columns it is set in if that cannot be seen from its first
line, and which of the line breaks at its end are kept if it is not just one. -/
def literalHeader (t : Text) : Text :=
  let indentation := match t with
    | c :: _ => if c = ' ' || isBreak c then ['2'] else []
    | [] => []
  let chomping := match t.reverse with
    | [] => ['-']
    | [c] => if isBreak c then ['+'] else ['-']
    | c :: d :: _ => if !isBreak c then ['-'] else if isBreak d then ['+'] else []
  '|' :: indentation ++ chomping

/-- A text as a scalar. -/
def renderText (t : Text) : Text :=
  match Style.ofText t with
  | .plain => t
  | .singleQuoted => '\'' :: singleQuotedBody false t ++ ['\'']
  | .doubleQuoted => '"' :: t.flatMap doubleQuotedChar ++ ['"']
  | .literal | .folded => literalHeader t ++ '\n' :: literalBody true t

/-- A truth value as a scalar. -/
def renderTruth (b : Bool) : Text := if b then "true".toList else "false".toList

/-- An entry of a mapping, on lines of its own. -/
def renderEntry (key value : Text) : Text :=
  key ++ ':' :: ' ' :: value ++ (if (value.getLast?.map isBreak).getD false then [] else ['\n'])

end BooleanSearch.Yaml
