import BooleanSearch.Text.Basic

/-!
# The characters of YAML

The classes of characters that the words of YAML are made of, and what stands at the front of a
text.
-/

namespace BooleanSearch.Yaml

/-- The characters that may stand in a YAML text. -/
def isAllowed (c : Char) : Bool :=
  let n := c.toNat
  n = 0x09 || n = 0x0A || n = 0x0D || (0x20 ≤ n && n ≤ 0x7E) || n = 0x85 ||
  (0xA0 ≤ n && n ≤ 0xD7FF) || (0xE000 ≤ n && n ≤ 0xFFFD) || 0x10000 ≤ n

/-- The mark that may stand before the first line of a text. -/
def byteOrderMark : Char := '\ufeff'

/-- A text with every line break that reads as a line feed written as one. -/
def uniform : Text → Text
  | [] => []
  | '\x0d' :: '\n' :: t => '\n' :: uniform t
  | c :: t => (if c = '\x0d' ∨ c = '\x85' then '\n' else c) :: uniform t

/-- The line breaks of a uniform text. -/
def isBreak (c : Char) : Bool := c = '\n' || c = '\u2028' || c = '\u2029'

/-- The characters that separate words within a line. -/
def isGap (c : Char) : Bool := c = ' ' || c = '\t'

/-- The characters of names. -/
def isNameChar (c : Char) : Bool := c.isAlphanum || c = '_' || c = '-'

/-- Whether a text ends, or goes on with white space. -/
def atWordEnd : Text → Bool
  | [] => true
  | c :: _ => isBreak c || isGap c

/-- The text of the next line, if nothing but white space and a comment is left of this one. -/
def nextLine? (t : Text) : Option Text :=
  let t := t.dropWhile isGap
  let t := if t.head? = some '#' then t.dropWhile (fun c => !isBreak c) else t
  match t with
  | [] => some []
  | c :: rest => if isBreak c then some rest else none

/-- Whether the mark of three dashes, which starts a document, stands at the front of a text. -/
def atDocumentStart : Text → Bool
  | '-' :: '-' :: '-' :: t => atWordEnd t
  | _ => false

/-- Whether the mark of three points, which ends a document, stands at the front of a text. -/
def atDocumentEnd : Text → Bool
  | '.' :: '.' :: '.' :: t => atWordEnd t
  | _ => false

/-- Whether a mark of the bounds of a document stands at the front of a text. -/
def atDocumentBound (t : Text) : Bool := atDocumentStart t || atDocumentEnd t

end BooleanSearch.Yaml
