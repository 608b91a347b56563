import BooleanSearch.Yaml.Character
import BooleanSearch.Yaml.Token

/-!
# Anchors, tags and directives

Readers for the words of YAML that hold names. Each gives what it read and what follows it; `none`
means that the word is malformed.
-/

namespace BooleanSearch.Yaml

/-- Whether the name of an anchor may end before a text. -/
def atAnchorEnd (t : Text) : Bool :=
  match t with
  | [] => true
  | c :: _ => atWordEnd t || c ∈ ['?', ':', ',', ']', '\x7d', '%', '@', '\x60']

/-- The name of an anchor or an alias, after its sign. -/
def anchorName? (t : Text) : Option (Text × Text) :=
  let name := t.takeWhile isNameChar
  let rest := t.dropWhile isNameChar
  if !name.isEmpty && atAnchorEnd rest then some (name, rest) else none

/-- The characters that stand for themselves in a tag. Those of flow collections are among them
only where the tag is enclosed. -/
def isTagChar (enclosed : Bool) (c : Char) : Bool :=
  isNameChar c ||
  c ∈ [';', '/', '?', ':', '@', '&', '=', '+', '$', '.', '!', '~', '*', '\'', '(', ')'] ||
  (enclosed && c ∈ [',', '[', ']'])

/-- How many bytes follow the first byte of a character, and the bits of that byte. -/
def leadByte? (b : Nat) : Option (Nat × Nat) :=
  if b < 0x80 then some (0, b)
  else if b < 0xC0 then none
  else if b < 0xE0 then some (1, b - 0xC0)
  else if b < 0xF0 then some (2, b - 0xE0)
  else if b < 0xF8 then some (3, b - 0xF0)
  else none

/-- The text of a tag, in which a percent sign starts a byte in two digits; `left` bytes are
missing of the character of this value. -/
def tagText? (enclosed : Bool) : Nat → Nat → Text → Option (Text × Text)
  | left, value, '%' :: high :: low :: t =>
    match Text.hexValue? high, Text.hexValue? low with
    | some high, some low =>
      let b := 16 * high + low
      let begun := match left with
        | 0 => leadByte? b
        | left + 1 =>
          if 0x80 ≤ b ∧ b < 0xC0 then some (left, 0x40 * value + (b - 0x80)) else none
      match begun with
      | none => none
      | some (0, value) =>
        (tagText? enclosed 0 0 t).map fun (name, t) => (Char.ofNat value :: name, t)
      | some (left + 1, value) => tagText? enclosed (left + 1) value t
    | _, _ => none
  | 0, _, c :: t =>
    if c = '%' then none
    else if isTagChar enclosed c then
      (tagText? enclosed 0 0 t).map fun (name, t) => (c :: name, t)
    else some ([], c :: t)
  | 0, _, [] => some ([], [])
  | _ + 1, _, _ => none

/-- The text of a tag, which must not be empty. -/
def someTagText? (enclosed : Bool) (t : Text) : Option (Text × Text) :=
  match tagText? enclosed 0 0 t with
  | some ([], _) => none
  | result => result

/-- The handle and the name of a tag, after its exclamation mark. A tag in angles has no handle,
and neither has the tag that is a lone mark. -/
def tagParts? : Text → Option (Text × Text × Text)
  | '<' :: t => do
    let (name, t) ← someTagText? true t
    match t with
    | '>' :: t => return ([], name, t)
    | _ => none
  | t => do
    let word := t.takeWhile isNameChar
    match t.dropWhile isNameChar with
    | '!' :: t =>
      let (name, t) ← someTagText? false t
      return ('!' :: word ++ ['!'], name, t)
    | t =>
      let (name, t) ← tagText? false 0 0 t
      let name := word ++ name
      return if name.isEmpty then ([], ['!'], t) else (['!'], name, t)

/-- A tag, after its exclamation mark. -/
def tag? (inFlow : Bool) (t : Text) : Option (Token × Text) := do
  let (handle, name, t) ← tagParts? t
  if atWordEnd t || (inFlow && t.head? = some ',') then return (.tag handle name, t) else none

/-- A number of a version. -/
def versionNumber? (t : Text) : Option (Nat × Text) :=
  let digits := t.takeWhile Char.isDigit
  if digits.isEmpty || 9 < digits.length then none
  else some (Text.ofDecimal digits, t.dropWhile Char.isDigit)

/-- The directive of the version, after its name. -/
def versionDirective? (t : Text) : Option (Token × Text) := do
  let (major, t) ← versionNumber? (t.dropWhile isGap)
  match t with
  | '.' :: t =>
    let (minor, t) ← versionNumber? t
    return (.version major minor, t)
  | _ => none

/-- The directive of a tag handle, after its name. -/
def tagDirective? (t : Text) : Option (Token × Text) := do
  let (handle, t) ← match t.dropWhile isGap with
    | '!' :: t =>
      let word := t.takeWhile isNameChar
      match t.dropWhile isNameChar with
      | '!' :: t => some ('!' :: word ++ ['!'], t)
      | t => if word.isEmpty then some (['!'], t) else none
    | _ => none
  if !(t.head?.map isGap).getD false then none
  let (meaning, t) ← someTagText? true (t.dropWhile isGap)
  if atWordEnd t then return (.tagPrefix handle meaning, t) else none

/-- A directive, after its percent sign, up to the next line. -/
def directive? (t : Text) : Option (Token × Text) := do
  let name := t.takeWhile isNameChar
  let t := t.dropWhile isNameChar
  if !atWordEnd t then none
  let (token, t) ←
    if name = "YAML".toList then versionDirective? t
    else if name = "TAG".toList then tagDirective? t
    else none
  return (token, ← nextLine? t)

end BooleanSearch.Yaml
