import BooleanSearch.Yaml.Block
import BooleanSearch.Yaml.Plain
import BooleanSearch.Yaml.Quoted
import BooleanSearch.Yaml.Tag

/-!
# Reading the words of YAML

The words are read from the front of a text. The column of a word tells which collections it opens
and closes. A colon makes a key of the node before it if that node stands in the same line, so
wherever a node starts that may become a key its place among the words is remembered.
-/

namespace BooleanSearch.Yaml

/-- The place of a node that a colon makes a key. -/
structure KeyPlace where
  /-- How many words stand before it. -/
  index : Nat
  line : Nat
  column : Nat
  /-- Whether nothing but a key can stand there. -/
  required : Bool
  deriving DecidableEq, Repr

/-- A key stands within a line and has at most 1024 characters. -/
def KeyPlace.isPassed (place : KeyPlace) (line column : Nat) : Bool :=
  place.line < line || place.column + 1024 < column

/-- What is left to read and what was read. -/
structure Lexer where
  rest : Text
  line : Nat
  column : Nat
  tokens : List Token
  /-- The column of the innermost block collection, or -1. -/
  indent : Int
  /-- The columns of the block collections around it. -/
  outer : List Int
  /-- Whether a key may start here. -/
  keyAllowed : Bool
  /-- The place of the key, if a colon comes next. -/
  place : Option KeyPlace
  /-- The places of keys around each open flow collection. -/
  outerPlaces : List (Option KeyPlace)
  deriving DecidableEq, Repr

namespace Lexer

/-- The start of a text. The mark before the first line takes up a column. -/
def ofText (t : Text) : Lexer :=
  let (rest, column) := match t with
    | c :: rest => if c = byteOrderMark then (rest, 1) else (t, 0)
    | [] => ([], 0)
  ⟨rest, 0, column, [], -1, [], true, none, []⟩

/-- Whether a flow collection is open. -/
def inFlow (l : Lexer) : Bool := !l.outerPlaces.isEmpty

/-- The text with so many characters read. -/
def advance : Nat → Lexer → Lexer
  | 0, l => l
  | n + 1, l =>
    match l.rest with
    | [] => l
    | c :: rest =>
      advance n (if isBreak c then { l with rest := rest, line := l.line + 1, column := 0 }
        else { l with rest := rest, column := l.column + 1 })

/-- The text read up to this rest of it. -/
def moveTo (l : Lexer) (rest : Text) : Lexer := l.advance (l.rest.length - rest.length)

/-- A further word. -/
def push (l : Lexer) (token : Token) : Lexer := { l with tokens := l.tokens ++ [token] }

/-- The text without the white space and the comments in front. In a new line a key may start
unless a flow collection is open; where a key may start, a tab is no white space. -/
def skipSpace (l : Lexer) : Lexer :=
  go l.keyAllowed false l.line l.column l.rest
where
  go (keyAllowed inComment : Bool) (line column : Nat) : Text → Lexer
    | [] => { l with rest := [], line := line, column := column, keyAllowed := keyAllowed }
    | c :: rest =>
      if isBreak c then go (keyAllowed || !l.inFlow) false (line + 1) 0 rest
      else if inComment || c = ' ' || (c = '\t' && (l.inFlow || !keyAllowed)) then
        go keyAllowed inComment line (column + 1) rest
      else if c = '#' then go keyAllowed true line (column + 1) rest
      else
        { l with rest := c :: rest, line := line, column := column, keyAllowed := keyAllowed }

/-- A place that is not passed; `none` if a key was required at one that is. -/
def stillOpen? (l : Lexer) : Option KeyPlace → Option (Option KeyPlace)
  | none => some none
  | some place =>
    if !place.isPassed l.line l.column then some (some place)
    else if place.required then none
    else some none

/-- The places that are passed are forgotten. -/
def forgetPassed? (l : Lexer) : Option Lexer := do
  let place ← l.stillOpen? l.place
  let outerPlaces ← l.outerPlaces.mapM l.stillOpen?
  return { l with place := place, outerPlaces := outerPlaces }

/-- How many block collections end before a column, and what is left of them. -/
def closed (column : Int) : Int → List Int → Nat × Int × List Int
  | indent, [] => (0, indent, [])
  | indent, next :: outer =>
    if indent ≤ column then (0, indent, next :: outer)
    else
      let (n, indent, outer) := closed column next outer
      (n + 1, indent, outer)

/-- Block collections that are set in deeper than a column are closed. -/
def closeTo (l : Lexer) (column : Int) : Lexer :=
  if l.inFlow then l
  else
    let (n, indent, outer) := closed column l.indent l.outer
    { l with
      tokens := l.tokens ++ List.replicate n .blockEnd, indent := indent, outer := outer }

/-- A block collection is opened in a column that lies deeper than the one around it. Its word is
inserted after so many words. -/
def openAt (l : Lexer) (index column : Nat) (token : Token) : Lexer :=
  if !l.inFlow && l.indent < column then
    { l with tokens := l.tokens.insertIdx index token, indent := column,
             outer := l.indent :: l.outer }
  else l

/-- A block collection is opened here. -/
def openHere (l : Lexer) (token : Token) : Lexer := l.openAt l.tokens.length l.column token

/-- The place of the key is forgotten; `none` if a key was required there. -/
def forgetPlace? (l : Lexer) : Option Lexer :=
  match l.place with
  | some place => if place.required then none else some { l with place := none }
  | none => some l

/-- The place is remembered if a key may start here. -/
def rememberPlace? (l : Lexer) : Option Lexer :=
  if l.keyAllowed then do
    let l ← l.forgetPlace?
    let place : KeyPlace :=
      ⟨l.tokens.length, l.line, l.column, !l.inFlow && l.indent == l.column⟩
    return { l with place := some place }
  else some l

/-- A directive. -/
def directiveWord? (l : Lexer) : Option Lexer := do
  let l ← (l.closeTo (-1)).forgetPlace?
  let (token, rest) ← directive? (l.rest.drop 1)
  return { (l.moveTo rest).push token with keyAllowed := false }

/-- A mark of the bounds of a document. -/
def boundWord? (l : Lexer) (token : Token) : Option Lexer := do
  let l ← (l.closeTo (-1)).forgetPlace?
  return { (l.advance 3).push token with keyAllowed := false }

/-- The start of a flow collection. -/
def flowStartWord? (l : Lexer) (token : Token) : Option Lexer := do
  let l ← l.rememberPlace?
  return { (l.advance 1).push token with
    keyAllowed := true, place := none, outerPlaces := l.place :: l.outerPlaces }

/-- The end of a flow collection. -/
def flowEndWord? (l : Lexer) (token : Token) : Option Lexer := do
  let l ← l.forgetPlace?
  let l := { (l.advance 1).push token with keyAllowed := false }
  match l.outerPlaces with
  | place :: outerPlaces => return { l with place := place, outerPlaces := outerPlaces }
  | [] => return l

/-- A comma in a flow collection. -/
def commaWord? (l : Lexer) : Option Lexer := do
  let l ← l.forgetPlace?
  return { (l.advance 1).push .comma with keyAllowed := true }

/-- The dash of an item of a sequence. -/
def itemWord? (l : Lexer) : Option Lexer := do
  if !l.inFlow && !l.keyAllowed then none
  let l ← (l.openHere .blockSequence).forgetPlace?
  return { (l.advance 1).push .item with keyAllowed := true }

/-- The question mark of a key. -/
def keyWord? (l : Lexer) : Option Lexer := do
  if !l.inFlow && !l.keyAllowed then none
  let l ← (l.openHere .blockMapping).forgetPlace?
  return { (l.advance 1).push .key with keyAllowed := !l.inFlow }

/-- The colon of a value. It makes a key of the node at the place that is remembered. -/
def valueWord? (l : Lexer) : Option Lexer :=
  match l.place with
  | some place =>
    let l := { l with tokens := l.tokens.insertIdx place.index .key, place := none }
    let l := l.openAt place.index place.column .blockMapping
    some { (l.advance 1).push .value with keyAllowed := false }
  | none => do
    if !l.inFlow && !l.keyAllowed then none
    let l := l.openHere .blockMapping
    return { (l.advance 1).push .value with keyAllowed := !l.inFlow }

/-- A name after its sign. -/
def nameWord? (l : Lexer) (token : Text → Token) : Option Lexer := do
  let l ← l.rememberPlace?
  let (name, rest) ← anchorName? (l.rest.drop 1)
  return { (l.moveTo rest).push (token name) with keyAllowed := false }

/-- A tag. -/
def tagWord? (l : Lexer) : Option Lexer := do
  let l ← l.rememberPlace?
  let (token, rest) ← tag? l.inFlow (l.rest.drop 1)
  return { (l.moveTo rest).push token with keyAllowed := false }

/-- A block scalar. -/
def blockWord? (l : Lexer) (style : Style) : Option Lexer := do
  let l ← l.forgetPlace?
  let (header, rest) ← blockHeader? (l.rest.drop 1)
  let rest ← nextLine? rest
  let known := header.indentation.map fun n => n + l.indent.toNat
  let (text, rest) ← block? (style = .folded) header.chomping (max (l.indent + 1).toNat 1)
    (.margin known 0 0 ⟨none, [], false⟩) rest
  return { (l.moveTo rest).push (.scalar style text) with keyAllowed := true }

/-- A quoted scalar. -/
def quotedWord? (l : Lexer) (style : Style) : Option Lexer := do
  let l ← l.rememberPlace?
  let t := l.rest.drop 1
  let (text, rest) ←
    if style = .singleQuoted then singleQuoted? .empty false t
    else doubleQuoted? (.plain .empty false) t
  return { (l.moveTo rest).push (.scalar style text) with keyAllowed := false }

/-- A plain scalar. A key may follow it if it ends its line. -/
def plainWord? (l : Lexer) : Option Lexer := do
  let l ← l.rememberPlace?
  let scalar ← plain? l.inFlow (l.indent + 1).toNat l.column .empty l.rest
  return { (l.moveTo scalar.rest).push (.scalar .plain scalar.text) with
    keyAllowed := scalar.endsLine }

/-- The signs that start no plain scalar. -/
def isSign (c : Char) : Bool :=
  c ∈ [',', '[', ']', '\x7b', '\x7d', '#', '&', '*', '!', '|', '>', '\'', '"', '%', '@', '\x60']

/-- The word at the front of a text that does not start with white space. -/
def word? (l : Lexer) : Option Lexer :=
  match l.rest with
  | [] => none
  | c :: t =>
    if l.column = 0 && c = '%' then l.directiveWord?
    else if l.column = 0 && atDocumentStart (c :: t) then l.boundWord? .documentStart
    else if l.column = 0 && atDocumentEnd (c :: t) then l.boundWord? .documentEnd
    else if c = '[' then l.flowStartWord? .flowSequence
    else if c = '\x7b' then l.flowStartWord? .flowMapping
    else if c = ']' then l.flowEndWord? .flowSequenceEnd
    else if c = '\x7d' then l.flowEndWord? .flowMappingEnd
    else if c = ',' then l.commaWord?
    else if c = '-' && atWordEnd t then l.itemWord?
    else if c = '?' && (l.inFlow || atWordEnd t) then l.keyWord?
    else if c = ':' && (l.inFlow || atWordEnd t) then l.valueWord?
    else if c = '*' then l.nameWord? .alias
    else if c = '&' then l.nameWord? .anchor
    else if c = '!' then l.tagWord?
    else if c = '|' && !l.inFlow then l.blockWord? .literal
    else if c = '>' && !l.inFlow then l.blockWord? .folded
    else if c = '\'' then l.quotedWord? .singleQuoted
    else if c = '"' then l.quotedWord? .doubleQuoted
    else if isGap c || isSign c then none
    else l.plainWord?

/-- The words of what is left, in at most so many steps. -/
def words? : Nat → Lexer → Option (List Token)
  | 0, _ => none
  | steps + 1, l => do
    let l ← l.skipSpace.forgetPassed?
    if l.rest.isEmpty then
      let l ← (l.closeTo (-1)).forgetPlace?
      return l.tokens
    else words? steps (← (l.closeTo l.column).word?)

end Lexer

/-- The words of a text; each takes up a character at least. -/
def tokens? (t : Text) : Option (List Token) :=
  if t.all isAllowed then
    let t := uniform t
    Lexer.words? (t.length + 1) (Lexer.ofText t)
  else none

end BooleanSearch.Yaml
