import BooleanSearch.Yaml.Space

/-!
# Block scalars

A block scalar starts with a header: a bar or an angle, then how it is set in and how it ends. Its
text is in the lines below, which are set in deeper than what surrounds them. The line breaks
after a bar are kept, those after an angle are folded.
-/

namespace BooleanSearch.Yaml

/-- How the line breaks at the end of a block scalar are read. -/
inductive Chomping where
  /-- All are dropped. -/
  | strip
  /-- The first is kept. -/
  | clip
  /-- All are kept. -/
  | keep
  deriving DecidableEq, Repr

/-- What the header of a block scalar says. -/
structure BlockHeader where
  chomping : Chomping
  /-- By how many columns the text is set in, if the header says so. -/
  indentation : Option Nat
  deriving DecidableEq, Repr

/-- The chomping that a sign asks for. -/
def chomping? : Char → Option Chomping
  | '+' => some .keep
  | '-' => some .strip
  | _ => none

/-- The indentation that a digit asks for; zero is refused. -/
def indentation? (c : Char) : Option Nat :=
  if '1' ≤ c ∧ c ≤ '9' then some (c.toNat - '0'.toNat) else none

/-- The header of a block scalar, whose sign and digit stand in either order, and what follows
them. -/
def blockHeader? : Text → Option (BlockHeader × Text)
  | [] => some (⟨.clip, none⟩, [])
  | c :: t =>
    match chomping? c with
    | some chomping =>
      match t with
      | d :: t' =>
        if d.isDigit then (indentation? d).map fun n => (⟨chomping, some n⟩, t')
        else some (⟨chomping, none⟩, d :: t')
      | [] => some (⟨chomping, none⟩, [])
    | none =>
      if c.isDigit then
        (indentation? c).map fun n =>
          match t with
          | d :: t' =>
            match chomping? d with
            | some chomping => (⟨chomping, some n⟩, t')
            | none => (⟨.clip, some n⟩, d :: t')
          | [] => (⟨.clip, some n⟩, [])
      else some (⟨.clip, none⟩, c :: t)

/-- The line breaks before a line of a block scalar. -/
structure Breaks where
  /-- The break that ends the line before, if there is one. -/
  first : Option Char
  /-- The breaks of the empty lines after it. -/
  further : Text
  /-- Whether the line before starts with white space. -/
  afterGap : Bool
  deriving DecidableEq, Repr

/-- What breaks before a line read as. They are folded unless one of the two lines starts with
white space. -/
def Breaks.text (fold : Bool) (breaks : Breaks) (beforeGap : Bool) : Text :=
  if fold && breaks.first = some '\n' && !breaks.afterGap && !beforeGap then
    (if breaks.further.isEmpty then [' '] else breaks.further)
  else breaks.first.toList ++ breaks.further

/-- What breaks at the end read as. -/
def Breaks.atEnd (chomping : Chomping) (breaks : Breaks) : Text :=
  match chomping with
  | .strip => []
  | .clip => breaks.first.toList
  | .keep => breaks.first.toList ++ breaks.further

/-- Where the reader of a block scalar stands. -/
inductive BlockState where
  /-- In a column before the text of a line. By how many columns the text is set in may not be
  known yet; `deepest` is the farthest column that an empty line before it reached. -/
  | margin (known : Option Nat) (column deepest : Nat) (breaks : Breaks)
  /-- Within the text of a line. -/
  | line (indentation : Nat) (afterGap : Bool)
  deriving DecidableEq, Repr

/-- The rest of a block scalar, and what follows it. Its text is set in by `least` columns or more
if the header does not say. -/
def block? (fold : Bool) (chomping : Chomping) (least : Nat) :
    BlockState → Text → Option (Text × Text)
  | .margin _ _ _ breaks, [] => some (breaks.atEnd chomping, [])
  | .margin known column deepest breaks, c :: rest =>
    let inMargin := match known with
      | some n => column < n
      | none => true
    if c = ' ' && inMargin then
      block? fold chomping least (.margin known (column + 1) deepest breaks) rest
    else if c = '\t' && inMargin then none
    else
      let deepest := max deepest column
      if isBreak c then
        block? fold chomping least
          (.margin known 0 deepest { breaks with further := breaks.further ++ [c] }) rest
      else
        let n := known.getD (max deepest least)
        if column = n then
          (block? fold chomping least (.line n (isGap c)) rest).map fun (t, rest) =>
            (breaks.text fold (isGap c) ++ c :: t, rest)
        else some (breaks.atEnd chomping, c :: rest)
  | .line _ _, [] => some ([], [])
  | .line n afterGap, c :: rest =>
    if isBreak c then
      block? fold chomping least (.margin (some n) 0 0 ⟨some c, [], afterGap⟩) rest
    else (block? fold chomping least (.line n afterGap) rest).map fun (t, rest) => (c :: t, rest)

end BooleanSearch.Yaml
