import BooleanSearch.Yaml.Space

/-!
# Plain scalars

A plain scalar has no quotes. It ends before a colon that white space follows, before a number
sign after white space, before the bounds of a document, before a line that is set in too little,
and within a flow collection before its punctuation. White space at its end is passed over.
-/

namespace BooleanSearch.Yaml

/-- A plain scalar that was read. -/
structure PlainScalar where
  text : Text
  /-- What follows the scalar and the white space after it. -/
  rest : Text
  /-- Whether a line break stands between the scalar and the rest. -/
  endsLine : Bool
  deriving DecidableEq, Repr

/-- The punctuation of flow collections. -/
def isFlowMark (c : Char) : Bool := c = ',' || c = '[' || c = ']' || c = '\x7b' || c = '\x7d'

/-- The scalar with text put in front. -/
def PlainScalar.prepend (t : Text) (scalar : PlainScalar) : PlainScalar :=
  { scalar with text := t ++ scalar.text }

/-- Whether a colon within a flow collection stands before punctuation, which is malformed. -/
def atDanglingColon : Text → Bool
  | ':' :: c :: _ => isFlowMark c || c = '?'
  | _ => false

/-- Whether a colon that ends a key stands at the front of a text. -/
def atKeyEnd : Text → Bool
  | ':' :: t => atWordEnd t
  | _ => false

/-- The rest of a plain scalar, after this white space, in this column; its lines are set in by
`margin` columns unless it stands in a flow collection. -/
def plain? (inFlow : Bool) (margin : Nat) : Nat → Space → Text → Option PlainScalar
  | _, space, [] => some ⟨[], [], space.isAcross⟩
  | column, space, c :: rest =>
    let ending := some ⟨[], c :: rest, space.isAcross⟩
    if isBreak c then plain? inFlow margin 0 (space.add c) rest
    else if isGap c then
      if c = '\t' && space.isAcross && column < margin then none
      else plain? inFlow margin (column + 1) (space.add c) rest
    else if !space.isEmpty &&
        ((!inFlow && column < margin) || c = '#' ||
          (column = 0 && atDocumentBound (c :: rest))) then ending
    else if inFlow && atDanglingColon (c :: rest) then none
    else if atKeyEnd (c :: rest) || (inFlow && isFlowMark c) then ending
    else
      (plain? inFlow margin (column + 1) .empty rest).map
        (PlainScalar.prepend (space.text ++ [c]))

end BooleanSearch.Yaml
