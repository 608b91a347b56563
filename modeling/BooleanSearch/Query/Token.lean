import BooleanSearch.Query.Operator
import BooleanSearch.Text.Blank
import BooleanSearch.Text.Quoted

/-!
# Tokens

A query is read as a flat list of tokens. Parentheses and double quotes stand alone whatever
surrounds them; all else is cut at ASCII white space. Whether a keyword or a parenthesis counts
inside a phrase is not decided here.
-/

namespace BooleanSearch

/-- A token of a query. -/
inductive Token where
  | openParen
  | closeParen
  | quote
  | operator (op : Operator)
  | word (text : Text)
  deriving DecidableEq, Repr

namespace Token

/-- The text of a token as it stands in a query. -/
def text : Token → Text
  | .openParen => ['(']
  | .closeParen => [')']
  | .quote => ['"']
  | .operator op => op.keyword
  | .word text => text

/-- The token that an unbroken unit of a query is. -/
def ofUnit (unit : Text) : Token :=
  if unit = ['('] then .openParen
  else if unit = [')'] then .closeParen
  else if unit = ['"'] then .quote
  else match Operator.ofKeyword? unit with
    | some op => .operator op
    | none => .word unit

/-- A character of a query, set apart by spaces if it stands alone. -/
def spaced (c : Char) : Text :=
  if c = '(' ∨ c = ')' ∨ c = '"' then [' ', c, ' '] else [c]

/-- The tokens of a query. -/
def ofQuery (query : Text) : List Token :=
  (Text.words ((Text.trimMatches Text.isSeparator query).flatMap spaced)).map ofUnit

/-- The name of an operator in a listing. -/
private def operatorName : Operator → Text
  | .and => "And".toList
  | .or => "Or".toList
  | .not => "Not".toList

/-- A token as one line of a listing. -/
def line : Token → Text
  | .openParen => "LParen".toList
  | .closeParen => "RParen".toList
  | .quote => "Quote".toList
  | .operator op => "Operator(".toList ++ operatorName op ++ [')']
  | .word text => "Word(".toList ++ Text.quoted text ++ [')']

/-- A listing of tokens, one on each line. -/
def listing (tokens : List Token) : Text := ['\n'].intercalate (tokens.map line)

end Token

end BooleanSearch
