import BooleanSearch.Yaml.Character

/-!
# White space within a scalar

Between two words of a scalar that is written over several lines, white space is folded: what
stands before and after a line break is dropped, a single break reads as a space, and of several
breaks the first is dropped.
-/

namespace BooleanSearch.Yaml

/-- White space that was met within a scalar. -/
inductive Space where
  /-- White space within a line. -/
  | within (text : Text)
  /-- White space over a line break. The first break is missing if it was escaped. -/
  | across (first : Option Char) (further : Text)
  deriving DecidableEq, Repr

namespace Space

/-- No white space. -/
def empty : Space := within []

/-- Whether a line break was met. -/
def isAcross : Space → Bool
  | within _ => false
  | across _ _ => true

/-- Whether any white space was met. -/
def isEmpty : Space → Bool
  | within text => text.isEmpty
  | across _ _ => false

/-- White space followed by another character of white space. -/
def add : Space → Char → Space
  | within text, c => if isBreak c then across (some c) [] else within (text ++ [c])
  | across first further, c => across first (if isBreak c then further ++ [c] else further)

/-- What line breaks read as: a first break that is a line feed is dropped for the further ones, or
else reads as a space; any other first break is kept. -/
def folded (first : Option Char) (further : Text) : Text :=
  if first = some '\n' then (if further.isEmpty then [' '] else further)
  else first.toList ++ further

/-- What white space reads as. -/
def text : Space → Text
  | within text => text
  | across first further => folded first further

end Space

end BooleanSearch.Yaml
