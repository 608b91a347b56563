import BooleanSearch.Proofs.Query.Expression

/-!
# The infix grammar

Queries are written in the grammar

    or   ::= and | or OR and
    and  ::= not | and AND not
    not  ::= NOT not | atom
    atom ::= word | phrase | ( or )

so `NOT` binds tighter than `AND` and `AND` tighter than `OR`, and both binary operators group to
the left. A derivation is a tree whose type says of which level it is.
-/

namespace BooleanSearch

/-- The text of the phrase that some tokens between quotes make. -/
def phraseText (tokens : List Token) : Text :=
  Text.trim (tokens.foldl Conversion.extendPhrase [])

/-- The tokens between the quotes of a phrase that is not blank. -/
structure Phrase where
  tokens : List Token
  unquoted : .quote ∉ tokens
  nonblank : phraseText tokens ≠ []

/-- The levels of the infix grammar. -/
inductive Level where
  | or
  | and
  | not
  | atom
  deriving DecidableEq, Repr

/-- The derivations of the infix grammar. -/
inductive Infix : Level → Type where
  | word (text : Text) : Infix .atom
  | phrase (quoted : Phrase) : Infix .atom
  | group (inner : Infix .or) : Infix .atom
  | ofAtom (atom : Infix .atom) : Infix .not
  | not (operand : Infix .not) : Infix .not
  | ofNot (operand : Infix .not) : Infix .and
  | and (left : Infix .and) (right : Infix .not) : Infix .and
  | ofAnd (operand : Infix .and) : Infix .or
  | or (left : Infix .or) (right : Infix .and) : Infix .or

namespace Infix

/-- The tokens of a derivation. -/
def tokens {level : Level} : Infix level → List Token
  | .word text => [.word text]
  | .phrase quoted => .quote :: quoted.tokens ++ [.quote]
  | .group inner => .openParen :: inner.tokens ++ [.closeParen]
  | .ofAtom atom => atom.tokens
  | .not operand => .operator .not :: operand.tokens
  | .ofNot operand => operand.tokens
  | .and left right => left.tokens ++ .operator .and :: right.tokens
  | .ofAnd operand => operand.tokens
  | .or left right => left.tokens ++ .operator .or :: right.tokens

/-- The expression that a derivation stands for. A word with a wildcard is a term as it is; any
other word and every phrase is a term in double quotes. -/
def expression {level : Level} : Infix level → Expression
  | .word text => .term (if '*' ∈ text then text else '"' :: text ++ ['"'])
  | .phrase quoted => .term ('"' :: phraseText quoted.tokens ++ ['"'])
  | .group inner => inner.expression
  | .ofAtom atom => atom.expression
  | .not operand => .not operand.expression
  | .ofNot operand => operand.expression
  | .and left right => .join .and left.expression right.expression
  | .ofAnd operand => operand.expression
  | .or left right => .join .or left.expression right.expression

end Infix

end BooleanSearch
