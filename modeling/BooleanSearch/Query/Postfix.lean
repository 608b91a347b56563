import BooleanSearch.Query.Error
import BooleanSearch.Query.Token

/-!
# Postfix programs

An infix list of tokens is converted to postfix order by operator precedence: `NOT` binds tighter
than `AND`, and `AND` tighter than `OR`; equal operators group to the left. Operators wait on a
stack until an operand, a `)` or the end settles them. Between double quotes every token is plain
text and adds to a phrase.

Each token emits the nodes that it settles, so the program is the concatenation of what the tokens
emit.
-/

namespace BooleanSearch

/-- One step of a postfix program: a term in its final form, or an operator on the terms before
it. -/
inductive Node where
  | term (text : Text)
  | operator (op : Operator)
  deriving DecidableEq, Repr

namespace Node

/-- A text in the double quotes of the target language. -/
def literal (text : Text) : Text := '"' :: text ++ ['"']

/-- The term of a word: a word with a wildcard stands as it is, any other is a literal. -/
def ofWord (word : Text) : Node :=
  if word.contains '*' then .term word else .term (literal word)

/-- The term of a phrase, which is always a literal. -/
def ofPhrase (phrase : Text) : Node := .term (literal phrase)

/-- A node as one line of a listing. -/
def line : Node → Text
  | .term text => "TERM ".toList ++ text
  | .operator op => "OP ".toList ++ op.keyword

/-- A listing of nodes, one on each line. -/
def listing (nodes : List Node) : Text := ['\n'].intercalate (nodes.map line)

end Node

/-- What waits on the operator stack. -/
inductive Pending where
  | group
  | operator (op : Operator)
  deriving DecidableEq, Repr

namespace Pending

/-- How loosely an entry binds. A group is the loosest, so no operator settles anything beyond an
open parenthesis. -/
def looseness : Pending → Nat
  | .operator .not => 1
  | .operator .and => 2
  | .operator .or => 3
  | .group => 4

/-- The nodes of the operators among some entries. -/
def nodes : List Pending → List Node
  | [] => []
  | .group :: rest => nodes rest
  | .operator op :: rest => .operator op :: nodes rest

/-- The nodes down to the nearest group and the entries below it; `none` if no group is open. -/
def closeGroup? : List Pending → Option (List Node × List Pending)
  | [] => none
  | .group :: rest => some ([], rest)
  | .operator op :: rest => (closeGroup? rest).map fun (settled, below) =>
    (.operator op :: settled, below)

/-- An incoming operator settles the entries on top that bind as tightly as it does, and waits
itself. `NOT` settles nothing. -/
def push (op : Operator) (pending : List Pending) : List Node × List Pending :=
  match op with
  | .not => ([], .operator .not :: pending)
  | op =>
    let tighter := fun entry : Pending => decide (entry.looseness ≤ (Pending.operator op).looseness)
    (nodes (pending.takeWhile tighter), .operator op :: pending.dropWhile tighter)

end Pending

/-- The state between two tokens: the entries that wait, the top one first, and the text of the
phrase that is open. -/
structure Conversion where
  pending : List Pending
  phrase : Option Text
  deriving DecidableEq, Repr

namespace Conversion

/-- The state before the first token. -/
def start : Conversion := ⟨[], none⟩

/-- The text of an open phrase after one more token. A `)` repeats what the phrase holds so far,
without the blanks around it. -/
def extendPhrase (phrase : Text) : Token → Text
  | .closeParen => phrase ++ Text.trim phrase ++ [')', ' ']
  | .openParen => phrase ++ ['(']
  | .quote => phrase
  | .operator op => phrase ++ op.keyword ++ [' ']
  | .word word => phrase ++ word ++ [' ']

/-- The nodes of a phrase that ends: none if it is blank. -/
def closePhrase (phrase : Text) : List Node :=
  if Text.trim phrase = [] then [] else [Node.ofPhrase (Text.trim phrase)]

/-- The state after the token with this index, and the nodes that it settles. -/
def step (state : Conversion) (position : Nat) (token : Token) :
    Except QueryError (Conversion × List Node) :=
  match state.phrase with
  | some phrase =>
    match token with
    | .quote => .ok (⟨state.pending, none⟩, closePhrase phrase)
    | token => .ok (⟨state.pending, some (extendPhrase phrase token)⟩, [])
  | none =>
    match token with
    | .openParen => .ok (⟨.group :: state.pending, none⟩, [])
    | .closeParen =>
      match Pending.closeGroup? state.pending with
      | some (settled, below) => .ok (⟨below, none⟩, settled)
      | none => .error (.unmatchedClose position)
    | .quote => .ok (⟨state.pending, some []⟩, [])
    | .operator op =>
      let (settled, pending) := Pending.push op state.pending
      .ok (⟨pending, none⟩, settled)
    | .word word => .ok (state, [Node.ofWord word])

/-- The nodes that the end settles. A phrase that is still open counts as closed. -/
def finish (state : Conversion) : Except QueryError (List Node) :=
  if .group ∈ state.pending then .error .unmatchedOpen
  else .ok ((state.phrase.map closePhrase).getD [] ++ Pending.nodes state.pending)

/-- The nodes that the rest of a query settles, its first token having this index. -/
def run (state : Conversion) (position : Nat) : List Token → Except QueryError (List Node)
  | [] => state.finish
  | token :: tokens => do
    let (next, settled) ← state.step position token
    let rest ← run next (position + 1) tokens
    return settled ++ rest

end Conversion

/-- A program: nodes in postfix order. -/
abbrev Program := List Node

namespace Program

/-- The program of a list of tokens. -/
def ofTokens (tokens : List Token) : Except QueryError Program :=
  Conversion.start.run 0 tokens

/-- The program of a query. -/
def ofQuery (query : Text) : Except QueryError Program :=
  ofTokens (Token.ofQuery query)

end Program

end BooleanSearch
