import BooleanSearch.Json.Lexical

/-!
# Reading JSON

The reader of any JSON value. A value nests no deeper than its text is long, which bounds the
recursion.
-/

namespace BooleanSearch.Json

mutual

/-- A value at the front of a text, nested at most `depth` deep, and the rest. -/
def value? (unpaired : Unpaired) : Nat → Text → Option (Json × Text)
  | 0, _ => none
  | depth + 1, t =>
    match skipSpace t with
    | [] => none
    | '"' :: rest => (stringRest? unpaired .plain rest).map fun (s, rest) => (.string s, rest)
    | '[' :: rest =>
      match skipSpace rest with
      | ']' :: rest => some (.array [], rest)
      | _ => (items? unpaired depth rest).map fun (items, rest) => (.array items, rest)
    | '\x7b' :: rest =>
      match skipSpace rest with
      | '\x7d' :: rest => some (.object [], rest)
      | _ => (members? unpaired depth rest).map fun (members, rest) => (.object members, rest)
    | 'n' :: rest => (afterWord? ['u', 'l', 'l'] rest).map fun rest => (.null, rest)
    | 't' :: rest => (afterWord? ['r', 'u', 'e'] rest).map fun rest => (.boolean true, rest)
    | 'f' :: rest => (afterWord? ['a', 'l', 's', 'e'] rest).map fun rest => (.boolean false, rest)
    | c :: rest => (numeral? (c :: rest)).map fun (n, rest) => (.number n, rest)

/-- The items of an array, of which there is at least one, and the rest after its end. -/
def items? (unpaired : Unpaired) : Nat → Text → Option (List Json × Text)
  | 0, _ => none
  | depth + 1, t => do
    let (item, rest) ← value? unpaired depth t
    match skipSpace rest with
    | ']' :: rest => return ([item], rest)
    | ',' :: rest => do
      let (items, rest) ← items? unpaired depth rest
      return (item :: items, rest)
    | _ => none

/-- The members of an object, of which there is at least one, and the rest after its end. -/
def members? (unpaired : Unpaired) : Nat → Text → Option (List (Text × Json) × Text)
  | 0, _ => none
  | depth + 1, t =>
    match skipSpace t with
    | '"' :: rest => do
      let (key, rest) ← stringRest? unpaired .plain rest
      match skipSpace rest with
      | ':' :: rest => do
        let (value, rest) ← value? unpaired depth rest
        match skipSpace rest with
        | '\x7d' :: rest => return ([(key, value)], rest)
        | ',' :: rest => do
          let (members, rest) ← members? unpaired depth rest
          return ((key, value) :: members, rest)
        | _ => none
      | _ => none
    | _ => none

end

/-- A bound on the steps that a value of a text takes. -/
def stepBound (t : Text) : Nat := 2 * t.length + 2

/-- The value that a whole text stands for. -/
def ofText? (t : Text) : Option Json :=
  match value? .refused (stepBound t) t with
  | some (value, rest) => if skipSpace rest = [] then some value else none
  | none => none

end BooleanSearch.Json
