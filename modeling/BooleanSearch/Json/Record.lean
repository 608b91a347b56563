import BooleanSearch.Json.Reader

/-!
# Reading records of texts

A record of texts is read straight from a JSON object, or from the array of its entries in their
order. The text is read from the front, and the first fault that is met decides, be it a malformed
text or a value that does not fit. What follows the record is not looked at.
-/

namespace BooleanSearch.Json

/-- Why a text is no record. -/
inductive RecordFault where
  /-- The text is no JSON. What the reader says of it, and where it stopped, is left out. -/
  | malformed
  /-- A value does not fit; `place` tells where it stands. -/
  | unfit (place : Text) (why : Unfit)
  deriving DecidableEq, Repr

/-- The message of a value that does not fit, after the place where it stands. -/
def RecordFault.message : RecordFault → Text
  | .malformed => []
  | .unfit place why => if place.isEmpty then why.message else place ++ [':', ' '] ++ why.message

/-- An entry of a record. -/
structure Slot where
  key : Text
  /-- Whether the entry may be missing or null. -/
  optional : Bool
  deriving DecidableEq, Repr

/-- What a record is to hold. -/
structure Shape where
  name : Text
  slots : List Slot
  deriving DecidableEq, Repr

/-- The entries of a record that were found. -/
abbrev Found := List (Text × Option Text)

/-- A malformed text where something is to be read. -/
def required (result : Option α) : Except RecordFault α :=
  match result with
  | some a => .ok a
  | none => .error .malformed

/-- What the value at the front of a text is called where it does not fit. -/
def describedAt (t : Text) : Except RecordFault Text :=
  match t with
  | '"' :: rest => do
    let (s, _) ← required (stringRest? .refused .plain rest)
    return (Json.string s).described
  | '[' :: _ => .ok (Json.array []).described
  | '\x7b' :: _ => .ok (Json.object []).described
  | 'n' :: rest => do
    let _ ← required (afterWord? ['u', 'l', 'l'] rest)
    return Json.null.described
  | 't' :: rest => do
    let _ ← required (afterWord? ['r', 'u', 'e'] rest)
    return (Json.boolean true).described
  | 'f' :: rest => do
    let _ ← required (afterWord? ['a', 'l', 's', 'e'] rest)
    return (Json.boolean false).described
  | t => do
    let (n, _) ← required (numeral? t)
    required n.described?

/-- The text of an entry, and the rest. -/
def entry (slot : Slot) (place t : Text) : Except RecordFault (Option Text × Text) :=
  match skipSpace t with
  | [] => .error .malformed
  | '"' :: rest => do
    let (s, rest) ← required (stringRest? .refused .plain rest)
    return (some s, rest)
  | c :: rest =>
    if slot.optional ∧ c = 'n' then do
      return (none, ← required (afterWord? ['u', 'l', 'l'] rest))
    else do
      throw (.unfit place (.kind (← describedAt (c :: rest)) "a string".toList))

/-- The entries of an object after what was found. -/
def readMembers (slots : List Slot) : Nat → Bool → Found → Text → Except RecordFault Found
  | 0, _, _, _ => .error .malformed
  | steps + 1, first, found, t => do
    let t ← match skipSpace t with
      | '\x7d' :: _ => return found
      | ',' :: rest => if first then throw .malformed else pure (skipSpace rest)
      | t => if first then pure t else throw .malformed
    match t with
    | '"' :: rest =>
      let (key, rest) ← required (stringRest? .refused .plain rest)
      let slot? := slots.find? fun slot => slot.key == key
      if slot?.isSome && (found.any fun entry => entry.1 == key) then
        throw (.unfit [] (.duplicate key))
      match skipSpace rest with
      | ':' :: rest =>
        match slot? with
        | some slot =>
          let (text, rest) ← entry slot key rest
          readMembers slots steps false ((key, text) :: found) rest
        | none =>
          let (_, rest) ← required (value? .replaced (stepBound rest) rest)
          readMembers slots steps false found rest
      | _ => throw .malformed
    | _ => throw .malformed

/-- The place of an item of an array. -/
def itemPlace (n : Nat) : Text := '[' :: Text.decimal n ++ [']']

/-- The items of an array for the slots that are left, and the rest. -/
def readItems (shape : Shape) (n : Nat) (found : Found) :
    List Slot → Text → Except RecordFault Found
  | [], t =>
    match skipSpace t with
    | ']' :: _ => .ok found
    | _ => .error .malformed
  | slot :: slots, t =>
    let next : Except RecordFault (Option Text) :=
      match skipSpace t with
      | [] => .error .malformed
      | ']' :: _ => .ok none
      | c :: rest =>
        if n = 0 then .ok (some (c :: rest))
        else if c = ',' then
          match skipSpace rest with
          | [] => .error .malformed
          | ']' :: _ => .error .malformed
          | rest => .ok (some rest)
        else .error .malformed
    match next with
    | .error fault => .error fault
    | .ok (some rest) => do
      let (text, rest) ← entry slot (itemPlace n) rest
      readItems shape (n + 1) ((slot.key, text) :: found) slots rest
    | .ok none =>
      if slot.optional then readItems shape (n + 1) found slots t
      else .error (.unfit [] (.length n (shape.name ++ " with ".toList ++
        Text.decimal shape.slots.length ++
        (if shape.slots.length = 1 then " element".toList else " elements".toList))))

/-- The first slot that must be filled and is not. -/
def missing? (slots : List Slot) (found : Found) : Option Text :=
  (slots.find? fun slot => !slot.optional && !(found.any fun entry => entry.1 == slot.key)).map
    Slot.key

/-- The record at the front of a text. -/
def readRecord (shape : Shape) (t : Text) : Except RecordFault Found :=
  match skipSpace t with
  | [] => .error .malformed
  | '[' :: rest => readItems shape 0 [] shape.slots rest
  | '\x7b' :: rest => do
    let found ← readMembers shape.slots (rest.length + 1) true [] rest
    match missing? shape.slots found with
    | some key => throw (.unfit [] (.missing key))
    | none => return found
  | t => do throw (.unfit [] (.kind (← describedAt t) shape.name))

/-- The text of an entry that was found. -/
def Found.text? (found : Found) (key : Text) : Option Text :=
  (found.find? fun entry => entry.1 == key).bind Prod.snd

end BooleanSearch.Json
