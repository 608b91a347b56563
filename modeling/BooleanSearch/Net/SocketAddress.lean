import BooleanSearch.Text.Basic

/-!
# Socket addresses

The text of an address that a service can listen on: an IPv4 address and a port as in
`127.0.0.1:8080`, or an IPv6 address in brackets, possibly with a scope, and a port as in
`[::1]:8080`. Each reader takes what it can from the front of a text and returns the rest.
-/

namespace BooleanSearch.SocketAddress

/-- A decimal digit's value. -/
def decimalValue? (c : Char) : Option Nat :=
  if c.isDigit then some (c.toNat - '0'.toNat) else none

/-- The digits at the front of a text with the number that they stand for, and the rest. -/
def digits (base : Nat) (value? : Char → Option Nat) :
    Nat → Nat → Text → Nat × Nat × Text
  | count, value, [] => (count, value, [])
  | count, value, c :: cs =>
    match value? c with
    | some digit => digits base value? (count + 1) (base * value + digit) cs
    | none => (count, value, c :: cs)

/-- A number up to `limit` in decimal digits, of which there may be any number. -/
def number? (limit : Nat) (t : Text) : Option (Nat × Text) :=
  let (count, value, rest) := digits 10 decimalValue? 0 0 t
  if count = 0 ∨ limit < value then none else some (value, rest)

/-- A group of an IPv4 address: up to three digits, without a leading zero, at most 255. -/
def octet? (t : Text) : Option (Nat × Text) :=
  let (count, value, rest) := digits 10 decimalValue? 0 0 t
  if count = 0 ∨ 3 < count ∨ (t.head? = some '0' ∧ 1 < count) ∨ 255 < value then none
  else some (value, rest)

/-- A group of an IPv6 address: one to four hexadecimal digits. -/
def group? (t : Text) : Option (Nat × Text) :=
  let (count, value, rest) := digits 16 Text.hexValue? 0 0 t
  if count = 0 ∨ 4 < count then none else some (value, rest)

/-- The rest of a text that starts with this character. -/
def after? (c : Char) : Text → Option Text
  | [] => none
  | d :: rest => if d = c then some rest else none

/-- The rest after an IPv4 address. -/
def afterV4? (t : Text) : Option Text := do
  let (_, t) ← octet? t
  let (_, t) ← octet? (← after? '.' t)
  let (_, t) ← octet? (← after? '.' t)
  let (_, t) ← octet? (← after? '.' t)
  return t

/-- The groups at the front of a text, of which there may be at most `room`: how many were read,
whether an IPv4 address stood for the last two, and the rest. A colon stands before each group but
the first. -/
def groups (first : Bool) : Nat → Text → Nat × Bool × Text
  | 0, t => (0, false, t)
  | room + 1, t =>
    let next := if first then some t else after? ':' t
    match if room = 0 then none else next.bind afterV4? with
    | some rest => (2, true, rest)
    | none =>
      match next.bind group? with
      | some (_, rest) =>
        let (count, embedded, rest) := groups false room rest
        (count + 1, embedded, rest)
      | none => (0, false, t)

/-- The rest after an IPv6 address. Two colons stand for at least one group of zeros. -/
def afterV6? (t : Text) : Option Text :=
  let (count, embedded, rest) := groups true 8 t
  if count = 8 then some rest
  else if embedded then none
  else do
    let rest ← after? ':' (← after? ':' rest)
    let (_, _, rest) := groups true (7 - count) rest
    return rest

/-- The rest after a scope, which may be left out. -/
def afterScope (t : Text) : Text :=
  match after? '%' t with
  | none => t
  | some rest =>
    match number? (Nat.pow 2 32 - 1) rest with
    | some (_, rest) => rest
    | none => t

/-- The rest after a colon and a port. -/
def afterPort? (t : Text) : Option Text := do
  let (_, rest) ← number? (Nat.pow 2 16 - 1) (← after? ':' t)
  return rest

/-- The rest after a socket address. -/
def afterAddress? (t : Text) : Option Text :=
  match (afterV4? t).bind afterPort? with
  | some rest => some rest
  | none => do
    let rest ← afterV6? (← after? '[' t)
    afterPort? (← after? ']' (afterScope rest))

/-- Whether a text is a socket address. -/
def isValid (t : Text) : Bool := afterAddress? t == some []

/-- Why a text that is no socket address cannot be looked up by name either. -/
inductive LookupFault where
  /-- It has no colon. -/
  | address
  /-- What follows its last colon is no port. -/
  | port
  deriving DecidableEq, Repr

/-- The message of a fault. -/
def LookupFault.message : LookupFault → Text
  | .address => "invalid socket address".toList
  | .port => "invalid port value".toList

/-- Whether a text is a port, possibly with a sign `+`. -/
def isPort (t : Text) : Bool :=
  let digits := match t with
    | '+' :: rest => rest
    | t => t
  (number? (Nat.pow 2 16 - 1) digits).map Prod.snd == some []

/-- Why a service cannot even try to listen here; `none` if it can. -/
def lookupFault? (t : Text) : Option LookupFault :=
  if isValid t then none
  else match Text.splitLast? ':' t with
    | none => some .address
    | some (_, port) => if isPort port then none else some .port

end BooleanSearch.SocketAddress
