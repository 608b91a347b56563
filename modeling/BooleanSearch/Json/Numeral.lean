import BooleanSearch.Decimal.Shortest

/-!
# JSON numbers

A JSON number is kept as it is written. It counts as an integer if it has neither fraction nor
exponent and fits in 64 bits, and else as a floating-point number.
-/

namespace BooleanSearch.Json

/-- A JSON number as it is written: its sign, the digits before and after the point, and the
exponent with its sign. -/
structure Numeral where
  negative : Bool
  whole : Text
  fraction : Option Text
  exponent : Option (Bool × Text)
  deriving DecidableEq, Repr

namespace Numeral

/-- The numeral of an integer. -/
def ofInt (n : Int) : Numeral := ⟨n < 0, Text.decimal n.natAbs, none, none⟩

/-- Adds digits to a significand of 64 bits as long as they fit. The result is the significand,
the number of digits that it took, and the number of those left over. -/
def absorb (significand taken : Nat) : Text → Nat × Nat × Nat
  | [] => (significand, taken, 0)
  | digit :: digits =>
    let next := 10 * significand + (digit.toNat - '0'.toNat)
    if next < Nat.pow 2 64 then absorb next (taken + 1) digits
    else (significand, taken, digits.length + 1)

/-- A floating-point number times a power of ten; `none` beyond the greatest finite number. The
exponent is brought into the range of the type in steps. -/
def scale : Nat → Float → Int → Option Float
  | 0, x, _ => some x
  | fuel + 1, x, e =>
    if e.natAbs ≤ 308 then
      let power := Float.ofScientific 1 false e.natAbs
      if e < 0 then some (x / power)
      else if (x * power).isInf then none else some (x * power)
    else if x == 0 then some x
    else if e < 0 then scale fuel (x / Float.ofScientific 1 false 308) (e + 308)
    else none

/-- The absolute value as a floating-point number; `none` if it is out of range. -/
def magnitude? (n : Numeral) : Option Float :=
  let (significand, _, skipped) := absorb 0 0 n.whole
  let (significand, taken, _) := absorb significand 0 (n.fraction.getD [])
  let base : Int := (skipped : Int) - taken
  match n.exponent with
  | none => scale 4 (Float.ofNat significand) base
  | some (negative, digits) =>
    let power := Text.ofDecimal digits
    if power ≥ Nat.pow 2 31 then if significand = 0 ∨ negative then some 0 else none
    else scale 4 (Float.ofNat significand) (if negative then base - power else base + power)

/-- The decimal `digits * 10 ^ scale`: positional from `1e-5` to below `1e16`, and else with an
exponent after the first digit. -/
def layout (digits : Text) (scale : Int) : Text :=
  let point : Int := digits.length + scale
  if 0 ≤ scale ∧ point ≤ 16 then digits ++ List.replicate scale.toNat '0' ++ ['.', '0']
  else if 0 < point ∧ point ≤ 16 then
    digits.take point.toNat ++ '.' :: digits.drop point.toNat
  else if -5 < point ∧ point ≤ 0 then
    ['0', '.'] ++ List.replicate (-point).toNat '0' ++ digits
  else
    let power := point - 1
    let exponent := (if power < 0 then ['-'] else []) ++ Text.decimal power.natAbs
    match digits with
    | first :: second :: rest => first :: '.' :: second :: rest ++ 'e' :: exponent
    | digits => digits ++ 'e' :: exponent

/-- The shortest text of a floating-point number that is not negative. -/
def floatText (x : Float) : Text :=
  if x == 0 then ['0', '.', '0']
  else
    let (digits, scale) := (Decimal.Binary.ofBits x.toBits).shortest
    layout (Text.decimal digits) scale

/-- What a number is called where it does not fit; `none` if it is out of range. -/
def described? (n : Numeral) : Option Text :=
  let sign := if n.negative then ['-'] else []
  let value := Text.ofDecimal n.whole
  let fits := if n.negative then 0 < value ∧ value ≤ Nat.pow 2 63 else value < Nat.pow 2 64
  if n.fraction.isNone ∧ n.exponent.isNone ∧ fits then
    some ("integer \x60".toList ++ sign ++ Text.decimal value ++ ['\x60'])
  else n.magnitude?.map fun x =>
    "floating point \x60".toList ++ sign ++ floatText x ++ ['\x60']

end Numeral

end BooleanSearch.Json
