import BooleanSearch.Text.Basic

/-!
# Shortest decimals

A binary floating-point number stands for all reals that round to it. Its shortest decimal is the
one with the fewest digits among these reals, and the nearest if there are several. It is found by
exact arithmetic on naturals, one number of digits after the other.
-/

namespace BooleanSearch.Decimal

/-- A finite positive binary number `significand * 2 ^ exponent`. The gap to the number below is
half the gap to the number above if `narrow`. -/
structure Binary where
  significand : Nat
  exponent : Int
  narrow : Bool

/-- The number with these bits, its sign left out. -/
def Binary.ofBits (bits : UInt64) : Binary :=
  let biased := ((bits >>> 52) &&& 0x7FF).toNat
  let fraction := (bits &&& 0xFFFFFFFFFFFFF).toNat
  if biased = 0 then ⟨fraction, -1074, false⟩
  else ⟨Nat.pow 2 52 + fraction, (biased : Int) - 1075, fraction = 0 && biased > 1⟩

/-- Compares `a * 10 ^ i` with `n * 2 ^ j`. -/
def compareScaled (a : Nat) (i : Int) (n : Nat) (j : Int) : Ordering :=
  compare (a * Nat.pow 10 i.toNat * Nat.pow 2 (-j).toNat)
    (n * Nat.pow 2 j.toNat * Nat.pow 10 (-i).toNat)

/-- Whether the decimal `digits * 10 ^ scale` rounds to the number. The ends of the interval count
if the significand is even. -/
def Binary.readsBack (x : Binary) (digits : Nat) (scale : Int) : Bool :=
  let low := if x.narrow then 4 * x.significand - 1 else 4 * x.significand - 2
  let high := 4 * x.significand + 2
  let closed := x.significand % 2 = 0
  let above := compareScaled digits scale low (x.exponent - 2)
  let below := compareScaled digits scale high (x.exponent - 2)
  (above == .gt || (closed && above == .eq)) && (below == .lt || (closed && below == .eq))

/-- The greatest whole multiple of `10 ^ scale` that is not above the number. -/
def Binary.floor (x : Binary) (scale : Int) : Nat :=
  (x.significand * Nat.pow 2 x.exponent.toNat * Nat.pow 10 (-scale).toNat) /
    (Nat.pow 2 (-x.exponent).toNat * Nat.pow 10 scale.toNat)

/-- The place of the first digit: the number lies below `10 ^ magnitude` and not below a tenth of
it. -/
def Binary.magnitude (x : Binary) : Int :=
  let whole := x.floor 0
  if whole ≠ 0 then (Text.decimal whole).length
  else ((Text.decimal (x.floor (-400))).length : Int) - 400

/-- The decimal with `count` digits that reads back, if there is one: the nearest, and of two
equally near ones the even one. -/
def Binary.candidate? (x : Binary) (count : Nat) : Option (Nat × Int) :=
  let scale := x.magnitude - count
  let lower := x.floor scale
  let upper := lower + 1
  match x.readsBack lower scale, x.readsBack upper scale with
  | false, false => none
  | true, false => some (lower, scale)
  | false, true => some (upper, scale)
  | true, true =>
    match compareScaled (lower + upper) scale (2 * x.significand) x.exponent with
    | .gt => some (lower, scale)
    | .lt => some (upper, scale)
    | .eq => some (if lower % 2 = 0 then lower else upper, scale)

/-- The digits of a number without zeros at their end, and the power of ten that they count. -/
def strip : Nat → Nat → Int → Nat × Int
  | 0, digits, scale => (digits, scale)
  | fuel + 1, digits, scale =>
    if digits ≠ 0 ∧ digits % 10 = 0 then strip fuel (digits / 10) (scale + 1) else (digits, scale)

/-- The shortest decimal `digits * 10 ^ scale` of a number that is not zero. Seventeen digits
always suffice. -/
def Binary.shortest (x : Binary) : Nat × Int :=
  match (List.range 17).findSome? fun n => x.candidate? (n + 1) with
  | some (digits, scale) => strip 20 digits scale
  | none => (x.floor (x.magnitude - 17), x.magnitude - 17)

end BooleanSearch.Decimal
