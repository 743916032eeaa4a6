import SvgDiagram.Number.Binary

/-!
The decimal with the fewest digits that rounds to a given double, and of those the nearest one.

A double `m · 2 ^ q` is the nearest double of every real between the midpoints to its two neighbours,
and of the midpoints themselves when `m` is even. All of these are multiples of `2 ^ (q - 2)`, so the
interval is kept as three naturals over one denominator and every comparison is exact.
-/

namespace SvgDiagram
namespace Number

/-- The positive decimal `digits · 10 ^ exponent`. -/
structure Decimal where
  digits : Nat
  exponent : Int
  deriving DecidableEq, Repr

/-- The reals that round to one positive double: from `low / unit` to `high / unit` around
`centre / unit`, with the ends if `closed`. -/
structure Interval where
  low : Nat
  centre : Nat
  high : Nat
  unit : Nat
  closed : Bool

namespace Interval

/-- Below a power of two the neighbour is only half as far away, unless the double is the least one of
its kind. -/
def ofBinary (b : Binary) : Interval :=
  let gap := if b.mantissa == Nat.pow 2 52 && b.exponent != leastExponent then 1 else 2
  let up := Nat.pow 2 (b.exponent - 2).toNat
  { low := (4 * b.mantissa - gap) * up
    centre := 4 * b.mantissa * up
    high := (4 * b.mantissa + 2) * up
    unit := Nat.pow 2 (2 - b.exponent).toNat
    closed := b.mantissa % 2 == 0 }

/-- The interval with every bound divided by `10 ^ k`. -/
def scale (i : Interval) (k : Int) : Interval :=
  let down := Nat.pow 10 k.toNat
  let up := Nat.pow 10 (-k).toNat
  { i with low := i.low * up, centre := i.centre * up, high := i.high * up, unit := i.unit * down }

def contains (i : Interval) (n : Nat) : Bool :=
  if i.closed then i.low ≤ n * i.unit && n * i.unit ≤ i.high
  else i.low < n * i.unit && n * i.unit < i.high

/-- Of the two integers around the centre, the one in the interval that is nearer to it; of two equally
near ones the even one. -/
def nearest? (i : Interval) : Option Nat :=
  let below := i.centre / i.unit
  let rest := i.centre - below * i.unit
  let belowFirst := 2 * rest < i.unit || (2 * rest == i.unit && below % 2 == 0)
  let order := if belowFirst then [below, below + 1] else [below + 1, below]
  order.find? i.contains

end Interval

/-- The number of decimal digits of `n`, at least one. -/
def digitCount (n : Nat) : Nat := (Nat.toDigits 10 n).length

/-- The least `k` for which `n · 10 ^ k` reaches `unit`, within the fuel. -/
def leadingZeros (n unit : Nat) : Nat → Nat
  | 0 => 0
  | fuel + 1 => if unit ≤ n then 0 else leadingZeros (n * 10) unit fuel + 1

def firstExponent (n unit : Nat) : Int :=
  if unit ≤ n then (digitCount (n / unit) : Int) - 1
  else -(leadingZeros n unit 400 : Int)

/-- Seventeen digits always read back. -/
def digitLimit : Nat := 17

/-- Tries `count`, `count + 1`, … digits. -/
def shortestFrom (i : Interval) (first : Int) (count : Nat) : Nat → Option Decimal
  | 0 => none
  | fuel + 1 =>
    let exponent := first - (count : Int) + 1
    match (i.scale exponent).nearest? with
    | some digits => some ⟨digits, exponent⟩
    | none => shortestFrom i first (count + 1) fuel

def Decimal.trim (d : Decimal) : Nat → Decimal
  | 0 => d
  | fuel + 1 =>
    if d.digits != 0 && d.digits % 10 == 0 then Decimal.trim ⟨d.digits / 10, d.exponent + 1⟩ fuel else d

def shortest (b : Binary) : Decimal :=
  let i := Interval.ofBinary b
  match shortestFrom i (firstExponent i.centre i.unit) 1 digitLimit with
  | some d => d.trim (digitLimit + 1)
  | none => ⟨0, 0⟩

end Number
end SvgDiagram
