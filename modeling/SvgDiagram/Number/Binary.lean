/-!
What a double stands for: a signed integer times a power of two, an infinity, or no number.
-/

namespace SvgDiagram
namespace Number

/-- The number `± mantissa · 2 ^ exponent`. -/
structure Binary where
  negative : Bool
  mantissa : Nat
  exponent : Int
  deriving DecidableEq, Repr

inductive Decoded where
  | nan
  | infinite (negative : Bool)
  | finite (value : Binary)
  deriving DecidableEq, Repr

/-- The exponent of the least positive double, which is also that of zero and of all subnormals. -/
def leastExponent : Int := -1074

/-- Reads the sign, the eleven exponent bits and the 52 mantissa bits. -/
def decode (x : Float) : Decoded :=
  let bits : Nat := x.toBits.toNat
  let negative := bits / Nat.pow 2 63 == 1
  let biased : Nat := bits / Nat.pow 2 52 % Nat.pow 2 11
  let fraction : Nat := bits % Nat.pow 2 52
  if biased == 2047 then
    if fraction == 0 then .infinite negative else .nan
  else if biased == 0 then .finite ⟨negative, fraction, leastExponent⟩
  else .finite ⟨negative, Nat.pow 2 52 + fraction, (biased : Int) - 1075⟩

namespace Binary

def sign (b : Binary) (n : Nat) : Int := if b.negative then -(n : Int) else n

/-- The integer part, towards zero. -/
def truncate (b : Binary) : Int :=
  if 0 ≤ b.exponent then b.sign (b.mantissa * Nat.pow 2 b.exponent.toNat)
  else b.sign (b.mantissa / Nat.pow 2 (-b.exponent).toNat)

def integer? (b : Binary) : Option Int :=
  if 0 ≤ b.exponent then some b.truncate
  else if b.mantissa % Nat.pow 2 (-b.exponent).toNat == 0 then some b.truncate
  else none

end Binary
end Number
end SvgDiagram
