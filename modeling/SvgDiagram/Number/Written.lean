import SvgDiagram.Number.Shortest

/-!
The text of a number: its shortest digits, positional for first exponents from −4 to 15, otherwise with
an exponent of at least two digits and a sign. A whole number keeps one place after the point.
-/

namespace SvgDiagram
namespace Number

/-- Where positional notation begins and ends, and how wide an exponent is. -/
structure Layout where
  leastPositional : Int
  mostPositional : Int
  exponentWidth : Nat

def layout : Layout := ⟨-4, 15, 2⟩

def exponentText (width : Nat) (e : Int) : List Char :=
  let digits := Nat.toDigits 10 e.natAbs
  'e' :: (if e < 0 then '-' else '+') :: List.replicate (width - digits.length) '0' ++ digits

/-- A positive decimal: the digits with the point after place `first`, counted from the first digit's
exponent. -/
def Decimal.text (l : Layout) (d : Decimal) : List Char :=
  let digits := Nat.toDigits 10 d.digits
  let first := d.exponent + (digits.length : Int) - 1
  if first < l.leastPositional || l.mostPositional < first then
    let rest := digits.drop 1
    digits.take 1 ++ (if rest.isEmpty then [] else '.' :: rest) ++ exponentText l.exponentWidth first
  else if first < 0 then
    '0' :: '.' :: List.replicate (-first - 1).toNat '0' ++ digits
  else
    let whole := first.toNat + 1
    let fraction := digits.drop whole
    digits.take whole ++ List.replicate (whole - digits.length) '0' ++
      '.' :: (if fraction.isEmpty then ['0'] else fraction)

def written (x : Float) : String :=
  match decode x with
  | .nan => "nan"
  | .infinite negative => if negative then "-inf" else "inf"
  | .finite b =>
    let magnitude := if b.mantissa == 0 then ['0', '.', '0'] else (shortest b).text layout
    String.ofList (if b.negative then '-' :: magnitude else magnitude)

end Number
end SvgDiagram
