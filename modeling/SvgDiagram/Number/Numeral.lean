import SvgDiagram.Number.Shortest
import SvgDiagram.Text.Blank
import SvgDiagram.Text.Digit

/-!
Numerals as people write them: blanks around, a sign, digits of any script, single underscores between
digits, and for reals a fraction, an exponent, or the words for infinity and for no number.
-/

namespace SvgDiagram
namespace Number

/-- A digit of any script as the ASCII digit of its value. -/
def plainDigit (c : Char) : Char :=
  match Text.digitValue? c with
  | some d => Char.ofNat (48 + d)
  | none => c

def normalised (s : String) : List Char :=
  (Text.trimBoth Text.isPadding s.toList).map plainDigit

/-- The text without its underscores, each of which must stand between two digits. `previous` tells
whether the character before was a digit. -/
def joinDigits? (previous : Bool) : List Char → Option (List Char)
  | [] => some []
  | '_' :: c :: cs => if previous && c.isDigit then (joinDigits? true cs).map (c :: ·) else none
  | c :: cs => if c == '_' then none else (joinDigits? c.isDigit cs).map (c :: ·)

def takeSign : List Char → Bool × List Char
  | '-' :: cs => (true, cs)
  | '+' :: cs => (false, cs)
  | cs => (false, cs)

def ofDigits (base : Nat) (ds : List Char) : Nat :=
  ds.foldl (fun n d => n * base + (Text.digitValue? d).getD 0) 0

/-- A decimal beyond these orders of magnitude is infinite, or zero. -/
def greatestOrder : Int := 310
def leastOrder : Int := -330

/-- The double nearest to `digits · 10 ^ exponent`. -/
def Decimal.toFloat (d : Decimal) : Float :=
  let order := d.exponent + (digitCount d.digits : Int)
  if d.digits == 0 || order < leastOrder then 0.0
  else if greatestOrder < order then 1.0 / 0.0
  else Float.ofScientific d.digits (d.exponent < 0) d.exponent.natAbs

def readExponent? : List Char → Option Int
  | [] => some 0
  | c :: cs =>
    if c == 'e' || c == 'E' then
      let (negative, ds) := takeSign cs
      if !ds.isEmpty && ds.all Char.isDigit then
        some (if negative then -(ofDigits 10 ds : Int) else ofDigits 10 ds)
      else none
    else none

/-- An unsigned decimal: digits with a point anywhere among them, and perhaps an exponent. -/
def readDecimal? (cs : List Char) : Option Decimal :=
  let (whole, rest) := cs.span Char.isDigit
  let (fraction, rest) := match rest with
    | '.' :: r => r.span Char.isDigit
    | r => ([], r)
  if whole.isEmpty && fraction.isEmpty then none
  else (readExponent? rest).map fun e =>
    ⟨ofDigits 10 (whole ++ fraction), e - (fraction.length : Int)⟩

/-- An unsigned real, infinity and the word for no number included. -/
def readMagnitude? (cs : List Char) : Option Float :=
  let word := String.ofList (cs.map Char.toLower)
  if word == "inf" || word == "infinity" then some (1.0 / 0.0)
  else if word == "nan" then some (0.0 / 0.0)
  else (readDecimal? cs).map Decimal.toFloat

def readFloat? (s : String) : Option Float := do
  let (negative, cs) := takeSign (← joinDigits? false (normalised s))
  let x ← readMagnitude? cs
  return if negative then -x else x

/-- A numeral has blanks around it, or underscores in it, and not both. -/
def plainBody? (cs : List Char) : Option (List Char) :=
  if cs.contains '_' then joinDigits? false cs else some (Text.trimBoth Text.isPadding cs)

/-- The real that a text stands for where digits of other scripts are none. -/
def readPlainFloat? (s : String) : Option Float := do
  let (negative, cs) := takeSign (← plainBody? s.toList)
  let x ← readMagnitude? cs
  return if negative then -x else x

/-- Numerals in base ten have at most so many digits. -/
def intDigitLimit : Nat := 4300

inductive IntReading where
  | value (n : Int)
  | malformed
  | tooLong (digits : Nat)
  deriving DecidableEq, Repr

/-- The value of a character as a digit, letters counting from ten on. -/
def letterDigit? (c : Char) : Option Nat :=
  if c.isDigit then some (c.toNat - 48)
  else if c.isLower then some (c.toNat - 87)
  else if c.isUpper then some (c.toNat - 55)
  else none

/-- The digits of an integer numeral. An underscore must stand between two of them. -/
def takeDigits? (base : Nat) (previous : Bool) : List Char → Option (List Nat)
  | [] => if previous then some [] else none
  | c :: cs =>
    if c == '_' then if previous then takeDigits? base false cs else none
    else match letterDigit? c with
      | some d => if d < base then (takeDigits? base true cs).map (d :: ·) else none
      | none => none

/-- The marks that may stand before the digits in the bases two, eight and sixteen. -/
def baseMarks (base : Nat) : List Char :=
  if base == 16 then ['x', 'X'] else if base == 8 then ['o', 'O'] else if base == 2 then ['b', 'B']
  else []

def dropBaseMark (base : Nat) : List Char → List Char
  | '0' :: c :: cs =>
    if (baseMarks base).contains c then
      match cs with
      | '_' :: r => r
      | r => r
    else '0' :: c :: cs
  | cs => cs

def readInt (base : Nat) (s : String) : IntReading :=
  let (negative, cs) := takeSign (normalised s)
  match takeDigits? base false (dropBaseMark base cs) with
  | none => .malformed
  | some ds =>
    if base == 10 && intDigitLimit < ds.length then .tooLong ds.length
    else
      let n := ds.foldl (fun n d => n * base + d) 0
      .value (if negative then -(n : Int) else n)

end Number
end SvgDiagram
