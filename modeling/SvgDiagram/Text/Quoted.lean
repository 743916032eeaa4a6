import SvgDiagram.Text.Printable

/-!
Quoted texts, as messages show them: between single quotes, or double ones when the text holds a single
quote and no double one, with everything that has no visible form escaped.
-/

namespace SvgDiagram
namespace Text

/-- The digits of a number in a base, filled with zeros up to a width. -/
def filled (base width n : Nat) : List Char :=
  let digits := Nat.toDigits base n
  List.replicate (width - digits.length) '0' ++ digits

def hex (width n : Nat) : List Char := filled 16 width n

def padded (width n : Nat) : String := String.ofList (filled 10 width n)

def escape (quote c : Char) : List Char :=
  if c == quote || c == '\\' then ['\\', c]
  else if c == '\t' then ['\\', 't']
  else if c == '\n' then ['\\', 'n']
  else if c == '\r' then ['\\', 'r']
  else if isPrintable c then [c]
  else if c.toNat < 0x100 then '\\' :: 'x' :: hex 2 c.toNat
  else if c.toNat < 0x10000 then '\\' :: 'u' :: hex 4 c.toNat
  else '\\' :: 'U' :: hex 8 c.toNat

def quoteFor (cs : List Char) : Char :=
  if cs.contains '\'' && !cs.contains '"' then '"' else '\''

def quoted (s : String) : String :=
  let quote := quoteFor s.toList
  String.ofList (quote :: s.toList.flatMap (escape quote) ++ [quote])

/-- Bytes between quotes. Only those of visible ASCII characters stand for themselves. -/
def quotedBytes (data : List UInt8) : String :=
  let cs := data.map Char.ofUInt8
  let quote := quoteFor cs
  let shown := fun c : Char => if c.toNat < 128 then escape quote c else '\\' :: 'x' :: hex 2 c.toNat
  "b" ++ String.ofList (quote :: cs.flatMap shown ++ [quote])

end Text
end SvgDiagram
