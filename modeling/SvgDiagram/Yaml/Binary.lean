import SvgDiagram.Fault

/-!
Data written in sixty-four characters. Four of them stand for three bytes; what is no such character is
passed over, and the sign that fills the last four up ends the data.
-/

namespace SvgDiagram
namespace Yaml
namespace Binary

def digit? (c : Char) : Option Nat :=
  if c.isUpper then some (c.toNat - 65)
  else if c.isLower then some (c.toNat - 71)
  else if c.isDigit then some (c.toNat + 4)
  else if c == '+' then some 62
  else if c == '/' then some 63
  else none

/-- How many digits of four have been read, the bits of the last one that are not in a byte yet, and how
many filling signs have come since. -/
structure State where
  place : Nat
  left : Nat
  fills : Nat

def State.push (s : State) (d : Nat) : List UInt8 × State :=
  match s.place with
  | 0 => ([], ⟨1, d, 0⟩)
  | 1 => ([UInt8.ofNat (s.left * 4 + d / 16)], ⟨2, d % 16, 0⟩)
  | 2 => ([UInt8.ofNat (s.left * 16 + d / 4)], ⟨3, d % 4, 0⟩)
  | _ => ([UInt8.ofNat (s.left * 64 + d)], ⟨0, 0, 0⟩)

/-- The bytes of the characters that are left. Without a filling sign the last four must be complete. -/
def decodeFrom? (s : State) : List Char → Option (List UInt8)
  | [] => if s.place == 0 then some [] else none
  | c :: cs =>
    if c == '=' then
      if s.place < 2 then decodeFrom? s cs
      else if 4 ≤ s.place + s.fills + 1 then some []
      else decodeFrom? { s with fills := s.fills + 1 } cs
    else
      match digit? c with
      | some d =>
        let (bytes, s) := s.push d
        (decodeFrom? s cs).map (bytes ++ ·)
      | none => decodeFrom? s cs

def ofText (text : String) : Except Fault (List UInt8) :=
  if text.toList.all fun c => c.toNat < 128 then
    match decodeFrom? ⟨0, 0, 0⟩ text.toList with
    | some bytes => .ok bytes
    | none => .error .malformedDocument
  else .error .malformedDocument

end Binary
end Yaml
end SvgDiagram
