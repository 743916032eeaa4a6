import SvgDiagram.Fault
import SvgDiagram.Number.Numeral
import SvgDiagram.Text.Substring
import SvgDiagram.Value.Written

/-!
What can be asked of a value of any shape: its parts, its items, whether it holds a text, the number it
stands for. Each question has one answer or one fault for every shape.
-/

namespace SvgDiagram
namespace Value

/-- The entries of a table. Nothing else has named parts. -/
def entries : Value → Except Fault Table
  | .table t => .ok t
  | _ => .error .noParts

def part? (v : Value) (name : String) : Except Fault (Option Value) := do
  return Table.field? (← v.entries) name

def part (v : Value) (name : String) : Except Fault Value :=
  match v with
  | .table t =>
    match Table.field? t name with
    | some w => .ok w
    | none => .error (.missingKey name)
  | _ => .error .wrongShape

/-- What a pass over the value meets: the items of a list, a pair or a set, the characters of a text, the
bytes of data, the keys of a table. -/
def items : Value → Except Fault (List Value)
  | .list vs | .set vs => .ok vs
  | .pair a b => .ok [a, b]
  | .bytes data => .ok (data.map fun b => .int b.toNat)
  | .string s => .ok (s.toList.map fun c => .string (String.ofList [c]))
  | .table t => .ok (t.map Prod.fst)
  | _ => .error .wrongShape

/-- Whether the value holds a text: as a key of a table, as an item of a list, a pair or a set, as a part
of a text. -/
def holds (v : Value) (name : String) : Except Fault Bool :=
  match v with
  | .table t => .ok (Table.contains t (.string name))
  | .list vs | .set vs => .ok (vs.any fun w => w.sameKey (.string name))
  | .pair a b => .ok (a.sameKey (.string name) || b.sameKey (.string name))
  | .string s => .ok (Text.occursIn name.toList s.toList)
  | _ => .error .wrongShape

/-- The value under a key that need not be a text. -/
def lookup? (t : Table) (key : Value) : Except Fault (Option Value) :=
  if key.isKey then .ok (Table.get? t key) else .error .wrongShape

/-- The double nearest to an integer, unless it is beyond them all. -/
def intToFloat (n : Int) : Except Fault Float :=
  let x := (Number.Decimal.toFloat ⟨n.natAbs, 0⟩)
  if x.isInf then .error .tooLargeForFloat else .ok (if n < 0 then -x else x)

def asciiText? (data : List UInt8) : Option String :=
  if data.all (· < 128) then some (String.ofList (data.map Char.ofUInt8)) else none

def toFloat : Value → Except Fault Float
  | .bool b => .ok (if b then 1.0 else 0.0)
  | .int n => intToFloat n
  | .float x => .ok x
  | .string s =>
    match Number.readFloat? s with
    | some x => .ok x
    | none => .error (.notReal s)
  | .bytes data =>
    match (asciiText? data).bind Number.readFloat? with
    | some x => .ok x
    | none => .error (.bytesNotReal data)
  | _ => .error .wrongShape

def ofReading (malformed : Fault) : Number.IntReading → Except Fault Int
  | .value n => .ok n
  | .malformed => .error malformed
  | .tooLong count => .error (.tooManyDigits count)

def textToInt (base : Nat) (s : String) : Except Fault Int :=
  ofReading (.notInteger base s) (Number.readInt base s)

/-- The integer that the value stands for. A real loses its fraction. -/
def toInt : Value → Except Fault Int
  | .bool b => .ok (if b then 1 else 0)
  | .int n => .ok n
  | .float x =>
    match Number.decode x with
    | .nan => .error .nanInteger
    | .infinite _ => .error .infiniteInteger
    | .finite b => .ok b.truncate
  | .string s => textToInt 10 s
  | .bytes data =>
    ofReading (.bytesNotInteger data) (((asciiText? data).map (Number.readInt 10)).getD .malformed)
  | _ => .error .wrongShape

def isText (v : Value) (s : String) : Bool :=
  match v with
  | .string t => t == s
  | _ => false

end Value
end SvgDiagram
