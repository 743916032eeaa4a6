import SvgDiagram.Number.Binary
import SvgDiagram.Value.Moment

/-!
The values that scenes, settings and tool arguments are made of. A table keeps its entries in the order
in which their keys first appeared, and a set its items.
-/

namespace SvgDiagram

inductive Value where
  | null
  | bool (b : Bool)
  | int (n : Int)
  | float (x : Float)
  | string (s : String)
  | bytes (data : List UInt8)
  | moment (m : Moment)
  | list (items : List Value)
  | pair (first second : Value)
  | set (items : List Value)
  | table (entries : List (Value × Value))
  deriving Inhabited

namespace Value

/-- The integer that a value counts as when keys are compared: the truth values are 1 and 0, and a whole
double is the integer it equals. -/
def integer? : Value → Option Int
  | .bool b => some (if b then 1 else 0)
  | .int n => some n
  | .float x =>
    match Number.decode x with
    | .finite b => b.integer?
    | _ => none
  | _ => none

/-- Whether two keys are the same key. Numbers are compared by value, whatever their kind. -/
def sameKey : Value → Value → Bool
  | .null, .null => true
  | .string s, .string t => s == t
  | .float x, .float y => x == y
  | .bytes a, .bytes b => a == b
  | .moment m, .moment n => decide (m.key = n.key)
  | .pair a b, .pair c d => a.sameKey c && b.sameKey d
  | v, w =>
    match v.integer?, w.integer? with
    | some m, some n => m == n
    | _, _ => false

/-- Whether the value may be a key. What can be changed may not. -/
def isKey : Value → Bool
  | .list _ | .set _ | .table _ => false
  | .pair a b => a.isKey && b.isKey
  | _ => true

/-- Whether the value counts as given: neither null, false, zero nor empty. -/
def isGiven : Value → Bool
  | .null => false
  | .bool b => b
  | .int n => n != 0
  | .float x => x != 0.0
  | .string s => !s.isEmpty
  | .bytes data => !data.isEmpty
  | .moment _ | .pair _ _ => true
  | .list items | .set items => !items.isEmpty
  | .table entries => !entries.isEmpty

end Value

abbrev Table := List (Value × Value)

namespace Table

def get? (t : Table) (key : Value) : Option Value :=
  (t.find? fun e => e.1.sameKey key).map Prod.snd

def field? (t : Table) (name : String) : Option Value := Table.get? t (.string name)

def contains (t : Table) (key : Value) : Bool := t.any fun e => e.1.sameKey key

/-- Sets the value of a key. A key that is there keeps its place and its spelling. -/
def set (key v : Value) : Table → Table
  | [] => [(key, v)]
  | e :: t => if e.1.sameKey key then (e.1, v) :: t else e :: Table.set key v t

def setField (t : Table) (name : String) (v : Value) : Table := Table.set (.string name) v t

def erase (t : Table) (key : Value) : Table := t.filter fun e => !e.1.sameKey key

/-- Sets every entry of the second table in the first, in order. -/
def update (t u : Table) : Table := u.foldl (fun t e => Table.set e.1 e.2 t) t

end Table
end SvgDiagram
