import SvgDiagram.Value.Shape
import SvgDiagram.Yaml.Binary
import SvgDiagram.Yaml.Node
import SvgDiagram.Yaml.Scan

/-!
The value of a document.
-/

namespace SvgDiagram
namespace Yaml

def withoutUnderscores (text : String) : List Char := text.toList.filter (· != '_')

/-- The sign of a numeral and what follows. An empty text has no first character to look at. -/
def signOf (cs : List Char) : Except Fault (Bool × List Char) :=
  match cs with
  | [] => .error .emptyText
  | c :: rest => .ok (if c == '-' then (true, rest) else if c == '+' then (false, rest) else (false, cs))

def betweenColons (cs : List Char) : List String := (cs.splitOn ':').map String.ofList

/-- An integer without its sign. The first part of several between colons counts most. -/
def magnitudeInt (cs : List Char) : Except Fault Int :=
  match cs with
  | [] => .error .emptyText
  | ['0'] => .ok 0
  | '0' :: 'b' :: rest => Value.textToInt 2 (String.ofList rest)
  | '0' :: 'x' :: rest => Value.textToInt 16 (String.ofList rest)
  | '0' :: _ => Value.textToInt 8 (String.ofList cs)
  | _ =>
    if cs.contains ':' then do
      let parts ← (betweenColons cs).mapM (Value.textToInt 10)
      return parts.foldl (fun n d => n * 60 + d) 0
    else Value.textToInt 10 (String.ofList cs)

def intOf (text : String) : Except Fault Value := do
  let (negative, cs) ← signOf (withoutUnderscores text)
  let n ← magnitudeInt cs
  return .int (if negative then -n else n)

/-- The sum of the parts, the last one first, each times its power of sixty. -/
def sixtiesReal (parts : List Float) : Float :=
  (parts.reverse.foldl (fun (sum, base) d => (sum + d * Float.ofNat base, base * 60))
    ((0.0 : Float), (1 : Nat))).1

def magnitudeReal (cs : List Char) : Except Fault Float :=
  let read := fun (s : String) => (Value.string s).toFloat
  if cs == ".inf".toList then .ok (1.0 / 0.0)
  else if cs == ".nan".toList then .ok (0.0 / 0.0)
  else if cs.contains ':' then do return sixtiesReal (← (betweenColons cs).mapM read)
  else read (String.ofList cs)

def realOf (text : String) : Except Fault Value := do
  let (negative, cs) ← signOf ((withoutUnderscores text).map Char.toLower)
  let x ← magnitudeReal cs
  return .float (if negative then -x else x)

def boolOf (text : String) : Except Fault Value :=
  let word := String.ofList (text.toList.map Char.toLower)
  if Kind.trues.contains word then .ok (.bool true)
  else if Kind.falses.contains word then .ok (.bool false)
  else .error (.missingKey word)

def scalarValue (kind : Kind) (text : String) : Except Fault Value :=
  match kind with
  | .null => .ok .null
  | .bool => boolOf text
  | .int => intOf text
  | .real => realOf text
  | .timestamp => do return .moment (← Timestamp.ofText text)
  | .binary => do return .bytes (← Binary.ofText text)
  | .text => .ok (.string text)
  | _ => .error .malformedDocument

def isMerge : Node → Bool
  | .scalar .merge _ => true
  | _ => false

def isEquals : Node → Bool
  | .scalar .equals _ => true
  | _ => false

mutual

/-- The text of a node that is tagged as a scalar. A mapping has the one under its equals sign. -/
def scalarText? : Node → Option String
  | .scalar _ text => some text
  | .sequence _ _ => none
  | .mapping _ pairs => textUnderEquals? pairs

def textUnderEquals? : List (Node × Node) → Option String
  | [] => none
  | (k, v) :: rest => if isEquals k then scalarText? v else textUnderEquals? rest

end

/-- The value of a mapping that is tagged as a scalar. A timestamp is looked for in the mapping itself, which
is no text. -/
def taggedMapping (kind : Kind) (pairs : List (Node × Node)) : Except Fault Value :=
  match textUnderEquals? pairs with
  | some text => if kind == .timestamp then .error .wrongShape else scalarValue kind text
  | none => .error .malformedDocument

/-- A key. The equals sign is a text there. -/
def keyOf (v : Value) : Except Fault Value := if v.isKey then .ok v else .error .malformedDocument

mutual

def valueOf : Node → Except Fault Value
  | .scalar kind text => scalarValue kind text
  | .sequence kind items =>
    match kind with
    | .sequence => do return .list (← valuesOf items)
    | .pairs => do return .list (← pairsOf items)
    | _ => .error .malformedDocument
  | .mapping kind pairs =>
    match kind with
    | .mapping => do
      let (merged, own) ← entriesOf pairs
      return .table (Table.update [] (merged ++ own))
    | .set => do
      let (merged, own) ← entriesOf pairs
      return .set ((Table.update [] (merged ++ own)).map Prod.fst)
    | _ => taggedMapping kind pairs

def valuesOf : List Node → Except Fault (List Value)
  | [] => .ok []
  | n :: rest => do
    let v ← valueOf n
    return v :: (← valuesOf rest)

/-- The pairs that mappings with one entry each stand for. -/
def pairsOf : List Node → Except Fault (List Value)
  | [] => .ok []
  | .mapping _ [(k, v)] :: rest => do
    let key ← valueOf k
    let value ← valueOf v
    return .pair key value :: (← pairsOf rest)
  | _ => .error .malformedDocument

/-- The entries that a mapping takes in, and its own ones. -/
def entriesOf : List (Node × Node) → Except Fault (Table × Table)
  | [] => .ok ([], [])
  | (k, v) :: rest =>
    if isMerge k then do
      let taken ← mergedOf v
      let (merged, own) ← entriesOf rest
      return (taken ++ merged, own)
    else do
      let key ← match k with
        | .scalar .equals text => pure (Value.string text)
        | _ => do keyOf (← valueOf k)
      let value ← valueOf v
      let (merged, own) ← entriesOf rest
      return (merged, (key, value) :: own)

/-- The entries of what a mapping takes in: a mapping, or a list of mappings in which the first one
counts most. -/
def mergedOf : Node → Except Fault Table
  | .mapping _ pairs => do
    let (merged, own) ← entriesOf pairs
    return merged ++ own
  | .sequence _ items => do return (← mergedItems items).reverse.flatten
  | .scalar _ _ => .error .malformedDocument

def mergedItems : List Node → Except Fault (List Table)
  | [] => .ok []
  | n :: rest =>
    match n with
    | .mapping _ pairs => do
      let (merged, own) ← entriesOf pairs
      return (merged ++ own) :: (← mergedItems rest)
    | _ => .error .malformedDocument

end

/-- The value that a text stands for. A text without a document stands for nothing. -/
def load (text : String) : Except Fault Value := do
  match ← Node.ofTokens (← tokens text) with
  | none => return .null
  | some n => valueOf n

/-- The value of a text that is given as the data that encodes it. -/
def loadBytes (data : List UInt8) : Except Fault Value :=
  match String.fromUTF8? ⟨data.toArray⟩ with
  | some text => load text
  | none => .error .malformedDocument

end Yaml
end SvgDiagram
