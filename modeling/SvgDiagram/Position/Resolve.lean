import SvgDiagram.Position.Centre
import SvgDiagram.Position.Expression

/-!
Positions relative to other elements. Elements are taken in order: an expression may name any element
before it, and of several with one id the last. A connection may name any element of the scene, and
becomes a line between two centres. Connections come first, so that they are drawn below the rest.
-/

namespace SvgDiagram
namespace Position

def attributes : List String :=
  ["x", "y", "cx", "cy", "x1", "y1", "x2", "y2", "width", "height", "r", "rx", "ry"]

def isAttribute : Value → Bool
  | .string s => attributes.contains s
  | _ => false

def isConnection (element : Value) : Except Fault Bool := do
  match ← element.part? "type" with
  | some kind => return kind.isText "connection"
  | none => return false

/-- The connections and the other elements, each in their order. -/
def split : List Value → Except Fault (List Value × List Value)
  | [] => .ok ([], [])
  | e :: rest => do
    let connected ← isConnection e
    let (connections, others) ← split rest
    return if connected then (e :: connections, others) else (connections, e :: others)

/-- The entries with every expression under a position attribute replaced by its value. -/
def resolveEntries (registry : Table) : Table → Except Fault Table
  | [] => .ok []
  | (key, v) :: rest =>
    match v with
    | .string s =>
      if isAttribute key then do
        let x ← evalText (.table registry) s
        return (key, .float x) :: (← resolveEntries registry rest)
      else do return (key, v) :: (← resolveEntries registry rest)
    | _ => do return (key, v) :: (← resolveEntries registry rest)

def register (registry : Table) (element : Table) : Except Fault Table :=
  let id := (Table.field? element "id").getD .null
  if !id.isGiven then .ok registry
  else if id.isKey then .ok (Table.set id (.table element) registry)
  else .error .wrongShape

/-- Resolves the elements in order, and collects the registry of all of them. -/
def resolveElements (registry : Table) : List Value → Except Fault (List Value × Table)
  | [] => .ok ([], registry)
  | e :: rest => do
    let resolved ← resolveEntries registry (← e.entries)
    let registry ← register registry resolved
    let (others, registry) ← resolveElements registry rest
    return (.table resolved :: others, registry)

def endElement (registry : Table) (id : Value) : Except Fault Value := do
  match ← Value.lookup? registry id with
  | some e => return e
  | none => throw (.unknownElement id.text)

def resolveConnection (registry : Table) (connection : Value) : Except Fault Value := do
  let entries ← connection.entries
  let source ← endElement registry ((Table.field? entries "from").getD .null)
  let target ← endElement registry ((Table.field? entries "to").getD .null)
  let a ← centre source
  let b ← centre target
  let ends := [("x1", a.x), ("y1", a.y), ("x2", b.x), ("y2", b.y)]
  return .table (ends.foldl (fun t e => Table.setField t e.1 (.float e.2)) entries)

/-- The elements with all positions resolved, connections first. -/
def resolve (elements : Value) : Except Fault (List Value) := do
  let (connections, others) ← split (← elements.items)
  let (others, registry) ← resolveElements [] others
  let connections ← connections.mapM (resolveConnection registry)
  return connections ++ others

end Position
end SvgDiagram
