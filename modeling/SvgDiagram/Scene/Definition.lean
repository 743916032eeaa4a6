import SvgDiagram.Value.Shape

/-!
Definitions and their uses. An element that uses a definition becomes a copy of it, with the element's
other entries set in the copy. Definitions come from libraries and from the scene; later ones replace
earlier ones.
-/

namespace SvgDiagram
namespace Scene

/-- The entry that an item of a list stands for: two items in a row. -/
def pairOf (index : Nat) (item : Value) : Except Fault (Value × Value) := do
  match ← item.items with
  | [key, v] => if key.isKey then return (key, v) else throw .wrongShape
  | parts => throw (.pairLength index parts.length)

def pairsOf (index : Nat) : List Value → Except Fault Table
  | [] => .ok []
  | item :: rest => do
    let pair ← pairOf index item
    return pair :: (← pairsOf (index + 1) rest)

/-- Adds definitions: a table, or a list of pairs. -/
def addDefinitions (t : Table) : Value → Except Fault Table
  | .table u => .ok (Table.update t u)
  | v => do return Table.update t (← pairsOf 0 (← v.items))

/-- The value of a library. One without a given value defines nothing. -/
def libraryDefinitions (v : Value) : Value := if v.isGiven then v else .table []

def addLibraries (read : Value → Except Fault Value) (t : Table) : List Value → Except Fault Table
  | [] => .ok t
  | path :: rest => do
    let t ← addDefinitions t (libraryDefinitions (← read path))
    addLibraries read t rest

def definitions (read : Value → Except Fault Value) (scene : Table) : Except Fault Table := do
  let libraries ← ((Table.field? scene "libraries").getD (.list [])).items
  let t ← addLibraries read [] libraries
  addDefinitions t ((Table.field? scene "definitions").getD (.table []))

/-- Sets the entries of an element, its use aside, in a copy of a definition. -/
def override (definition : Value) (element : Table) : Except Fault Value :=
  let own := element.filter fun e => !e.1.isText "use"
  match definition with
  | .table t => .ok (.table (Table.update t own))
  | .list _ | .set _ => if own.isEmpty then .ok definition else .error .wrongShape
  | _ => .error .noParts

def expandElement (definitions : Table) (element : Value) : Except Fault Value := do
  if !(← element.holds "use") then return element
  let name ← element.part "use"
  match ← Value.lookup? definitions name with
  | none => throw (.unknownDefinition name.text)
  | some definition => override definition (← element.entries)

/-- A scene with all uses replaced, and without its definitions and libraries. -/
def expand (read : Value → Except Fault Value) (scene : Value) : Except Fault Value := do
  let entries ← scene.entries
  let known ← definitions read entries
  let elements ← ((Table.field? entries "elements").getD (.list [])).items
  let elements ← elements.mapM (expandElement known)
  let result := Table.setField entries "elements" (.list elements)
  return .table (Table.erase (Table.erase result (.string "definitions")) (.string "libraries"))

end Scene
end SvgDiagram
