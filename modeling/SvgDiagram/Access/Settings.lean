import SvgDiagram.Access.Pattern
import SvgDiagram.Value.Shape
import SvgDiagram.Yaml.Document

/-!
The settings that say where files may be written. They are taken as they stand: what is missing is filled
in, what has the wrong shape makes the question fail.
-/

namespace SvgDiagram
namespace Access

def noEntries : Value := .table [(.string "allowed", .list [])]

/-- Settings in which nothing may be written. -/
def closed : Value := .table [(.string "file_output", noEntries)]

/-- The part about files with its list of entries, an empty one if it has none. -/
def withEntries (output : Value) : Except Fault Value := do
  if ← output.holds "allowed" then return output
  match output with
  | .table t => return .table (Table.setField t "allowed" (.list []))
  | _ => throw .wrongShape

/-- Settings with all parts that are asked for. Anything but a table counts as empty. -/
def normalise (v : Value) : Except Fault Value := do
  let t := match v with
    | .table t => t
    | _ => []
  let output ← withEntries ((Table.field? t "file_output").getD noEntries)
  return .table (Table.setField t "file_output" output)

/-- The settings that a value stands for, or that there are without one. -/
def ofLoaded : Option Value → Except Fault Value
  | none => .ok closed
  | some v => normalise v

def ofText : Option String → Except Fault Value
  | none => ofLoaded none
  | some text => do ofLoaded (some (← Yaml.load text))

section
variable (accepts : String → String → Bool)

/-- Whether one entry admits a file of some kind. The path of the entry is read first, then its kinds. -/
def entryAdmits (host : Files.Host) (place : Files.Place) (kind : String) (entry : Value) :
    Except Fault Bool := do
  let pattern ← entry.part "path"
  let kinds := (← entry.part? "types").getD (.list [])
  if !(← kinds.holds kind) then return false
  let pattern ← host.expandHome (← Files.Path.ofValue pattern)
  admitsBy accepts host.directory (Files.Path.ofPlace place) pattern.text

/-- Whether some entry admits the file. Entries after the first such one are not looked at. -/
def someAdmits (host : Files.Host) (place : Files.Place) (kind : String) :
    List Value → Except Fault Bool
  | [] => .ok false
  | entry :: rest => do
    if ← entryAdmits accepts host place kind entry then return true
    someAdmits host place kind rest

/-- Whether settings admit a file of some kind at a path, with a rule for the wildcards of one
component. -/
def permitsBy (host : Files.Host) (settings : Value) (path : Value) (kind : String) :
    Except Fault Bool := do
  let entries ← (← settings.part "file_output").part "allowed"
  if !entries.isGiven then return false
  let place ← (← Files.Path.ofValue path).resolve host.directory
  someAdmits accepts host place kind (← entries.items)

end

def permits (host : Files.Host) (settings : Value) (path : Value) (kind : String) :
    Except Fault Bool :=
  permitsBy accepts host settings path kind

end Access
end SvgDiagram
