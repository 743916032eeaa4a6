import SvgDiagram.Access.Settings
import SvgDiagram.Workspace.Basic

/-!
The settings in force. They are read from their file when they are first asked for, and kept until they
are cleared, whatever becomes of the file.
-/

namespace SvgDiagram
namespace Workspace

/-- What is found where the settings are kept: a text, or nothing. -/
def settingsFound (w : Workspace) : Except Fault (Option String) :=
  if w.files.contains w.host.directory w.settingsPath then do
    let content ← w.files.read w.host.directory w.settingsPath
    return some (← content.read w.media)
  else .ok none

/-- The settings in force. A file that cannot be read leaves none in force. -/
def settingsInForce : Action Value := do
  let w ← get
  match w.settings with
  | some settings => return settings
  | none =>
    let settings ← attempt (w.settingsFound >>= Access.ofText)
    set { w with settings := some settings }
    return settings

def clearSettings : Action Unit := modify fun w => { w with settings := none }

def replaceSettings : Option String → Action Unit
  | some text => do writeFile (← get).settingsPath text
  | none => do
    let w ← get
    if w.files.contains w.host.directory w.settingsPath then
      let place ← attempt (w.files.find w.host.directory w.settingsPath)
      set { w with files := ← attempt (w.files.delete place) }

def isPermitted (path : Value) (kind : String) : Action Bool := do
  let settings ← settingsInForce
  attempt (Access.permits (← get).host settings path kind)

def needPermission (kind : OutputKind) (path : Value) : Action Unit := do
  if !(← isPermitted path kind.name) then throw (.denied kind path.text)

end Workspace
end SvgDiagram
