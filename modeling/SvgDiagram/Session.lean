import SvgDiagram.Server
import SvgDiagram.Workspace.Export

/-!
Sessions: steps that work on one workspace, one after the other. A step that fails does not end the
session, and what it did before it failed stays.
-/

namespace SvgDiagram
namespace Session

inductive Step where
  | settings (text : Option String)
  | file (path : Value) (text : String)
  | clear
  | load
  | isPermitted (path : Value) (kind : String)
  | tool (name : String) (arguments : Value)
  | perform (request : Workspace.Export)
  | serve (requests : List Server.Request) (breaks : Bool)
  | capture (markup : String) (output width height : Value)
  | record (markup : String) (output duration width height : Value)

inductive Answer where
  | done
  | settings (v : Value)
  | flag (b : Bool)
  | reply (r : Tool.Reply)
  | exported (e : Workspace.Exported)
  | served (r : Server.Run)

def act : Step → Action Answer
  | .settings text => do
    Workspace.replaceSettings text
    return .done
  | .file path text => do
    Workspace.writeText path text
    return .done
  | .clear => do
    Workspace.clearSettings
    return .done
  | .load => return .settings (← Workspace.settingsInForce)
  | .isPermitted path kind => return .flag (← Workspace.isPermitted path kind)
  | .tool name arguments => return .reply (← Tool.call name arguments)
  | .perform request => return .exported (← Workspace.perform request)
  | .serve requests breaks => do
    let (run, w) := Server.serve requests breaks (← get)
    set w
    return .served run
  | .capture markup output width height => do
    Workspace.capture (.markup markup) output width height
    return .done
  | .record markup output duration width height => do
    Workspace.record (.markup markup) output duration width height
    return .done

/-- A step, and what pages say about their recording while it is taken. -/
structure Turn where
  step : Step
  recording : Render.Recording

/-- What can be seen after a turn: its answer, the files, and the calls that it made. -/
structure Report where
  answer : Except Fault Answer
  files : Files.Tree Content
  calls : List Render.Call

/-- The workspace in which the step of a turn is taken. -/
def opened (w : Workspace) (recording : Render.Recording) : Workspace :=
  { w with recording, calls := [] }

def take (w : Workspace) (t : Turn) : Report × Workspace :=
  let (answer, w) := Workspace.outcome (act t.step) (opened w t.recording)
  (⟨answer, w.files, w.calls⟩, w)

def run (w : Workspace) : List Turn → List Report × Workspace
  | [] => ([], w)
  | t :: rest =>
    let (report, w) := take w t
    let (reports, w) := run w rest
    (report :: reports, w)

end Session
end SvgDiagram
