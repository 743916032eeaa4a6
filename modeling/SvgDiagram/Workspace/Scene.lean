import SvgDiagram.Drawing.Draw
import SvgDiagram.Scene.Definition
import SvgDiagram.Workspace.Basic

/-!
Scenes in a workspace: the text of a scene names libraries, which are files.
-/

namespace SvgDiagram
namespace Workspace

def library (w : Workspace) (path : Value) : Except Fault Value := do
  let p ← Files.Path.ofValue path
  if !w.files.contains w.host.directory p then throw (.libraryNotFound path.text)
  (← w.files.read w.host.directory p).document w.media

def expandScene (w : Workspace) (scene : Value) : Except Fault Value :=
  Scene.expand w.library scene

def drawScene (w : Workspace) (scene : Value) : Except Fault Drawing := do
  Drawing.ofScene (← w.expandScene scene)

/-- The document that a value is the text of. -/
def documentOf : Value → Except Fault Value
  | .string text => Yaml.load text
  | .bytes data => Yaml.loadBytes data
  | _ => .error .noParts

def drawText (w : Workspace) (text : Value) : Except Fault Drawing := do
  w.drawScene (← documentOf text)

def drawFile (w : Workspace) (p : Files.Path) : Except Fault Drawing := do
  w.drawScene (← (← w.files.read w.host.directory p).document w.media)

end Workspace
end SvgDiagram
