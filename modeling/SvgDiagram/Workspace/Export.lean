import SvgDiagram.Workspace.Capture
import SvgDiagram.Workspace.Scene

/-!
Drawings for direct use: given back, written to a file, shown as a picture or a video. Whoever asks for a
file gets the directories above it made first, and the path of the file back.
-/

namespace SvgDiagram
namespace Workspace

/-- What can be asked for. Arguments are taken in any shape. -/
inductive Export where
  | drawText (text : Value)
  | saveText (text output : Value)
  | drawFile (path : Value)
  | saveFile (path output : Value)
  | drawScene (scene : Value)
  | saveScene (scene output : Value)
  | captureText (text output width height : Value)
  | recordText (text output duration : Value)

inductive Exported where
  | drawing (d : Drawing)
  | path (p : Files.Path)

/-- The path of an output, with the directories above it made. -/
def prepare (output : Value) : Action Files.Path := do
  let p ← attempt (Files.Path.ofValue output)
  makeDirectory p.parent
  return p

/-- Writes what is drawn in the prepared workspace. -/
def save (output : Value) (draw : Workspace → Except Fault Drawing) : Action Exported := do
  let p ← prepare output
  writeOutput .svg p (.drawing (← attempt (draw (← get))))
  return .path p

def showText (text output : Value) (render : Picture → Value → Action Unit) : Action Exported := do
  let p ← prepare output
  let d ← attempt ((← get).drawText text)
  render (.drawing d) (.string p.text)
  return .path p

def perform : Export → Action Exported
  | .drawText text => do return .drawing (← attempt ((← get).drawText text))
  | .saveText text output => save output fun w => w.drawText text
  | .drawFile path => do
    let p ← attempt (Files.Path.ofValue path)
    return .drawing (← attempt ((← get).drawFile p))
  | .saveFile path output => do
    let p ← attempt (Files.Path.ofValue path)
    save output fun w => w.drawFile p
  | .drawScene scene => do return .drawing (← attempt (Drawing.ofScene scene))
  | .saveScene scene output => save output fun _ => Drawing.ofScene scene
  | .captureText text output width height =>
    showText text output fun picture path => capture picture path width height
  | .recordText text output duration =>
    showText text output fun picture path => record picture path duration .null .null

end Workspace
end SvgDiagram
