import SvgDiagram.Tool.Catalogue
import SvgDiagram.Workspace.Capture
import SvgDiagram.Workspace.Permission
import SvgDiagram.Workspace.Scene

/-!
Calls of the tools. Every permission is asked for before anything is drawn, and everything is drawn
before anything is written.
-/

namespace SvgDiagram
namespace Tool

open Workspace (attempt needPermission)

/-- What a call gives back: words, or the drawing itself. -/
inductive Reply where
  | text (s : String)
  | drawing (d : Drawing)

/-- An argument, or what stands for it when it is left out. -/
def argument (arguments : Value) (name : String) (default : Value) : Except Fault Value := do
  return (← arguments.part? name).getD default

def ifGiven (path : Value) (act : Action Unit) : Action Unit := if path.isGiven then act else pure ()

def note (words : String) (path : Value) : List String :=
  if path.isGiven then [words ++ path.text] else []

/-- The lines that tell where a drawing was written, or else the drawing itself. -/
def reply (d : Drawing) : List String → Reply
  | [] => .drawing d
  | notes => .text (lines notes)

def writeDrawing (d : Drawing) (path : Value) : Action Unit := do
  Workspace.writeOutput .svg (← attempt (Files.Path.ofValue path)) (.drawing d)

def createSvg (arguments : Value) : Action Reply := do
  let text ← attempt (argument arguments "yaml_spec" (.string ""))
  let svg ← attempt (argument arguments "output_path" .null)
  let png ← attempt (argument arguments "png_path" .null)
  ifGiven svg (needPermission .svg svg)
  ifGiven png (needPermission .png png)
  let d ← attempt ((← get).drawText text)
  ifGiven svg (writeDrawing d svg)
  ifGiven png (Workspace.capture (.drawing d) png .null .null)
  return reply d (note "SVG written to " svg ++ note "PNG written to " png)

def markupOf : Value → Except Fault Picture
  | .string s => .ok (.markup s)
  | _ => .error .wrongShape

def createVideo (arguments : Value) : Action Reply := do
  let svg ← attempt (argument arguments "svg_content" (.string ""))
  let output ← attempt (argument arguments "output_path" (.string "animation.webm"))
  let duration ← attempt (argument arguments "duration_ms" defaultDuration)
  let duration ← attempt duration.toInt
  needPermission .webm output
  Workspace.record (← attempt (markupOf svg)) output (.int duration) .null .null
  return .text ("Video saved to " ++ output.text)

def call (name : String) (arguments : Value) : Action Reply :=
  if name == svgName then createSvg arguments
  else if name == videoName then createVideo arguments
  else throw (.unknownTool name)

end Tool
end SvgDiagram
