import SvgDiagram.Workspace.Basic

/-!
Pictures taken and recorded in a browser.
-/

namespace SvgDiagram
namespace Workspace

def call (c : Render.Call) : Action Unit := modify fun w => { w with calls := w.calls ++ [c] }

def capture (picture : Picture) (output width height : Value) : Action Unit := do
  let size ← attempt (Render.size width height picture)
  let page : Render.Page := ⟨size, picture⟩
  call .launch
  call (.newPage (some size))
  call (.setContent page)
  call (.screenshot output.text)
  writeOutput .png (← attempt (Files.Path.ofValue output)) (.screenshot page)
  call .closeBrowser

def moveRecording (name : String) (page : Render.Page) (output : Value) : Action Unit := do
  let w ← get
  let source := w.host.directory ++ [name]
  putFile source (.video page)
  let w ← get
  match output with
  | .string path =>
    let place ← attempt (w.files.destination w.host.directory path name)
    set { w with files := w.files.remove source }
    putFile place (.video page)
    modify fun w => { w with outputs := w.outputs ++ [⟨.webm, place⟩] }
  | _ => throw .wrongShape

/-- Records a picture for some time. A page may have no recording, and a recording no file. -/
def record (picture : Picture) (output duration width height : Value) : Action Unit := do
  let size ← attempt (Render.size width height picture)
  let page : Render.Page := ⟨size, picture⟩
  call .launch
  call (.newContext size size)
  call (.newPage none)
  call (.setContent page)
  call (.wait duration)
  call .closeContext
  call .closeBrowser
  match (← get).recording with
  | .file name => moveRecording name page output
  | .absent => return
  | .unplaced => return

end Workspace
end SvgDiagram
