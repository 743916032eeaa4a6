import SvgDiagram.Files.Tree
import SvgDiagram.Render.Page
import SvgDiagram.Yaml.Document

/-!
The state that requests work on, and what one of them can do to it. An action that fails keeps the state
it has reached.
-/

namespace SvgDiagram

/-- What a file holds. Pictures are kept as what they show. -/
inductive Content where
  | text (s : String)
  | drawing (d : Drawing)
  | screenshot (page : Render.Page)
  | video (page : Render.Page)

/-- What files that other programs make read back as: the markup of drawings, and pictures. -/
structure Media where
  markup : Drawing → String
  screenshot : Render.Page → Except Fault String
  video : Render.Page → Except Fault String

/-- Media in which pictures are no texts. -/
def Media.plain : Media := ⟨Drawing.opening, fun _ => .error .undecodable, fun _ => .error .undecodable⟩

namespace Content

def read (m : Media) : Content → Except Fault String
  | .text s => .ok s
  | .drawing d => .ok (m.markup d)
  | .screenshot page => m.screenshot page
  | .video page => m.video page

def document (m : Media) (c : Content) : Except Fault Value := do Yaml.load (← c.read m)

end Content

structure Output where
  kind : OutputKind
  place : Files.Place

structure Workspace where
  host : Files.Host
  files : Files.Tree Content
  media : Media
  /-- Where the settings are kept. -/
  settingsPath : Files.Path
  /-- The settings in force, once they have been read. -/
  settings : Option Value
  /-- What pages say about their recording. -/
  recording : Render.Recording
  /-- What the browser has been asked, in order. -/
  calls : List Render.Call
  /-- What has been written, in order. -/
  outputs : List Output

abbrev Action := EStateM Fault Workspace

namespace Workspace

/-- A workspace with nothing but its working directory. -/
def empty (host : Files.Host) (media : Media) : Workspace :=
  { host, files := Files.Tree.withDirectory host.directory, media, settingsPath := host.settingsPath,
    settings := none, recording := .absent, calls := [], outputs := [] }

def attempt {α : Type} : Except Fault α → Action α
  | .ok a => pure a
  | .error f => throw f

/-- The outcome of an action, and the state it leaves. -/
def outcome {α : Type} (act : Action α) (w : Workspace) : Except Fault α × Workspace :=
  match act.run w with
  | .ok a w => (.ok a, w)
  | .error f w => (.error f, w)

def makeDirectory (p : Files.Path) : Action Unit := do
  let w ← get
  let (files, outcome) := w.files.ensure w.host.directory p
  set { w with files }
  attempt outcome

def putFile (place : Files.Place) (content : Content) : Action Unit := do
  let w ← get
  let files ← attempt (w.files.write place content)
  set { w with files }

def writeOutput (kind : OutputKind) (p : Files.Path) (content : Content) : Action Unit := do
  let w ← get
  let place ← attempt (w.files.find w.host.directory p)
  putFile place content
  modify fun w => { w with outputs := w.outputs ++ [⟨kind, place⟩] }

/-- Writes a text, making the directories above it. -/
def writeFile (p : Files.Path) (text : String) : Action Unit := do
  makeDirectory p.parent
  let w ← get
  putFile (← attempt (w.files.find w.host.directory p)) (.text text)

def writeText (path : Value) (text : String) : Action Unit := do
  writeFile (← attempt (Files.Path.ofValue path)) text

end Workspace
end SvgDiagram
