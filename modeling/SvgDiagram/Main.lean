import SvgDiagram.Server

/-!
The command line. Every line of the input is a request, as a mapping with a `method` and, for a call, a
`name` and `arguments`; its reply is printed. Files that are written live as long as the program.
-/

open SvgDiagram

/-- The reply to one line, and the workspace after it. -/
def SvgDiagram.Server.reply (w : Workspace) (line : String) : List String × Workspace :=
  match (do Server.Request.ofValue (← Yaml.load line) : Except Fault Server.Request) with
  | .error f => ([f.message], w)
  | .ok request =>
    match Workspace.outcome (Server.answer request) w with
    | (.ok r, w) => (r.lines, w)
    | (.error f, w) => ([f.message], w)

partial def serveLines (stdin stdout : IO.FS.Stream) (w : Workspace) : IO Unit := do
  let line ← stdin.getLine
  if line.isEmpty then return
  let (lines, w) := Server.reply w line
  for l in lines do stdout.putStrLn l
  stdout.flush
  serveLines stdin stdout w

def main : IO Unit := do
  let home := (← IO.getEnv "HOME").getD "/"
  let directory := Files.Path.ofString (← IO.currentDir).toString
  let settings ← try
      pure (some (← IO.FS.readFile (home ++ "/.config/" ++ Server.name ++ "/config.yaml")))
    catch _ => pure none
  let w := Workspace.empty ⟨directory.names, home, []⟩ .plain
  let (_, w) := Workspace.outcome (Workspace.replaceSettings settings) w
  serveLines (← IO.getStdin) (← IO.getStdout) w
