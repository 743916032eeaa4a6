import SvgDiagram.Proofs.Workspace.Confinement
import SvgDiagram.Session

/-!
Confinement of what tools write, over whole sessions.
-/

namespace SvgDiagram
namespace Session

/-- A tool is called during a session, in one workspace, and leaves another. It is called by a turn of its
own, or by a request while the server runs. -/
inductive CallsTool (w : Workspace) (turns : List Turn) : Workspace → Workspace → Prop
  | turn {earlier later : List Turn} {recording : Render.Recording} {name : String}
      {arguments : Value} (h : turns = earlier ++ ⟨.tool name arguments, recording⟩ :: later) :
      CallsTool w turns (opened (run w earlier).2 recording)
        (take (run w earlier).2 ⟨.tool name arguments, recording⟩).2
  | request {earlier later : List Turn} {recording : Render.Recording} {breaks : Bool}
      {answered waiting : List Server.Request} {name : String} {arguments : Value}
      (h : turns = earlier ++
        ⟨.serve (answered ++ .call name arguments :: waiting) breaks, recording⟩ :: later) :
      CallsTool w turns (Server.answerAll (opened (run w earlier).2 recording) answered).2
        (Server.answerAll (opened (run w earlier).2 recording)
          (answered ++ [.call name arguments])).2

theorem answerAll_append (w : Workspace) (rs rs' : List Server.Request) :
    (Server.answerAll w (rs ++ rs')).2 = (Server.answerAll (Server.answerAll w rs).2 rs').2 := by
  induction rs generalizing w with
  | nil => rfl
  | cons r rs ih => simp only [List.cons_append, Server.answerAll, ih]

/-- What is made of the reply changes nothing, whoever called the tool. -/
theorem confined_call {α : Type} (w : Workspace) (name : String) (arguments : Value)
    (f : Tool.Reply → α) :
    w.Confined (Workspace.outcome (do return f (← Tool.call name arguments)) w).2 := by
  have h : Workspace.Leads Workspace.Confined (do return f (← Tool.call name arguments)) w
      fun _ _ => True := by
    refine .bind .trans (Tool.leads_call name arguments) ?_
    rintro reply w' _ -
    exact (Workspace.Leads.pure Workspace.Confined.refl _).weaken fun _ _ _ _ => trivial
  exact h.1

/-- In every session, from any workspace, a call of a tool writes nothing outside the directories that the
settings in force let it write, whether it succeeds or fails. -/
theorem tool_calls_confined (w : Workspace) (turns : List Turn) {before after : Workspace}
    (h : CallsTool w turns before after) : before.Confined after := by
  cases h with
  | turn _ => exact confined_call _ _ _ Answer.reply
  | request _ =>
      rw [answerAll_append]
      exact confined_call _ _ _ Server.Reply.tool

/-- A workspace in `/work`. -/
def emptyWork : Workspace := Workspace.empty ⟨["work"], "/home/ann", []⟩ .plain

/-- Videos may be written below `/work`; the settings are removed once they are in force. -/
def videoSession : List Turn :=
  [⟨.settings (some "file_output:\n  allowed:\n  - path: /work\n    types: [webm]\n"), .file "rec.webm"⟩,
    ⟨.file (.string "out/readme") "", .file "rec.webm"⟩,
    ⟨.isPermitted (.string "out") "webm", .file "rec.webm"⟩,
    ⟨.settings none, .file "rec.webm"⟩,
    ⟨.tool Tool.videoName (.table [(.string "output_path", .string "./out")]), .file "rec.webm"⟩]

/-- The path that is asked about is a directory, and the video comes to be inside it. -/
theorem video_inside_directory_confined : ∃ before after,
    CallsTool emptyWork videoSession before after ∧
      after.outputs.map (fun o => (o.kind, o.place)) = [(.webm, ["work", "out", "rec.webm"])] ∧
      before.Confined after := by
  have h : CallsTool emptyWork videoSession _ _ :=
    .turn (show videoSession = videoSession.take 4 ++ ⟨.tool _ _, _⟩ :: [] from rfl)
  exact ⟨_, _, h, by decide +kernel, tool_calls_confined _ _ h⟩

end Session
end SvgDiagram
