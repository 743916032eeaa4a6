import SvgDiagram.Proofs.Workspace.Action
import SvgDiagram.Workspace.Capture

/-!
What the browser is asked. Once the size of a picture is known, the calls are fixed: whatever becomes of the
files, only the last call of a screenshot may be left out.
-/

namespace SvgDiagram
namespace Workspace

theorem outcome_call_eq (c : Render.Call) (w : Workspace) :
    outcome (call c) w = (.ok ⟨⟩, { w with calls := w.calls ++ [c] }) := rfl

theorem outcome_call_bind {β : Type} (c : Render.Call) (f : PUnit → Action β) (w : Workspace) :
    outcome (call c >>= f) w = outcome (f ⟨⟩) { w with calls := w.calls ++ [c] } := by
  rw [outcome_bind, outcome_call_eq]

/-- The browser was asked nothing. -/
def Silent (w w' : Workspace) : Prop := w'.calls = w.calls

theorem Silent.refl (w : Workspace) : Silent w w := Eq.refl w.calls

theorem Silent.trans {w w₁ w₂ : Workspace} (h : Silent w w₁) (h' : Silent w₁ w₂) : Silent w w₂ :=
  Eq.trans h' h

section
variable {w : Workspace}

theorem silent_putFile (place : Files.Place) (content : Content) :
    Silent w (outcome (putFile place content) w).2 := by
  rw [outcome_putFile]
  cases w.files.write place content <;> exact .refl w

theorem silent_writeOutput (kind : OutputKind) (p : Files.Path) (content : Content) :
    Silent w (outcome (writeOutput kind p content) w).2 := by
  rw [outcome_writeOutput]
  split <;> exact .refl w

theorem silent_moveRecording (name : String) (page : Render.Page) (output : Value) :
    Silent w (outcome (moveRecording name page output) w).2 := by
  have hput {w : Workspace} (place : Files.Place) (content : Content) :
      Leads Silent (putFile place content) w fun _ _ => True :=
    ⟨silent_putFile place content, fun _ _ => trivial⟩
  have hset {w : Workspace} (files : Files.Tree Content) :
      Leads Silent (set { w with files }) w fun _ _ => True :=
    ⟨.refl w, fun _ _ => trivial⟩
  have hmodify {w : Workspace} (more : List Output) :
      Leads Silent (modify fun w => { w with outputs := w.outputs ++ more }) w fun _ _ => True :=
    ⟨.refl w, fun _ _ => trivial⟩
  have hmove : Leads Silent (moveRecording name page output) w fun _ _ => True := by
    refine .get_bind (.bind .trans (hput _ _) fun _ w₁ _ _ => .get_bind ?_)
    cases output with
    | string path =>
        exact .attempt_bind .refl fun place _ => .bind .trans (hset _) fun _ w₂ _ _ =>
          .bind .trans (hput _ _) fun _ w₃ _ _ => hmodify _
    | _ => exact .throw .refl _ _
  exact hmove.1

end

section
variable {picture : Picture} {output duration width height : Value} {size : Render.Size}

/-- The browser is closed if the screenshot could be written. -/
theorem calls_writeOutput_close (x : Except Fault Files.Path) (content : Content) (w : Workspace) :
    ∃ rest, (rest = [] ∨ rest = [.closeBrowser]) ∧
      (outcome (do writeOutput .png (← attempt x) content; call .closeBrowser) w).2.calls =
        w.calls ++ rest := by
  cases x with
  | error f => exact ⟨[], .inl rfl, (List.append_nil _).symm⟩
  | ok p =>
      have hsilent : Silent w (outcome (writeOutput .png p content) w).2 := silent_writeOutput _ _ _
      simp only [outcome_bind, outcome_attempt, outcome_call_eq]
      cases hwritten : outcome (writeOutput .png p content) w with
      | mk result w' =>
          rw [hwritten] at hsilent
          cases result with
          | error f => exact ⟨[], .inl rfl, Eq.trans hsilent (List.append_nil _).symm⟩
          | ok u => exact ⟨[.closeBrowser], .inr rfl, congrArg (· ++ [.closeBrowser]) hsilent⟩

theorem calls_capture (hsize : Render.size width height picture = .ok size) (w : Workspace) :
    ∃ rest, (rest = [] ∨ rest = [.closeBrowser]) ∧
      (outcome (capture picture output width height) w).2.calls =
        w.calls ++ [.launch, .newPage (some size), .setContent ⟨size, picture⟩,
          .screenshot output.text] ++ rest := by
  rw [capture, outcome_bind, outcome_attempt, hsize]
  simp only [outcome_call_bind]
  obtain ⟨rest, hrest, hcalls⟩ := calls_writeOutput_close (Files.Path.ofValue output)
    (.screenshot ⟨size, picture⟩) { w with
      calls := w.calls ++ [.launch] ++ [.newPage (some size)] ++ [.setContent ⟨size, picture⟩] ++
        [.screenshot output.text] }
  exact ⟨rest, hrest, hcalls.trans (by simp)⟩

theorem calls_record (hsize : Render.size width height picture = .ok size) (w : Workspace) :
    (outcome (record picture output duration width height) w).2.calls =
      w.calls ++ [.launch, .newContext size size, .newPage none, .setContent ⟨size, picture⟩,
        .wait duration, .closeContext, .closeBrowser] := by
  rw [record, outcome_bind, outcome_attempt, hsize]
  simp only [outcome_call_bind, outcome_get_bind]
  cases hrecording : w.recording with
  | file name => exact Eq.trans (silent_moveRecording _ _ _) (by simp)
  | absent | unplaced => simp

end

end Workspace
end SvgDiagram
