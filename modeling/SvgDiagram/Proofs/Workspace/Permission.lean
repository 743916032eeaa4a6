import SvgDiagram.Proofs.Workspace.Action
import SvgDiagram.Workspace.Permission

/-!
A question about permissions as a function of the workspace. All that it does to the workspace is to put
the settings in force, and that changes neither its own answer nor the answer to any later question.
-/

namespace SvgDiagram
namespace Workspace

/-- The settings that count: those in force, or else the ones that their file holds. -/
def inForce (w : Workspace) : Except Fault Value :=
  match w.settings with
  | some settings => .ok settings
  | none => w.settingsFound >>= Access.ofText

/-- The workspace with its settings in force, if they can be read. -/
def remembering (w : Workspace) : Workspace := { w with settings := w.inForce.toOption }

/-- The workspace after the file of its settings was written. -/
def withSettings (w : Workspace) (text : String) : Workspace :=
  (outcome (replaceSettings (some text)) w).2

theorem inForce_of_settings {w : Workspace} {settings : Value} (h : w.settings = some settings) :
    w.inForce = .ok settings := by
  simp [inForce, h]

theorem inForce_of_none {w : Workspace} (h : w.settings = none) :
    w.inForce = w.settingsFound >>= Access.ofText := by
  simp [inForce, h]

theorem settings_of_inForce_error {w : Workspace} {f : Fault} (h : w.inForce = .error f) :
    w.settings = none := by
  cases hs : w.settings with
  | none => rfl
  | some settings => simp [inForce_of_settings hs] at h

theorem remembering_of_settings {w : Workspace} {settings : Value}
    (h : w.settings = some settings) : w.remembering = w := by
  have hs : w.inForce.toOption = w.settings := by rw [inForce_of_settings h, h]; rfl
  rw [remembering, hs]

theorem remembering_of_error {w : Workspace} {f : Fault} (h : w.inForce = .error f) :
    w.remembering = w := by
  have hs : w.inForce.toOption = w.settings := by rw [h, settings_of_inForce_error h]; rfl
  rw [remembering, hs]

@[simp] theorem inForce_remembering (w : Workspace) : w.remembering.inForce = w.inForce := by
  cases h : w.inForce with
  | error f => rw [remembering_of_error h, h]
  | ok settings =>
      apply inForce_of_settings
      simp [remembering, h, Except.toOption]

@[simp] theorem remembering_remembering (w : Workspace) :
    w.remembering.remembering = w.remembering := by
  have h : w.remembering.remembering = { w with settings := w.remembering.inForce.toOption } := rfl
  rw [h, inForce_remembering, remembering]

theorem outcome_settingsInForce (w : Workspace) :
    outcome settingsInForce w = (w.inForce, w.remembering) := by
  simp only [settingsInForce, outcome_bind, outcome_get]
  cases hs : w.settings with
  | some settings =>
      simp [inForce_of_settings hs, remembering_of_settings hs]
  | none =>
      simp only [outcome_bind, outcome_attempt, ← inForce_of_none hs]
      cases h : w.inForce with
      | error f => rw [remembering_of_error h]
      | ok settings => simp [remembering, h, Except.toOption]

theorem outcome_isPermitted (path : Value) (kind : String) (w : Workspace) :
    outcome (isPermitted path kind) w =
      (w.inForce >>= fun settings => Access.permits w.host settings path kind, w.remembering) := by
  simp only [isPermitted, outcome_bind, outcome_settingsInForce]
  cases w.inForce <;> simp [remembering]

/-- Whether a workspace grants the permission to write a file, and the fault if it does not. -/
def grant (w : Workspace) (kind : OutputKind) (path : Value) : Except Fault Unit := do
  if !(← Access.permits w.host (← w.inForce) path kind.name) then throw (.denied kind path.text)

@[simp] theorem grant_remembering (w : Workspace) (kind : OutputKind) (path : Value) :
    w.remembering.grant kind path = w.grant kind path := by
  simp only [grant, inForce_remembering]
  rfl

theorem outcome_needPermission (kind : OutputKind) (path : Value) (w : Workspace) :
    outcome (needPermission kind path) w = (w.grant kind path, w.remembering) := by
  simp only [needPermission, outcome_bind, outcome_isPermitted, grant]
  cases w.inForce with
  | error f => rfl
  | ok settings =>
      simp only [Outcome.ok_bind]
      cases Access.permits w.host settings path kind.name with
      | error f => rfl
      | ok allowed => cases allowed <;> rfl

end Workspace
end SvgDiagram
