import SvgDiagram.Proofs.Workspace.Permission
import SvgDiagram.Tool.Call

/-!
The stages of a call. First the arguments are read, then every permission is asked for, then what is to be
written is made ready, and only then anything is written. A call is these four stages one after the other,
and up to the last of them it is a function of the workspace.
-/

namespace SvgDiagram
namespace Workspace

variable {α β : Type}

theorem attempt_bind (x : Except Fault α) (f : α → Except Fault β) :
    attempt (x >>= f) = (attempt x >>= fun a => attempt (f a) : Action β) := by
  cases x with
  | error e => rfl
  | ok a => rfl

theorem attempt_pure (a : α) : (attempt (pure a) : Action α) = pure a := rfl

theorem get_bind_const (act : Action α) : (get >>= fun _ => act) = act := rfl

end Workspace

namespace Tool

open Workspace (attempt needPermission outcome)

inductive Demand where
  | drawing (text svg png : Value)
  | video (markup output : Value) (duration : Int)

def Demand.read (name : String) (arguments : Value) : Except Fault Demand :=
  if name == svgName then do
    let text ← argument arguments "yaml_spec" (.string "")
    let svg ← argument arguments "output_path" .null
    let png ← argument arguments "png_path" .null
    return .drawing text svg png
  else if name == videoName then do
    let markup ← argument arguments "svg_content" (.string "")
    let output ← argument arguments "output_path" (.string "animation.webm")
    let duration ← argument arguments "duration_ms" defaultDuration
    return .video markup output (← duration.toInt)
  else throw (.unknownTool name)

/-- The permissions that are needed, in the order in which they are asked for. -/
def Demand.permissions : Demand → List (OutputKind × Value)
  | .drawing _ svg png => [(OutputKind.svg, svg), (.png, png)].filter fun p => p.2.isGiven
  | .video _ output _ => [(.webm, output)]

inductive Job where
  | drawing (d : Drawing) (svg png : Value)
  | video (picture : Picture) (output : Value) (duration : Int)

def Demand.job (w : Workspace) : Demand → Except Fault Job
  | .drawing text svg png => do return .drawing (← w.drawText text) svg png
  | .video markup output duration => do return .video (← markupOf markup) output duration

def Job.perform : Job → Action Reply
  | .drawing d svg png => do
    ifGiven svg (writeDrawing d svg)
    ifGiven png (Workspace.capture (.drawing d) png .null .null)
    return reply d (note "SVG written to " svg ++ note "PNG written to " png)
  | .video picture output duration => do
    Workspace.record picture output (.int duration) .null .null
    return .text ("Video saved to " ++ output.text)

/-- Asks for permissions, up to the first that is not given. -/
def needAll : List (OutputKind × Value) → Action Unit
  | [] => pure ()
  | p :: rest => do
    needPermission p.1 p.2
    needAll rest

/-- The stages before the last one that only look: the arguments are read and the permissions asked for. -/
def ask (name : String) (arguments : Value) : Action Demand := do
  let demand ← attempt (Demand.read name arguments)
  needAll demand.permissions
  return demand

theorem needAll_given (svg png : Value) :
    needAll ([(OutputKind.svg, svg), (.png, png)].filter fun p => p.2.isGiven) =
      (do ifGiven svg (needPermission .svg svg); ifGiven png (needPermission .png png)) := by
  cases hs : svg.isGiven <;> cases hp : png.isGiven <;>
    simp [needAll, ifGiven, hs, hp, List.filter]

theorem call_eq_stages (name : String) (arguments : Value) :
    call name arguments = (do
      let demand ← ask name arguments
      let job ← attempt (demand.job (← get))
      job.perform) := by
  simp only [call, ask, Demand.read]
  split
  · simp only [createSvg, Demand.permissions, needAll_given, Demand.job, Job.perform,
      Workspace.attempt_bind, Workspace.attempt_pure, bind_assoc, pure_bind]
  · split
    · simp only [createVideo, Demand.permissions, needAll, Demand.job, Job.perform,
        Workspace.attempt_bind, Workspace.attempt_pure, Workspace.get_bind_const, bind_assoc,
        pure_bind]
    · rfl

end Tool

namespace Workspace

/-- Whether a workspace grants all of some permissions, and else the fault of the first that it does not. -/
def grantAll (w : Workspace) : List (OutputKind × Value) → Except Fault Unit
  | [] => .ok ()
  | p :: rest => do
    w.grant p.1 p.2
    w.grantAll rest

def asked (w : Workspace) (permissions : List (OutputKind × Value)) : Workspace :=
  if permissions.isEmpty then w else w.remembering

theorem grantAll_remembering (w : Workspace) (ps : List (OutputKind × Value)) :
    w.remembering.grantAll ps = w.grantAll ps := by
  induction ps with
  | nil => rfl
  | cons p rest ih => simp only [grantAll, grant_remembering, ih]

theorem asked_remembering (w : Workspace) (ps : List (OutputKind × Value)) :
    w.remembering.asked ps = w.remembering := by
  simp only [asked, remembering_remembering, ite_self]

theorem outcome_needAll (ps : List (OutputKind × Value)) (w : Workspace) :
    outcome (Tool.needAll ps) w = (w.grantAll ps, w.asked ps) := by
  induction ps generalizing w with
  | nil => rfl
  | cons p rest ih =>
      simp only [Tool.needAll, outcome_bind, outcome_needPermission, grantAll]
      cases w.grant p.1 p.2 with
      | error f => rfl
      | ok _ => simp only [ih, grantAll_remembering, asked_remembering, Outcome.ok_bind]; rfl

end Workspace

namespace Tool

open Workspace (outcome)

/-- All that comes before the last stage, as a function of the workspace. -/
def prepared (w : Workspace) (name : String) (arguments : Value) : Except Fault Job := do
  let demand ← Demand.read name arguments
  w.grantAll demand.permissions
  demand.job w

/-- The permissions that a call asks for, none if its arguments cannot be read. -/
def permissionsOf (name : String) (arguments : Value) : List (OutputKind × Value) :=
  match Demand.read name arguments with
  | .ok demand => demand.permissions
  | .error _ => []

/-- What is drawn depends on the files and the place in which they are looked up, not on settings. -/
theorem job_asked (w : Workspace) (ps : List (OutputKind × Value)) (demand : Demand) :
    demand.job (w.asked ps) = demand.job w := by
  simp only [Workspace.asked]
  split
  · rfl
  · cases demand <;> rfl

theorem outcome_ask (name : String) (arguments : Value) (w : Workspace) :
    outcome (ask name arguments) w =
      (do let demand ← Demand.read name arguments; w.grantAll demand.permissions; return demand,
        w.asked (permissionsOf name arguments)) := by
  simp only [ask, Workspace.outcome_bind, Workspace.outcome_attempt, permissionsOf]
  cases Demand.read name arguments with
  | error f => rfl
  | ok demand =>
      simp only [Workspace.outcome_needAll, Outcome.ok_bind]
      cases w.grantAll demand.permissions <;> rfl

/-- A call fails in the workspace that asking leaves, or goes on to write there. -/
theorem outcome_call (name : String) (arguments : Value) (w : Workspace) :
    outcome (call name arguments) w =
      match prepared w name arguments with
      | .ok job => outcome job.perform (w.asked (permissionsOf name arguments))
      | .error f => (.error f, w.asked (permissionsOf name arguments)) := by
  simp only [call_eq_stages, Workspace.outcome_bind, outcome_ask, prepared]
  cases Demand.read name arguments with
  | error f => rfl
  | ok demand =>
      simp only [Outcome.ok_bind]
      cases w.grantAll demand.permissions with
      | error f => rfl
      | ok _ =>
          simp only [Outcome.ok_bind, Outcome.pure_eq_ok, Workspace.outcome_get,
            Workspace.outcome_attempt, job_asked]
          cases demand.job w <;> rfl

end Tool
end SvgDiagram
