import SvgDiagram.Proofs.Tool.Stages

/-!
A call that is turned down does nothing. Whatever it is turned down for, it is so before the last of its
stages, and all that the stages before it do is to put the settings in force.
-/

namespace SvgDiagram
namespace Workspace

/-- The workspace has become the other one by no more than that its settings were put in force. -/
structure Untouched (w w' : Workspace) : Prop where
  unchanged : w' = { w with settings := w'.settings }
  settings : w'.settings = w.settings ∨
    w.settings = none ∧ ∃ s, w.settingsFound >>= Access.ofText = .ok s ∧ w'.settings = some s

theorem Untouched.refl (w : Workspace) : Untouched w w := ⟨rfl, .inl rfl⟩

theorem untouched_remembering (w : Workspace) : Untouched w w.remembering := by
  refine ⟨rfl, ?_⟩
  cases hs : w.settings with
  | some s => exact .inl (by rw [remembering_of_settings hs, hs])
  | none =>
      cases h : w.inForce with
      | error f => exact .inl (by rw [remembering_of_error h, hs])
      | ok s =>
          refine .inr ⟨rfl, s, ?_, ?_⟩
          · rw [← inForce_of_none hs, h]
          · simp [remembering, h, Except.toOption]

theorem untouched_asked (w : Workspace) (ps : List (OutputKind × Value)) :
    Untouched w (w.asked ps) := by
  simp only [asked]
  split
  · exact .refl w
  · exact untouched_remembering w

@[simp] theorem files_asked (w : Workspace) (ps : List (OutputKind × Value)) :
    (w.asked ps).files = w.files := by
  rw [(w.untouched_asked ps).unchanged]

@[simp] theorem host_asked (w : Workspace) (ps : List (OutputKind × Value)) :
    (w.asked ps).host = w.host := by
  rw [(w.untouched_asked ps).unchanged]

/-- The settings can be read and say no. -/
def Denies (w : Workspace) (kind : OutputKind) (path : Value) : Prop :=
  ∃ settings, w.inForce = .ok settings ∧
    Access.permits w.host settings path kind.name = .ok false

theorem Denies.grant_eq {w : Workspace} {kind : OutputKind} {path : Value}
    (h : Denies w kind path) : w.grant kind path = .error (.denied kind path.text) := by
  obtain ⟨settings, hs, hno⟩ := h
  simp [grant, hs, hno]

theorem grantAll_append (w : Workspace) (ps qs : List (OutputKind × Value)) :
    w.grantAll (ps ++ qs) = (do w.grantAll ps; w.grantAll qs) := by
  induction ps with
  | nil => rfl
  | cons p ps ih => simp only [List.cons_append, grantAll, ih, bind_assoc]

end Workspace

namespace Tool

open Workspace (outcome Untouched Denies)

inductive Rejected (w : Workspace) (name : String) (arguments : Value) : Fault → Prop
  | unknownTool (svg : name ≠ svgName) (video : name ≠ videoName) :
      Rejected w name arguments (.unknownTool name)
  | duration {t : Table} {f : Fault} (video : name = videoName) (table : arguments = .table t)
      (h : ((Table.field? t "duration_ms").getD defaultDuration).toInt = .error f) :
      Rejected w name arguments f
  /-- The settings cannot be read. -/
  | settings {demand : Demand} {f : Fault} (read : Demand.read name arguments = .ok demand)
      (needed : demand.permissions ≠ []) (h : w.inForce = .error f) : Rejected w name arguments f
  /-- The first permission that is not given is denied. -/
  | denied {demand : Demand} {kind : OutputKind} {path : Value}
      {earlier later : List (OutputKind × Value)} (read : Demand.read name arguments = .ok demand)
      (needed : demand.permissions = earlier ++ (kind, path) :: later)
      (granted : w.grantAll earlier = .ok ()) (h : Denies w kind path) :
      Rejected w name arguments (.denied kind path.text)
  /-- The settings, or the path itself, have a shape that gives no answer. -/
  | unanswered {demand : Demand} {kind : OutputKind} {path settings : Value}
      {earlier later : List (OutputKind × Value)} {f : Fault}
      (read : Demand.read name arguments = .ok demand)
      (needed : demand.permissions = earlier ++ (kind, path) :: later)
      (granted : w.grantAll earlier = .ok ()) (inForce : w.inForce = .ok settings)
      (h : Access.permits w.host settings path kind.name = .error f) : Rejected w name arguments f
  /-- What is to be drawn is no text. -/
  | noText {text svg png : Value} (read : Demand.read name arguments = .ok (.drawing text svg png))
      (granted : w.grantAll (Demand.drawing text svg png).permissions = .ok ())
      (string : ∀ s, text ≠ .string s) (bytes : ∀ data, text ≠ .bytes data) :
      Rejected w name arguments .noParts
  /-- The text of the scene is no document. -/
  | document {text svg png : Value} {f : Fault}
      (read : Demand.read name arguments = .ok (.drawing text svg png))
      (granted : w.grantAll (Demand.drawing text svg png).permissions = .ok ())
      (h : Workspace.documentOf text = .error f) : Rejected w name arguments f
  /-- A library is missing or no table of definitions, or a use cannot be replaced. -/
  | expansion {text svg png scene : Value} {f : Fault}
      (read : Demand.read name arguments = .ok (.drawing text svg png))
      (granted : w.grantAll (Demand.drawing text svg png).permissions = .ok ())
      (loaded : Workspace.documentOf text = .ok scene) (h : w.expandScene scene = .error f) :
      Rejected w name arguments f
  /-- A position cannot be resolved, or an element cannot be drawn. -/
  | drawing {text svg png scene plain : Value} {f : Fault}
      (read : Demand.read name arguments = .ok (.drawing text svg png))
      (granted : w.grantAll (Demand.drawing text svg png).permissions = .ok ())
      (loaded : Workspace.documentOf text = .ok scene) (expanded : w.expandScene scene = .ok plain)
      (h : Drawing.ofScene plain = .error f) : Rejected w name arguments f

variable {w : Workspace} {name : String} {arguments : Value}

theorem read_duration {t : Table} {f : Fault}
    (h : ((Table.field? t "duration_ms").getD defaultDuration).toInt = .error f) :
    Demand.read videoName (.table t) = .error f := by
  have hname : (videoName == svgName) = false := by decide
  simp [Demand.read, hname, argument, Value.part?, Value.entries, h]

theorem documentOf_of_not_text {text : Value} (string : ∀ s, text ≠ .string s)
    (bytes : ∀ data, text ≠ .bytes data) : Workspace.documentOf text = .error .noParts := by
  cases text with
  | string s => exact absurd rfl (string s)
  | bytes data => exact absurd rfl (bytes data)
  | _ => rfl

theorem prepared_eq_error {demand : Demand} {f : Fault}
    (read : Demand.read name arguments = .ok demand)
    (h : (do w.grantAll demand.permissions; demand.job w) = .error f) :
    prepared w name arguments = .error f := by
  rw [prepared, read]
  exact h

theorem Rejected.prepared_eq {f : Fault} (h : Rejected w name arguments f) :
    prepared w name arguments = .error f := by
  cases h with
  | unknownTool svg video => simp [prepared, Demand.read, svg, video]
  | duration video table h =>
      subst video table
      simp [prepared, read_duration h]
  | settings read needed h =>
      apply prepared_eq_error read
      obtain ⟨p, rest, hp⟩ := List.exists_cons_of_ne_nil needed
      simp [hp, Workspace.grantAll, Workspace.grant, h]
  | denied read needed granted h =>
      apply prepared_eq_error read
      simp [needed, Workspace.grantAll_append, granted, Workspace.grantAll, h.grant_eq]
  | unanswered read needed granted inForce h =>
      apply prepared_eq_error read
      simp [needed, Workspace.grantAll_append, granted, Workspace.grantAll, Workspace.grant, inForce,
        h]
  | noText read granted string bytes =>
      apply prepared_eq_error read
      simp [granted, Demand.job, Workspace.drawText, documentOf_of_not_text string bytes]
  | document read granted h =>
      apply prepared_eq_error read
      simp [granted, Demand.job, Workspace.drawText, h]
  | expansion read granted loaded h =>
      apply prepared_eq_error read
      simp [granted, Demand.job, Workspace.drawText, Workspace.drawScene, loaded, h]
  | drawing read granted loaded expanded h =>
      apply prepared_eq_error read
      simp [granted, Demand.job, Workspace.drawText, Workspace.drawScene, loaded, expanded, h]

theorem call_of_unprepared {f : Fault} (h : prepared w name arguments = .error f) :
    (outcome (call name arguments) w).1 = .error f ∧
      Untouched w (outcome (call name arguments) w).2 := by
  rw [outcome_call, h]
  exact ⟨rfl, w.untouched_asked _⟩

def TurnedDown (w : Workspace) (name : String) (arguments : Value) : Prop :=
  (∃ f, (outcome (call name arguments) w).1 = .error f) ∧
    Untouched w (outcome (call name arguments) w).2

theorem turnedDown_of_unprepared {f : Fault} (h : prepared w name arguments = .error f) :
    TurnedDown w name arguments :=
  ⟨⟨f, (call_of_unprepared h).1⟩, (call_of_unprepared h).2⟩

/-- Of two permissions that a call needs, the denial of either one turns it down. -/
theorem turnedDown_of_denies {text svg png : Value}
    (read : Demand.read name arguments = .ok (.drawing text svg png)) (hs : svg.isGiven = true)
    (hp : png.isGiven = true) (h : Denies w .svg svg ∨ Denies w .png png) :
    TurnedDown w name arguments := by
  have hps : (Demand.drawing text svg png).permissions = [(.svg, svg), (.png, png)] := by
    simp [Demand.permissions, hs, hp]
  have hgrant : ∃ f, w.grantAll (Demand.drawing text svg png).permissions = .error f := by
    rw [hps]
    cases h with
    | inl h => exact ⟨_, by simp [Workspace.grantAll, h.grant_eq]; rfl⟩
    | inr h =>
        cases hg : w.grant .svg svg with
        | error f => exact ⟨f, by simp [Workspace.grantAll, hg]⟩
        | ok _ => exact ⟨_, by simp [Workspace.grantAll, hg, h.grant_eq]; rfl⟩
  obtain ⟨f, hf⟩ := hgrant
  apply turnedDown_of_unprepared
  apply prepared_eq_error read
  rw [hf]
  rfl

theorem outcome_writeDrawing_asked {d : Drawing} {path : Value} {f : Fault}
    (h : (outcome (writeDrawing d path) w).1 = .error f) (ps : List (OutputKind × Value)) :
    outcome (writeDrawing d path) (w.asked ps) = (.error f, w.asked ps) := by
  simp only [writeDrawing, Workspace.outcome_bind, Workspace.outcome_attempt] at h ⊢
  cases hp : Files.Path.ofValue path with
  | error e =>
      simp only [hp] at h ⊢
      rw [h]
  | ok p =>
      simp only [hp, Workspace.outcome_writeOutput, Workspace.files_asked, Workspace.host_asked]
        at h ⊢
      split at h
      · cases h
      · cases h
        rfl

/-- A drawing that cannot be written ends the call before the browser is asked for anything. -/
theorem turnedDown_of_unwritten {text svg png : Value} {d : Drawing} {f : Fault}
    (read : Demand.read name arguments = .ok (.drawing text svg png)) (hs : svg.isGiven = true)
    (drawn : w.drawText text = .ok d) (h : (outcome (writeDrawing d svg) w).1 = .error f) :
    TurnedDown w name arguments := by
  cases hprep : prepared w name arguments with
  | error e => exact turnedDown_of_unprepared hprep
  | ok job =>
      have hjob : job = .drawing d svg png := by
        simp only [prepared, read, Outcome.ok_bind, Outcome.bind_eq_ok, Demand.job, drawn] at hprep
        obtain ⟨_, _, hprep⟩ := hprep
        exact (Except.ok.inj hprep).symm
      have hcall : outcome (call name arguments) w =
          (.error f, w.asked (permissionsOf name arguments)) := by
        rw [outcome_call, hprep, hjob]
        simp only [Job.perform, ifGiven, hs, ite_true, Workspace.outcome_bind,
          outcome_writeDrawing_asked h]
      rw [TurnedDown, hcall]
      exact ⟨⟨f, rfl⟩, w.untouched_asked _⟩

/-- A call that is turned down fails with the fault that it is turned down for and does nothing: no file
or directory changes, the browser is asked for nothing, and at most the settings come to be in force.
Where a drawing and a picture of it are asked for, the denial of either turns the call down, and so does a
drawing that cannot be written. -/
theorem rejected_call_does_nothing (w : Workspace) (name : String) (arguments : Value) :
    (∀ f, Rejected w name arguments f →
      (outcome (call name arguments) w).1 = .error f ∧
        Untouched w (outcome (call name arguments) w).2) ∧
    (∀ text svg png, Demand.read name arguments = .ok (.drawing text svg png) →
      svg.isGiven = true → png.isGiven = true → Denies w .svg svg ∨ Denies w .png png →
      TurnedDown w name arguments) ∧
    (∀ text svg png d f, Demand.read name arguments = .ok (.drawing text svg png) →
      svg.isGiven = true → w.drawText text = .ok d →
      (outcome (writeDrawing d svg) w).1 = .error f → TurnedDown w name arguments) := by
  refine ⟨?_, ?_, ?_⟩
  · intro f h
    exact call_of_unprepared h.prepared_eq
  · intro text svg png read hs hp h
    exact turnedDown_of_denies read hs hp h
  · intro text svg png d f read hs drawn h
    exact turnedDown_of_unwritten read hs drawn h

/-- Drawings, and nothing else, may be written below `/work`; the settings have not been read yet. -/
def drawingsOnly : Workspace :=
  (Workspace.empty ⟨["work"], "/home/ann", []⟩ .plain).withSettings
    "file_output:\n  allowed:\n  - path: /work\n    types: [svg]\n"

def withPicture : Value :=
  .table [(.string "yaml_spec", .string "elements: []"), (.string "output_path", .string "a.svg"),
    (.string "png_path", .string "a.png")]

def misplaced : Value :=
  .table [(.string "yaml_spec", .string "elements: []"),
    (.string "output_path", .string "missing/a.svg")]

theorem denies_picture : Denies drawingsOnly .png (.string "a.png") := by
  have h : (drawingsOnly.inForce >>= fun settings =>
      Access.permits drawingsOnly.host settings (.string "a.png") OutputKind.png.name) =
        .ok false := by
    decide +kernel
  exact Outcome.bind_eq_ok.mp h

/-- The picture is denied after the drawing was granted, and a granted drawing cannot be written. -/
theorem drawingsOnly_does_nothing :
    ((outcome (call svgName withPicture) drawingsOnly).1 = .error (.denied .png "a.png") ∧
      Untouched drawingsOnly (outcome (call svgName withPicture) drawingsOnly).2) ∧
    TurnedDown drawingsOnly svgName withPicture ∧ TurnedDown drawingsOnly svgName misplaced := by
  have read : Demand.read svgName withPicture =
      .ok (.drawing (.string "elements: []") (.string "a.svg") (.string "a.png")) := rfl
  have rejected : Rejected drawingsOnly svgName withPicture (.denied .png "a.png") :=
    .denied read (show _ = [(.svg, .string "a.svg")] ++ (.png, .string "a.png") :: [] from rfl)
      (by decide +kernel) denies_picture
  have read' : Demand.read svgName misplaced =
      .ok (.drawing (.string "elements: []") (.string "missing/a.svg") .null) := rfl
  have drawn : ((drawingsOnly.drawText (.string "elements: []")).toOption).isSome = true := by
    decide +kernel
  obtain ⟨d, hd⟩ := Option.isSome_iff_exists.mp drawn
  refine ⟨(rejected_call_does_nothing _ _ _).1 _ rejected,
    (rejected_call_does_nothing _ _ _).2.1 _ _ _ read rfl rfl (.inr denies_picture),
    (rejected_call_does_nothing _ _ _).2.2 _ _ _ d .fileNotFound read' rfl
      (Outcome.toOption_eq_some.mp hd) rfl⟩

end Tool
end SvgDiagram
