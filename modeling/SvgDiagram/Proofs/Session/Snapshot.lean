import SvgDiagram.Proofs.Tool.Stages
import SvgDiagram.Session

/-!
The settings in force are a snapshot of their file. Every step leaves the settings alone, clears them, or
loads them some number of times, and what each load finds can be told from the step and the workspace it is
taken in. So the settings in force after a session are what was found by the first load, counted from the
last time they were cleared, that found something readable. What else is written to the file, be it by a
tool, does not matter.
-/

namespace SvgDiagram
namespace Workspace

/-- What a load of the settings finds: a text, no file, or a file that is no text. -/
abbrev Found := Except Fault (Option String)

/-- The text that the first load that succeeds has found. -/
def loaded? (founds : List Found) : Option (Option String) :=
  founds.findSome? fun found => found.toOption.filter fun text => (Access.ofText text).toOption.isSome

def snapshot? (founds : List Found) : Option Value :=
  (loaded? founds).bind fun text => (Access.ofText text).toOption

theorem loaded?_append (past founds : List Found) :
    loaded? (past ++ founds) = (loaded? past).or (loaded? founds) :=
  List.findSome?_append

theorem ofText_of_loaded? {founds : List Found} {text : Option String}
    (h : loaded? founds = some text) :
    ∃ settings, Access.ofText text = .ok settings ∧ snapshot? founds = some settings := by
  obtain ⟨found, -, hfound⟩ := List.exists_of_findSome?_eq_some h
  have hsome := (Option.filter_eq_some_iff.mp hfound).2
  obtain ⟨settings, hs⟩ := Option.isSome_iff_exists.mp hsome
  refine ⟨settings, Outcome.toOption_eq_some.mp hs, ?_⟩
  rw [snapshot?, h, Option.bind_some, hs]

theorem snapshot?_append (past founds : List Found) :
    snapshot? (past ++ founds) = (snapshot? past).or (snapshot? founds) := by
  cases h : loaded? past with
  | none => simp [snapshot?, loaded?_append, h]
  | some text =>
      obtain ⟨settings, hs, hpast⟩ := ofText_of_loaded? h
      rw [hpast, snapshot?, loaded?_append, h, Option.some_or, Option.bind_some, hs]
      rfl

theorem snapshot?_singleton (found : Found) :
    snapshot? [found] = (found >>= Access.ofText).toOption := by
  cases found with
  | error f => rfl
  | ok text => cases h : Access.ofText text <;> simp [snapshot?, loaded?, Except.toOption, Option.filter, h]

/-- Loads have found these texts one after the other; besides that, nothing has changed that permissions
depend on. -/
structure Consulted (founds : List Found) (w w' : Workspace) : Prop where
  host : w'.host = w.host
  settings : w'.settings = w.settings.or (snapshot? founds)

namespace Consulted

variable {founds more : List Found} {w w' w'' : Workspace}

theorem of_eq (host : w'.host = w.host) (settings : w'.settings = w.settings) : Consulted [] w w' :=
  ⟨host, by rw [settings]; exact Option.or_none.symm⟩

theorem refl (w : Workspace) : Consulted [] w w := .of_eq rfl rfl

theorem comp (h : Consulted founds w w') (h' : Consulted more w' w'') :
    Consulted (founds ++ more) w w'' where
  host := h'.host.trans h.host
  settings := by rw [h'.settings, h.settings, snapshot?_append, Option.or_assoc]

theorem trans (h : Consulted [] w w') (h' : Consulted [] w' w'') : Consulted [] w w'' := h.comp h'

end Consulted

theorem snapshot?_of_unreadable {w : Workspace} {f : Fault} (h : w.inForce = .error f) :
    snapshot? [w.settingsFound] = none := by
  rw [snapshot?_singleton, ← inForce_of_none (settings_of_inForce_error h), h]
  rfl

theorem grantAll_of_unreadable {w : Workspace} {f : Fault} (h : w.inForce = .error f)
    {ps : List (OutputKind × Value)} {u : Unit} (hg : w.grantAll ps = .ok u) : ps = [] := by
  cases ps with
  | nil => rfl
  | cons p rest => simp [grantAll, grant, h] at hg

theorem consulted_remembering (w : Workspace) : Consulted [w.settingsFound] w w.remembering := by
  refine ⟨rfl, ?_⟩
  cases hs : w.settings with
  | some settings => rw [remembering_of_settings hs, hs, Option.some_or]
  | none => rw [Option.none_or, snapshot?_singleton, ← inForce_of_none hs, remembering]

section
variable {α β : Type}

/-- An action that leaves the settings alone, wherever it is taken. -/
def Keeps (act : Action α) : Prop := ∀ w, Leads (Consulted []) act w fun _ _ => True

theorem keeps_of_outcome {act : Action α} (h : ∀ w, Consulted [] w (outcome act w).2) :
    Keeps act :=
  fun w => ⟨h w, fun _ _ => trivial⟩

theorem Keeps.bind {x : Action α} {f : α → Action β} (hx : Keeps x) (hf : ∀ a, Keeps (f a)) :
    Keeps (x >>= f) :=
  fun w => .bind .trans (hx w) fun a w' _ _ => hf a w'

theorem keeps_pure (a : α) : Keeps (pure a) := keeps_of_outcome .refl

theorem keeps_attempt (x : Except Fault α) : Keeps (attempt x) :=
  keeps_of_outcome fun w => by rw [outcome_attempt]; exact .refl w

theorem keeps_get : Keeps get := keeps_of_outcome .refl

theorem keeps_modify {g : Workspace → Workspace} (h : ∀ w, Consulted [] w (g w)) :
    Keeps (modify g) :=
  keeps_of_outcome h

end

theorem keeps_putFile (place : Files.Place) (content : Content) : Keeps (putFile place content) := by
  apply keeps_of_outcome
  intro w
  rw [outcome_putFile]
  split <;> exact .of_eq rfl rfl

theorem keeps_writeOutput (kind : OutputKind) (p : Files.Path) (content : Content) :
    Keeps (writeOutput kind p content) := by
  apply keeps_of_outcome
  intro w
  rw [outcome_writeOutput]
  split <;> exact .of_eq rfl rfl

theorem keeps_makeDirectory (p : Files.Path) : Keeps (makeDirectory p) := by
  apply keeps_of_outcome
  intro w
  simp only [makeDirectory, outcome_bind, outcome_get, outcome_set, outcome_attempt]
  exact .of_eq rfl rfl

theorem keeps_call (c : Render.Call) : Keeps (call c) := keeps_modify fun _ => .of_eq rfl rfl

theorem keeps_call_bind {α : Type} {c : Render.Call} {f : PUnit → Action α} (h : Keeps (f ⟨⟩)) :
    Keeps (call c >>= f) :=
  (keeps_call c).bind fun _ => h

theorem keeps_writeFile (p : Files.Path) (text : String) : Keeps (writeFile p text) := by
  apply (keeps_makeDirectory _).bind
  intro _
  apply keeps_get.bind
  intro w
  exact (keeps_attempt _).bind fun place => keeps_putFile place _

/-- What is written to the file of the settings does not change those in force. -/
theorem keeps_replaceSettings (text : Option String) : Keeps (replaceSettings text) := by
  cases text with
  | some text => exact keeps_get.bind fun w => keeps_writeFile _ text
  | none =>
      intro w
      apply Leads.get_bind
      split
      · refine .attempt_bind .refl ?_
        intro place _
        refine .attempt_bind .refl ?_
        intro files _
        exact ⟨.of_eq rfl rfl, fun _ _ => trivial⟩
      · exact keeps_pure _ w

theorem keeps_capture (picture : Picture) (output width height : Value) :
    Keeps (capture picture output width height) := by
  apply (keeps_attempt _).bind
  intro size
  repeat apply keeps_call_bind
  apply (keeps_attempt _).bind
  intro p
  exact (keeps_writeOutput _ _ _).bind fun _ => keeps_call _

theorem keeps_moveRecording (name : String) (page : Render.Page) (output : Value) :
    Keeps (moveRecording name page output) := by
  intro w
  apply Leads.get_bind
  refine .bind .trans (keeps_putFile _ _ w) ?_
  intro _ w₁ _ _
  apply Leads.get_bind
  cases output with
  | string path =>
      refine .attempt_bind .refl ?_
      intro place _
      have hremove : Leads (Consulted [])
          (set { w₁ with files := w₁.files.remove (w.host.directory ++ [name]) }) w₁
          fun _ _ => True :=
        ⟨.of_eq rfl rfl, fun _ _ => trivial⟩
      refine .bind .trans hremove ?_
      intro _ w₂ _ _
      refine .bind .trans (keeps_putFile _ _ w₂) ?_
      intro _ w₃ _ _
      exact ⟨.of_eq rfl rfl, fun _ _ => trivial⟩
  | _ => exact .throw .refl _ _

theorem keeps_record (picture : Picture) (output duration width height : Value) :
    Keeps (record picture output duration width height) := by
  apply (keeps_attempt _).bind
  intro size
  repeat apply keeps_call_bind
  apply keeps_get.bind
  intro w
  cases w.recording with
  | file name => exact keeps_moveRecording _ _ _
  | absent | unplaced => exact keeps_pure _

theorem keeps_prepare (output : Value) : Keeps (prepare output) := by
  apply (keeps_attempt _).bind
  intro p
  exact (keeps_makeDirectory _).bind fun _ => keeps_pure p

theorem keeps_save (output : Value) (draw : Workspace → Except Fault Drawing) :
    Keeps (save output draw) := by
  apply (keeps_prepare output).bind
  intro p
  apply keeps_get.bind
  intro w
  apply (keeps_attempt _).bind
  intro d
  exact (keeps_writeOutput _ _ _).bind fun _ => keeps_pure _

theorem keeps_showText (text output : Value) {render : Picture → Value → Action Unit}
    (h : ∀ picture path, Keeps (render picture path)) : Keeps (showText text output render) := by
  apply (keeps_prepare output).bind
  intro p
  apply keeps_get.bind
  intro w
  apply (keeps_attempt _).bind
  intro d
  exact (h _ _).bind fun _ => keeps_pure _

theorem keeps_perform (request : Export) : Keeps (perform request) := by
  cases request with simp only [perform]
  | drawText text =>
      apply keeps_get.bind
      intro w
      exact (keeps_attempt _).bind fun d => keeps_pure _
  | saveText text output => exact keeps_save _ _
  | drawFile path =>
      apply (keeps_attempt _).bind
      intro p
      apply keeps_get.bind
      intro w
      exact (keeps_attempt _).bind fun d => keeps_pure _
  | saveFile path output => exact (keeps_attempt _).bind fun p => keeps_save _ _
  | drawScene scene => exact (keeps_attempt _).bind fun d => keeps_pure _
  | saveScene scene output => exact keeps_save _ _
  | captureText text output width height =>
      exact keeps_showText _ _ fun _ _ => keeps_capture _ _ _ _
  | recordText text output duration =>
      exact keeps_showText _ _ fun _ _ => keeps_record _ _ _ _ _

end Workspace

namespace Tool

open Workspace (Keeps keeps_pure Consulted outcome)

theorem keeps_ifGiven (path : Value) {act : Action Unit} (h : Keeps act) :
    Keeps (ifGiven path act) := by
  simp only [ifGiven]
  split
  · exact h
  · exact keeps_pure _

theorem keeps_jobPerform (job : Job) : Keeps job.perform := by
  cases job with
  | drawing d svg png =>
      have hwrite : Keeps (writeDrawing d svg) :=
        (Workspace.keeps_attempt _).bind fun p => Workspace.keeps_writeOutput _ _ _
      apply (keeps_ifGiven svg hwrite).bind
      intro _
      apply (keeps_ifGiven png (Workspace.keeps_capture _ _ _ _)).bind
      intro _
      exact keeps_pure _
  | video picture output duration =>
      exact (Workspace.keeps_record _ _ _ _ _).bind fun _ => keeps_pure _

/-- What a call finds when it asks for permissions. Nothing is written in between, so that it is the same
each time. -/
def founds (w : Workspace) (name : String) (arguments : Value) : List Workspace.Found :=
  if (permissionsOf name arguments).isEmpty then [] else [w.settingsFound]

theorem consulted_asked (name : String) (arguments : Value) (w : Workspace) :
    Consulted (founds w name arguments) w (w.asked (permissionsOf name arguments)) := by
  simp only [founds, Workspace.asked]
  split
  · exact .refl w
  · exact w.consulted_remembering

theorem consulted_call (name : String) (arguments : Value) (w : Workspace) :
    Consulted (founds w name arguments) w (outcome (call name arguments) w).2 := by
  have hasked := consulted_asked name arguments w
  rw [outcome_call]
  cases prepared w name arguments with
  | error f => exact hasked
  | ok job =>
      have hperform := (keeps_jobPerform job (w.asked (permissionsOf name arguments))).1
      simpa only [List.append_nil] using hasked.comp hperform

theorem snapshot?_founds {w : Workspace} {f : Fault} (h : w.inForce = .error f) (name : String)
    (arguments : Value) : Workspace.snapshot? (founds w name arguments) = none := by
  simp only [founds]
  split
  · rfl
  · exact Workspace.snapshot?_of_unreadable h

/-- While the settings cannot be read, a call changes nothing: it fails, or has nothing to write. -/
theorem outcome_call_of_unreadable {w : Workspace} {f : Fault} (h : w.inForce = .error f)
    (name : String) (arguments : Value) : (outcome (call name arguments) w).2 = w := by
  have hasked : w.asked (permissionsOf name arguments) = w := by
    simp only [Workspace.asked, Workspace.remembering_of_error h, ite_self]
  rw [outcome_call, hasked]
  cases hprepared : prepared w name arguments with
  | error e => rfl
  | ok job =>
      simp only [prepared, Outcome.bind_eq_ok] at hprepared
      obtain ⟨demand, -, _, hgranted, hjob⟩ := hprepared
      have hnone := Workspace.grantAll_of_unreadable h hgranted
      cases demand with
      | drawing text svg png =>
          obtain ⟨d, -, hjob⟩ := Outcome.bind_eq_ok.mp hjob
          cases hjob
          simp only [Demand.permissions, List.filter_eq_nil_iff, List.forall_mem_cons] at hnone
          simp [Job.perform, ifGiven, hnone.1, hnone.2.1]
      | video markup output duration => cases hnone

end Tool

namespace Server

open Workspace (Consulted)

def Request.founds (w : Workspace) : Request → List Workspace.Found
  | .list => []
  | .call name arguments => Tool.founds w name arguments

def founds (w : Workspace) : List Request → List Workspace.Found
  | [] => []
  | r :: rest => r.founds w ++ founds (Workspace.outcome (answer r) w).2 rest

theorem consulted_answer (r : Request) (w : Workspace) :
    Consulted (r.founds w) w (Workspace.outcome (answer r) w).2 := by
  cases r with
  | list => exact .refl w
  | call name arguments =>
      rw [answer, Workspace.outcome_bind_pure]
      exact Tool.consulted_call name arguments w

theorem consulted_answerAll (rs : List Request) (w : Workspace) :
    Consulted (founds w rs) w (answerAll w rs).2 := by
  induction rs generalizing w with
  | nil => exact .refl w
  | cons r rs ih => exact (consulted_answer r w).comp (ih _)

theorem outcome_answer_of_unreadable {w : Workspace} {f : Fault} (h : w.inForce = .error f)
    (r : Request) : (Workspace.outcome (answer r) w).2 = w := by
  cases r with
  | list => rfl
  | call name arguments =>
      rw [answer, Workspace.outcome_bind_pure]
      exact Tool.outcome_call_of_unreadable h name arguments

theorem snapshot?_founds {w : Workspace} {f : Fault} (h : w.inForce = .error f)
    (rs : List Request) : Workspace.snapshot? (founds w rs) = none := by
  induction rs with
  | nil => rfl
  | cons r rs ih =>
      have hr : Workspace.snapshot? (r.founds w) = none := by
        cases r with
        | list => rfl
        | call name arguments => exact Tool.snapshot?_founds h name arguments
      rw [founds, outcome_answer_of_unreadable h, Workspace.snapshot?_append, hr, ih]
      rfl

end Server

namespace Session

open Workspace (Consulted Found loaded? snapshot? outcome)

/-- What the loads of a step find, in order. -/
def Step.founds (w : Workspace) : Step → List Found
  | .load | .isPermitted _ _ => [w.settingsFound]
  | .tool name arguments => Tool.founds w name arguments
  | .serve requests _ => Server.founds w requests
  | .settings _ | .file _ _ | .clear | .perform _ | .capture _ _ _ _ | .record _ _ _ _ _ => []

/-- What the loads up to the end of a turn have found since the settings were last cleared. -/
def Turn.recorded (past : List Found) (w : Workspace) (t : Turn) : List Found :=
  match t.step with
  | .clear => []
  | s => past ++ s.founds (opened w t.recording)

def historyFrom (past : List Found) (w : Workspace) : List Turn → List Found
  | [] => past
  | t :: rest => historyFrom (t.recorded past w) (take w t).2 rest

/-- What the loads of a session have found since the settings were last cleared. -/
def history (w : Workspace) (turns : List Turn) : List Found := historyFrom [] w turns

theorem Turn.recorded_of_ne_clear {t : Turn} (h : t.step ≠ .clear) (past : List Found)
    (w : Workspace) : t.recorded past w = past ++ t.step.founds (opened w t.recording) := by
  simp only [recorded]

/-- Steps other than clearing the settings do no more to them than to load them. -/
theorem consulted_act {s : Step} (hclear : s ≠ .clear) (w : Workspace) :
    Consulted (s.founds w) w (outcome (act s) w).2 := by
  cases s with
  | clear => exact absurd rfl hclear
  | settings text =>
      rw [act, Workspace.outcome_bind_pure]
      exact (Workspace.keeps_replaceSettings text w).1
  | file path text =>
      rw [act, Workspace.outcome_bind_pure]
      exact ((Workspace.keeps_attempt _).bind fun p => Workspace.keeps_writeFile p text) w |>.1
  | load =>
      rw [act, Workspace.outcome_bind_pure, Workspace.outcome_settingsInForce]
      exact w.consulted_remembering
  | isPermitted path kind =>
      rw [act, Workspace.outcome_bind_pure, Workspace.outcome_isPermitted]
      exact w.consulted_remembering
  | tool name arguments =>
      rw [act, Workspace.outcome_bind_pure]
      exact Tool.consulted_call name arguments w
  | perform request =>
      rw [act, Workspace.outcome_bind_pure]
      exact (Workspace.keeps_perform request w).1
  | serve requests breaks => exact Server.consulted_answerAll requests w
  | capture markup output width height =>
      rw [act, Workspace.outcome_bind_pure]
      exact (Workspace.keeps_capture _ _ _ _ w).1
  | record markup output duration width height =>
      rw [act, Workspace.outcome_bind_pure]
      exact (Workspace.keeps_record _ _ _ _ _ w).1

/-- One turn keeps the settings in force and the record of what was loaded in step. -/
theorem settings_take {past : List Found} {w : Workspace} (h : w.settings = snapshot? past)
    (t : Turn) : (take w t).2.settings = snapshot? (t.recorded past w) := by
  by_cases hclear : t.step = .clear
  · simp only [take, Turn.recorded, hclear, act]
    rfl
  · rw [Turn.recorded_of_ne_clear hclear, Workspace.snapshot?_append, ← h]
    exact (consulted_act hclear (opened w t.recording)).settings

theorem settings_runFrom {past : List Found} {w : Workspace} (h : w.settings = snapshot? past)
    (turns : List Turn) : (run w turns).2.settings = snapshot? (historyFrom past w turns) := by
  induction turns generalizing past w with
  | nil => exact h
  | cons t rest ih => exact ih (settings_take h t)

theorem settings_run {w : Workspace} (start : w.settings = none) (turns : List Turn) :
    (run w turns).2.settings = snapshot? (history w turns) := by
  have h : w.settings = snapshot? [] := start
  exact settings_runFrom h turns

theorem snapshot?_founds {w : Workspace} {f : Fault} (h : w.inForce = .error f) (s : Step) :
    snapshot? (s.founds w) = none := by
  cases s with
  | load | isPermitted path kind => exact Workspace.snapshot?_of_unreadable h
  | tool name arguments => exact Tool.snapshot?_founds h name arguments
  | serve requests breaks => exact Server.snapshot?_founds h requests
  | _ => rfl

theorem settings_take_of_unreadable {w : Workspace} {f : Fault} (h : w.inForce = .error f)
    (t : Turn) : (take w t).2.settings = none := by
  have hopened : (opened w t.recording).inForce = .error f := h
  have hstart : w.settings = snapshot? [] := Workspace.settings_of_inForce_error h
  rw [settings_take hstart t]
  by_cases hclear : t.step = .clear
  · rw [Turn.recorded, hclear]
    rfl
  · rw [Turn.recorded_of_ne_clear hclear, List.nil_append, snapshot?_founds hopened]

theorem host_take (w : Workspace) (t : Turn) : (take w t).2.host = w.host := by
  by_cases hclear : t.step = .clear
  · simp only [take, hclear]
    rfl
  · exact (consulted_act hclear (opened w t.recording)).host

theorem host_run (w : Workspace) (turns : List Turn) : (run w turns).2.host = w.host := by
  induction turns generalizing w with
  | nil => rfl
  | cons t rest ih => exact (ih _).trans (host_take w t)

theorem historyFrom_append (past : List Found) (w : Workspace) (turns more : List Turn) :
    historyFrom past w (turns ++ more) =
      historyFrom (historyFrom past w turns) (run w turns).2 more := by
  induction turns generalizing past w with
  | nil => rfl
  | cons t rest ih => exact ih _ _

/-- Once a load has succeeded, no turn but one that clears the settings changes what it found. -/
theorem loaded?_historyFrom {past : List Found} {text : Option String}
    (hl : loaded? past = some text) (w : Workspace) {turns : List Turn}
    (ht : ∀ t ∈ turns, t.step ≠ .clear) : loaded? (historyFrom past w turns) = some text := by
  induction turns generalizing past w with
  | nil => exact hl
  | cons t rest ih =>
      obtain ⟨hclear, hrest⟩ := List.forall_mem_cons.mp ht
      refine ih ?_ _ hrest
      rw [Turn.recorded_of_ne_clear hclear, Workspace.loaded?_append, hl, Option.some_or]

theorem settings_of_loaded? {w : Workspace} (start : w.settings = none) {turns : List Turn}
    {text : Option String} (hl : loaded? (history w turns) = some text) :
    ∃ settings, Access.ofText text = .ok settings ∧ (run w turns).2.settings = some settings := by
  obtain ⟨settings, hs, hsnapshot⟩ := Workspace.ofText_of_loaded? hl
  exact ⟨settings, hs, (settings_run start turns).trans hsnapshot⟩

theorem inForce_run {w : Workspace} (start : w.settings = none) {turns more : List Turn}
    {text : Option String} (hl : loaded? (history w turns) = some text)
    (hmore : ∀ t ∈ more, t.step ≠ .clear) :
    (run w (turns ++ more)).2.inForce = Access.ofText text := by
  have hlast : loaded? (history w (turns ++ more)) = some text := by
    rw [history, historyFrom_append]
    exact loaded?_historyFrom hl _ hmore
  obtain ⟨settings, hs, hsettings⟩ := settings_of_loaded? start hlast
  rw [Workspace.inForce_of_settings hsettings, hs]

/-- Two workspaces answer every question about permissions alike: the question itself, the check of a
tool, and all checks of a call together. -/
structure AnswersAlike (w w' : Workspace) : Prop where
  query : ∀ path kind recording, (take w ⟨.isPermitted path kind, recording⟩).1.answer =
    (take w' ⟨.isPermitted path kind, recording⟩).1.answer
  check : ∀ kind path, (outcome (Workspace.needPermission kind path) w).1 =
    (outcome (Workspace.needPermission kind path) w').1
  call : ∀ name arguments, (outcome (Tool.ask name arguments) w).1 =
    (outcome (Tool.ask name arguments) w').1

theorem answersAlike {w w' : Workspace} (host : w.host = w'.host)
    (inForce : w.inForce = w'.inForce) : AnswersAlike w w' := by
  have hgrant (kind : OutputKind) (path : Value) : w.grant kind path = w'.grant kind path := by
    simp only [Workspace.grant, host, inForce]
  have hgrants (ps : List (OutputKind × Value)) : w.grantAll ps = w'.grantAll ps := by
    induction ps with
    | nil => rfl
    | cons p rest ih => simp only [Workspace.grantAll, hgrant, ih]
  refine ⟨?_, ?_, ?_⟩
  · intro path kind recording
    have hanswer (v : Workspace) : (take v ⟨.isPermitted path kind, recording⟩).1.answer =
        (v.inForce >>= fun s => Access.permits v.host s path kind).map Answer.flag := by
      simp only [take, act, Workspace.outcome_bind_pure, Workspace.outcome_isPermitted]
      rfl
    rw [hanswer, hanswer, host, inForce]
  · intro kind path
    simp only [Workspace.outcome_needPermission, hgrant]
  · intro name arguments
    simp only [Tool.outcome_ask, hgrants]

/-- In every session that starts without settings in force, the settings in force are those that were found
by the first load that succeeded since they were last cleared, and there are none if no load has. A turn
taken while the settings cannot be read puts none in force. And two sessions in which those loads found the
same text answer all questions about permissions alike until the settings are cleared, whatever else
happens in them. -/
theorem settings_in_force_are_snapshot (w : Workspace) (start : w.settings = none)
    (turns : List Turn) :
    (loaded? (history w turns) = none → (run w turns).2.settings = none) ∧
    (∀ text, loaded? (history w turns) = some text →
      ∃ settings, Access.ofText text = .ok settings ∧
        (run w turns).2.settings = some settings) ∧
    (∀ t f, (run w turns).2.inForce = .error f → (take (run w turns).2 t).2.settings = none) ∧
    (∀ w' turns' text more more', w'.settings = none → w'.host = w.host →
      loaded? (history w turns) = some text → loaded? (history w' turns') = some text →
      (∀ t ∈ more, t.step ≠ .clear) → (∀ t ∈ more', t.step ≠ .clear) →
      AnswersAlike (run w (turns ++ more)).2 (run w' (turns' ++ more')).2) := by
  refine ⟨?_, ?_, ?_, ?_⟩
  · intro hl
    rw [settings_run start turns, snapshot?, hl, Option.bind_none]
  · intro text hl
    exact settings_of_loaded? start hl
  · intro t f hf
    exact settings_take_of_unreadable hf t
  · intro w' turns' text more more' start' host hl hl' hmore hmore'
    apply answersAlike
    · rw [host_run, host_run, host]
    · rw [inForce_run start hl hmore, inForce_run start' hl' hmore']

def bareWorkspace : Workspace := Workspace.empty ⟨["work"], "/home/ann", []⟩ .plain

/-- Settings that let drawings be written all over the home, and so over the settings themselves. -/
def homeText : String := "file_output:\n  allowed:\n  - path: \"~\"\n    types: [svg]\n"

def overwriting : Turn :=
  ⟨.tool Tool.svgName (.table [(.string "yaml_spec", .string "elements: []"),
    (.string "output_path", .string "/home/ann/.config/mcp-svg-animator/config.yaml")]), .absent⟩

def correctedSession : List Turn :=
  [⟨.settings (some "file_output: ["), .absent⟩, ⟨.load, .absent⟩, ⟨.settings (some homeText), .absent⟩,
    ⟨.isPermitted (.string "a.png") "png", .absent⟩]

/-- The settings are in force once a tool was called, though the call fails, and not before. -/
def calledSession : List Turn :=
  [⟨.load, .absent⟩, ⟨.clear, .absent⟩, ⟨.settings (some homeText), .absent⟩,
    ⟨.tool Tool.svgName (.table [(.string "png_path", .string "a.png")]), .absent⟩]

/-- What is loaded after the settings are cleared is the drawing that a tool has written over them. -/
def overwrittenSession : List Turn :=
  correctedSession ++ [overwriting, ⟨.clear, .absent⟩, ⟨.load, .absent⟩]

def drawnText : String := "<svg width=\"400\" height=\"300\">"

/-- The first two sessions keep the settings of the one text, whatever it is replaced by and by whom. -/
theorem sessions_keep_snapshot :
    (∃ settings, Access.ofText (some homeText) = .ok settings ∧
      (run bareWorkspace correctedSession).2.settings = some settings) ∧
    (take (run bareWorkspace (correctedSession.take 1)).2 ⟨.load, .absent⟩).2.settings = none ∧
    AnswersAlike (run bareWorkspace (correctedSession ++ [⟨.settings none, .absent⟩])).2
      (run bareWorkspace (calledSession ++ [overwriting, ⟨.load, .absent⟩])).2 ∧
    ∃ settings, Access.ofText (some drawnText) = .ok settings ∧
      (run bareWorkspace overwrittenSession).2.settings = some settings := by
  have hl : loaded? (history bareWorkspace correctedSession) = some (some homeText) := by
    decide +kernel
  have hl' : loaded? (history bareWorkspace calledSession) = some (some homeText) := by
    decide +kernel
  have hunread : (run bareWorkspace (correctedSession.take 1)).2.inForce.toOption.isNone := by
    decide +kernel
  have hover : loaded? (history bareWorkspace overwrittenSession) = some (some drawnText) := by
    decide +kernel
  have start : bareWorkspace.settings = none := rfl
  refine ⟨?_, ?_, ?_, ?_⟩
  · exact (settings_in_force_are_snapshot bareWorkspace start correctedSession).2.1 _ hl
  · cases hbad : (run bareWorkspace (correctedSession.take 1)).2.inForce with
    | error f =>
        exact (settings_in_force_are_snapshot bareWorkspace start (correctedSession.take 1)).2.2.1
          ⟨.load, .absent⟩ f hbad
    | ok settings =>
        rw [hbad] at hunread
        cases hunread
  · apply (settings_in_force_are_snapshot bareWorkspace start correctedSession).2.2.2
      bareWorkspace calledSession (some homeText) _ _ start rfl hl hl'
    · simp
    · simp [overwriting]
  · exact (settings_in_force_are_snapshot bareWorkspace start overwrittenSession).2.1 _ hover

end Session
end SvgDiagram
