import SvgDiagram.Proofs.Access.Cover
import SvgDiagram.Proofs.Files.Lookup
import SvgDiagram.Proofs.Workspace.Action
import SvgDiagram.Tool.Call

/-!
Confinement of what a tool writes. Every action of a tool leads from a state to confined ones: what is
new in the journal of outputs, and what the browser was newly told to show, is covered by the settings in
force, and no file has changed anywhere else. Confinement composes, so it is enough to look at the
actions that write, each after the permission that was asked for it.
-/

namespace SvgDiagram
namespace Workspace

open Files (Place Path)

/-- The settings in force let files of a kind be put into a directory. -/
def Writable (w : Workspace) (kind : OutputKind) (directory : Place) : Prop :=
  ∃ settings, w.settings = some settings ∧ Access.Allows w.host settings kind.name directory

/-- A recording is at the place before it is moved. -/
def RecordedAt (w : Workspace) (place : Place) : Prop :=
  ∃ name, w.recording = .file name ∧ place = w.host.directory ++ [name]

/-- The workspace may have become the other one without a write outside the settings in force. -/
structure Confined (w w' : Workspace) : Prop where
  host : w'.host = w.host
  recording : w'.recording = w.recording
  settings : ∀ s, w.settings = some s → w'.settings = some s
  /-- All outputs are covered, and only outputs and recordings change. -/
  written : ∃ outputs, w'.outputs = w.outputs ++ outputs ∧
    (∀ o ∈ outputs, Writable w' o.kind o.place.dropLast) ∧
    ∀ place, w'.files.entry? place ≠ w.files.entry? place →
      w.RecordedAt place ∨ ∃ o ∈ outputs, o.place = place
  /-- A path that the browser gets for a picture is covered. -/
  shown : ∃ calls, w'.calls = w.calls ++ calls ∧ ∀ path, .screenshot path ∈ calls →
    ∃ place, (Path.ofString path).resolve w.host.directory = .ok place ∧
      Writable w' .png place.dropLast

namespace Confined

variable {w w' w'' : Workspace}

theorem writable (h : Confined w w') {kind : OutputKind} {directory : Place}
    (hw : Writable w kind directory) : Writable w' kind directory := by
  obtain ⟨s, hs, ha⟩ := hw
  exact ⟨s, h.settings s hs, by rwa [h.host]⟩

theorem recordedAt_iff (h : Confined w w') (place : Place) :
    w'.RecordedAt place ↔ w.RecordedAt place := by
  rw [RecordedAt, RecordedAt, h.recording, h.host]

theorem refl (w : Workspace) : Confined w w where
  host := rfl
  recording := rfl
  settings := fun _ h => h
  written := ⟨[], by simp, by simp, fun _ h => absurd rfl h⟩
  shown := ⟨[], by simp, by simp⟩

theorem trans (h : Confined w w') (h' : Confined w' w'') : Confined w w'' where
  host := h'.host.trans h.host
  recording := h'.recording.trans h.recording
  settings := fun s hs => h'.settings s (h.settings s hs)
  written := by
    obtain ⟨os, ho, hc, hf⟩ := h.written
    obtain ⟨os', ho', hc', hf'⟩ := h'.written
    refine ⟨os ++ os', by rw [ho', ho, List.append_assoc], ?_, ?_⟩
    · intro o hm
      rcases List.mem_append.mp hm with hm | hm
      · exact h'.writable (hc o hm)
      · exact hc' o hm
    · intro place hne
      -- A file that the second part leaves alone was changed by the first.
      by_cases hsame : w''.files.entry? place = w'.files.entry? place
      · rcases hf place (by rwa [← hsame]) with hr | ⟨o, hm, rfl⟩
        · exact .inl hr
        · exact .inr ⟨o, List.mem_append_left _ hm, rfl⟩
      · rcases hf' place hsame with hr | ⟨o, hm, rfl⟩
        · exact .inl ((h.recordedAt_iff place).mp hr)
        · exact .inr ⟨o, List.mem_append_right _ hm, rfl⟩
  shown := by
    obtain ⟨cs, hc, hs⟩ := h.shown
    obtain ⟨cs', hc', hs'⟩ := h'.shown
    refine ⟨cs ++ cs', by rw [hc', hc, List.append_assoc], ?_⟩
    intro path hm
    rcases List.mem_append.mp hm with hm | hm
    · obtain ⟨place, hp, hw⟩ := hs path hm
      exact ⟨place, hp, h'.writable hw⟩
    · obtain ⟨place, hp, hw⟩ := hs' path hm
      exact ⟨place, by rwa [← h.host], hw⟩

end Confined

/-- A path has been granted: the directory of the place it resolves to may be written. -/
def Granted (w : Workspace) (kind : OutputKind) (path : Value) : Prop :=
  ∃ text place, path = .string text ∧ (Path.ofString text).resolve w.host.directory = .ok place ∧
    Writable w kind place.dropLast

theorem Writable.below {w : Workspace} {kind : OutputKind} {directory deeper : Place}
    (h : Writable w kind directory) (hd : directory <+: deeper) : Writable w kind deeper := by
  obtain ⟨s, hs, ha⟩ := h
  exact ⟨s, hs, ha.below hd⟩

theorem Granted.isText {w : Workspace} {kind : OutputKind} {path : Value}
    (h : Granted w kind path) : ∃ text, path = .string text := by
  obtain ⟨text, _, hp, _⟩ := h
  exact ⟨text, hp⟩

theorem Confined.granted {w w' : Workspace} (h : Confined w w') {kind : OutputKind} {path : Value}
    (hg : Granted w kind path) : Granted w' kind path := by
  obtain ⟨text, place, rfl, hp, hw⟩ := hg
  exact ⟨text, place, rfl, by rwa [h.host], h.writable hw⟩

/-- Actions that change neither files nor journals, and no settings that are in force. -/
theorem Confined.of_settings {w w' : Workspace} (host : w'.host = w.host)
    (recording : w'.recording = w.recording)
    (settings : ∀ s, w.settings = some s → w'.settings = some s) (files : w'.files = w.files)
    (outputs : w'.outputs = w.outputs) (calls : w'.calls = w.calls) : Confined w w' where
  host := host
  recording := recording
  settings := settings
  written := ⟨[], by simp [outputs], by simp, fun _ h => absurd (by rw [files]) h⟩
  shown := ⟨[], by simp [calls], by simp⟩

variable {w : Workspace}

section
variable {α β : Type} {post : β → Workspace → Prop}

theorem leads_pure (a : α) : Leads Confined (pure a) w fun _ _ => True :=
  (Leads.pure Confined.refl a).weaken fun _ _ _ _ => trivial

theorem leads_get_bind {f : Workspace → Action β} (hf : Leads Confined (f w) w post) :
    Leads Confined (get >>= f) w post :=
  .get_bind hf

theorem leads_attempt_bind {x : Except Fault α} {f : α → Action β}
    (hf : ∀ a, x = .ok a → Leads Confined (f a) w post) :
    Leads Confined (attempt x >>= f) w post :=
  .attempt_bind .refl hf

end

theorem leads_settingsInForce :
    Leads Confined settingsInForce w fun s w' => w'.settings = some s := by
  refine leads_get_bind ?_
  cases hs : w.settings with
  | some s =>
      refine (Leads.pure Confined.refl s).weaken ?_
      rintro _ _ _ ⟨rfl, rfl⟩
      exact hs
  | none =>
      refine leads_attempt_bind fun s _ => ?_
      have hc : Confined w { w with settings := some s } :=
        .of_settings rfl rfl (by simp [hs]) rfl rfl rfl
      exact ⟨hc, fun _ h => by cases h; rfl⟩

/-- Asking for a permission gives it, or fails. -/
theorem leads_needPermission (kind : OutputKind) (path : Value) :
    Leads Confined (needPermission kind path) w fun _ w' => Granted w' kind path := by
  have hp : Leads Confined (isPermitted path kind.name) w fun b w' =>
      b = true → Granted w' kind path := by
    refine .bind .trans leads_settingsInForce ?_
    intro settings w' _ hs
    refine leads_get_bind ?_
    refine (Leads.attempt Confined.refl _).weaken ?_
    rintro b _ _ ⟨h, rfl⟩ rfl
    obtain ⟨text, place, hpath, hr, ha⟩ := Access.allows_of_permits h
    exact ⟨text, place, hpath, hr, settings, hs, ha⟩
  refine .bind .trans hp ?_
  intro b w' _ hg
  cases b with
  | true => exact (Leads.pure Confined.refl _).weaken fun _ _ hc _ => hc.granted (hg rfl)
  | false => exact .throw .refl _ _

theorem leads_call (c : Render.Call)
    (h : ∀ path, c = .screenshot path → Granted w .png (.string path)) :
    Leads Confined (call c) w fun _ _ => True := by
  have hc : Confined w { w with calls := w.calls ++ [c] } := by
    refine ⟨rfl, rfl, fun _ hs => hs, ⟨[], by simp, by simp, fun _ hne => absurd rfl hne⟩, [c], rfl, ?_⟩
    intro path hm
    obtain ⟨text, place, ht, hp, hw⟩ := h path (List.mem_singleton.mp hm).symm
    cases ht
    exact ⟨place, hp, hw⟩
  exact ⟨hc, fun _ _ => trivial⟩

/-- What has been granted stays so while the browser is asked for things that write nothing. -/
theorem leads_call_bind {β : Type} {c : Render.Call} {f : PUnit → Action β}
    {post : β → Workspace → Prop} {kind : OutputKind} {path : Value}
    (hc : ∀ text, c ≠ .screenshot text) (hg : Granted w kind path)
    (hf : ∀ w', Granted w' kind path → Leads Confined (f ⟨⟩) w' post) :
    Leads Confined (call c >>= f) w post := by
  refine .bind .trans (leads_call c fun text h => absurd h (hc text)) ?_
  rintro _ w' h -
  exact hf w' (h.granted hg)

/-- A file at the place of a recording may come, change and go. -/
theorem Confined.of_recording {w : Workspace} {files : Files.Tree Content} {source : Place}
    (hs : w.RecordedAt source)
    (h : ∀ place, place ≠ source → files.entry? place = w.files.entry? place) :
    Confined w { w with files } where
  host := rfl
  recording := rfl
  settings := fun _ hs => hs
  written := by
    refine ⟨[], by simp, by simp, fun place hne => .inl ?_⟩
    by_cases hp : place = source
    · rwa [hp]
    · exact absurd (h place hp) hne
  shown := ⟨[], by simp, by simp⟩

theorem leads_putRecording {source : Place} (hs : w.RecordedAt source) (content : Content) :
    Leads Confined (putFile source content) w fun _ _ => True := by
  refine ⟨?_, fun _ _ => trivial⟩
  rw [outcome_putFile]
  cases hwrite : w.files.write source content with
  | error f => exact .refl w
  | ok files => exact .of_recording hs fun place hp => Files.Tree.entry?_write hwrite hp

/-- A file that is put into a directory that may be written, and entered in the journal. -/
theorem leads_putOutput (kind : OutputKind) (place : Place) (content : Content)
    (hw : Writable w kind place.dropLast) :
    Leads Confined (do
      putFile place content
      modify fun w => { w with outputs := w.outputs ++ [⟨kind, place⟩] }) w fun _ _ => True := by
  refine ⟨?_, fun _ _ => trivial⟩
  simp only [outcome_bind, outcome_putFile]
  cases hwrite : w.files.write place content with
  | error f => exact .refl w
  | ok files =>
      refine ⟨rfl, rfl, fun _ hs => hs, ⟨[⟨kind, place⟩], rfl, ?_, ?_⟩, [], by simp, by simp⟩
      · intro o hm
        rw [List.mem_singleton.mp hm]
        exact hw
      · intro other hne
        by_cases ho : other = place
        · exact .inr ⟨_, List.mem_singleton.mpr rfl, ho.symm⟩
        · exact absurd (Files.Tree.entry?_write hwrite ho) hne

/-- A path that was granted is written where it resolves to. -/
theorem leads_writeOutput (kind : OutputKind) (content : Content) {text : String}
    (hg : Granted w kind (.string text)) :
    Leads Confined (writeOutput kind (Path.ofString text) content) w fun _ _ => True := by
  obtain ⟨_, resolved, ht, hr, hw⟩ := hg
  cases ht
  refine leads_get_bind ?_
  refine leads_attempt_bind fun place hfind => ?_
  have hplace : place = resolved := by
    simpa using (Files.Tree.resolve_of_find _ hfind).symm.trans hr
  exact leads_putOutput kind place content (hplace ▸ hw)

/-- A recording is moved to the path that was granted, or into the directory there. -/
theorem leads_moveRecording {name : String} (page : Render.Page) {output : Value}
    (hn : w.recording = .file name) (hg : Granted w .webm output) :
    Leads Confined (moveRecording name page output) w fun _ _ => True := by
  have hs : w.RecordedAt (w.host.directory ++ [name]) := ⟨name, hn, rfl⟩
  refine leads_get_bind ?_
  refine .bind .trans (leads_putRecording hs (.video page)) ?_
  rintro _ w₁ h₁ -
  refine leads_get_bind ?_
  obtain ⟨text, asked, rfl, hr, hw⟩ := h₁.granted hg
  refine leads_attempt_bind fun place hd => ?_
  have hremove : Confined w₁ { w₁ with files := w₁.files.remove (w.host.directory ++ [name]) } :=
    .of_recording ((h₁.recordedAt_iff _).mpr hs) fun p hp => Files.Tree.entry?_remove _ hp
  have hset : Leads Confined (set { w₁ with files := w₁.files.remove (w.host.directory ++ [name]) }) w₁
      fun _ w' => { w₁ with files := w₁.files.remove (w.host.directory ++ [name]) } = w' :=
    ⟨hremove, fun _ _ => rfl⟩
  refine .bind .trans hset ?_
  rintro _ _ _ rfl
  apply leads_putOutput
  apply hremove.writable
  -- Inside a directory the recording is one level below what was granted, and covered all the same.
  rcases Files.Tree.destination_eq_ok _ hd hr with rfl | rfl
  · exact hw
  · rw [List.dropLast_concat]
    exact hw.below (List.dropLast_prefix asked)

theorem leads_capture (picture : Picture) {output : Value} (width height : Value)
    (hg : Granted w .png output) :
    Leads Confined (capture picture output width height) w fun _ _ => True := by
  obtain ⟨text, rfl⟩ := hg.isText
  refine leads_attempt_bind fun size _ => ?_
  refine leads_call_bind (by simp) hg fun w hg => ?_
  refine leads_call_bind (by simp) hg fun w hg => ?_
  refine leads_call_bind (by simp) hg fun w hg => ?_
  refine .bind .trans (leads_call _ fun path hp => by cases hp; exact hg) ?_
  rintro _ w' h -
  refine leads_attempt_bind fun path hp => ?_
  cases hp
  refine .bind .trans (leads_writeOutput .png _ (h.granted hg)) ?_
  rintro _ w _ -
  exact leads_call _ (by simp)

theorem leads_record (picture : Picture) {output : Value} (duration width height : Value)
    (hg : Granted w .webm output) :
    Leads Confined (record picture output duration width height) w fun _ _ => True := by
  refine leads_attempt_bind fun size _ => ?_
  refine leads_call_bind (by simp) hg fun w hg => ?_
  refine leads_call_bind (by simp) hg fun w hg => ?_
  refine leads_call_bind (by simp) hg fun w hg => ?_
  refine leads_call_bind (by simp) hg fun w hg => ?_
  refine leads_call_bind (by simp) hg fun w hg => ?_
  refine leads_call_bind (by simp) hg fun w hg => ?_
  refine leads_call_bind (by simp) hg fun w hg => ?_
  refine leads_get_bind ?_
  cases hn : w.recording with
  | file name => exact leads_moveRecording _ hn hg
  | absent | unplaced => exact leads_pure _

end Workspace

namespace Tool

open Workspace (Leads Confined Granted leads_pure leads_get_bind leads_attempt_bind)

variable {w : Workspace}

theorem leads_ifGiven {path : Value} {act : Action Unit} {post : Workspace → Prop}
    (h : path.isGiven = true → Leads Confined act w fun _ w' => post w') :
    Leads Confined (ifGiven path act) w fun _ w' => path.isGiven = true → post w' := by
  cases hg : path.isGiven with
  | true =>
      simp only [ifGiven, hg, ite_true]
      exact (h hg).weaken fun _ _ _ hp _ => hp
  | false =>
      simp only [ifGiven, hg, Bool.false_eq_true, ite_false]
      exact (Leads.pure Confined.refl _).weaken fun _ _ _ _ hf => hf.elim

theorem leads_createSvg (arguments : Value) :
    Leads Confined (createSvg arguments) w fun _ _ => True := by
  refine leads_attempt_bind fun text _ => ?_
  refine leads_attempt_bind fun svg _ => ?_
  refine leads_attempt_bind fun png _ => ?_
  refine .bind .trans (leads_ifGiven fun _ => Workspace.leads_needPermission .svg svg) ?_
  intro _ w₁ h₁ hsvg
  refine .bind .trans (leads_ifGiven fun _ => Workspace.leads_needPermission .png png) ?_
  intro _ w₂ h₂ hpng
  refine leads_get_bind ?_
  refine leads_attempt_bind fun d _ => ?_
  -- Both permissions were asked for before the drawing; the first is still good after the second.
  have hdraw (given : svg.isGiven = true) :
      Leads Confined (writeDrawing d svg) w₂ fun _ _ => True := by
    have hg := h₂.granted (hsvg given)
    obtain ⟨path, rfl⟩ := hg.isText
    exact Workspace.leads_writeOutput .svg _ hg
  refine .bind .trans (leads_ifGiven hdraw) ?_
  rintro _ w₃ h₃ -
  refine .bind .trans (leads_ifGiven fun given =>
    Workspace.leads_capture _ _ _ (h₃.granted (hpng given))) ?_
  rintro _ w₄ h₄ -
  exact leads_pure _

theorem leads_createVideo (arguments : Value) :
    Leads Confined (createVideo arguments) w fun _ _ => True := by
  refine leads_attempt_bind fun svg _ => ?_
  refine leads_attempt_bind fun output _ => ?_
  refine leads_attempt_bind fun asked _ => ?_
  refine leads_attempt_bind fun duration _ => ?_
  refine .bind .trans (Workspace.leads_needPermission .webm output) ?_
  intro _ w₁ h₁ hg
  refine leads_attempt_bind fun picture _ => ?_
  refine .bind .trans (Workspace.leads_record _ _ _ _ hg) ?_
  rintro _ w₂ h₂ -
  exact leads_pure _

/-- A call of a tool, whatever its name and arguments, leads to confined states only. -/
theorem leads_call (name : String) (arguments : Value) :
    Leads Confined (call name arguments) w fun _ _ => True := by
  simp only [call]
  split
  · exact leads_createSvg arguments
  · split
    · exact leads_createVideo arguments
    · exact .throw .refl _ _

end Tool
end SvgDiagram
