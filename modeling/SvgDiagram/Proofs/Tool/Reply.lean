import SvgDiagram.Proofs.Tool.Rejection
import SvgDiagram.Proofs.Workspace.Calls
import SvgDiagram.Proofs.Workspace.Confinement
import SvgDiagram.Proofs.Workspace.Written

/-!
What a call that succeeds has done, next to what its reply says. A picture is where the reply says it is.
A drawing is, unless the picture was written over it: the two paths of one call may lead to one place,
however they are spelled. A video is, if the page had a recording with a file; else nothing was saved,
and the reply is the same.
-/

namespace SvgDiagram
namespace Workspace

open Files (Path)

/-- A recording of some name is at the path it was asked for, or in the directory there, and no longer
where it was made. -/
def Moved (w w' : Workspace) (name : String) (page : Render.Page) (output : Value) : Prop :=
  ∃ text asked place, output = .string text ∧
    (Path.ofString text).resolve w.host.directory = .ok asked ∧
    place = (if w.files.isDirectory asked then asked ++ [name] else asked) ∧
    w'.files.entry? place = some (.file (.video page)) ∧
    (place ≠ w.host.directory ++ [name] → w'.files.entry? (w.host.directory ++ [name]) = none)

variable {w w' : Workspace} {path : Value} {content : Content}

theorem wrote_capture {picture : Picture} {width height : Value}
    (h : outcome (capture picture path width height) w = (.ok ⟨⟩, w')) :
    ∃ page : Render.Page, page.picture = picture ∧ Wrote w w' path (.screenshot page) := by
  simp only [capture, outcome_call_bind, outcome_call_eq, outcome_bind_eq_ok, outcome_attempt,
    Prod.mk.injEq] at h
  obtain ⟨size, _, ⟨-, rfl⟩, p, _, ⟨hp, rfl⟩, _, w₁, hwrite, -, rfl⟩ := h
  obtain ⟨text, place, hpath, hfind, hfiles, hhost⟩ := wrote_writeOutput hp hwrite
  exact ⟨⟨size, picture⟩, rfl, text, place, hpath, hfind, hfiles, hhost⟩

theorem outcome_putFile_eq_ok {place : Files.Place} {u : Unit} :
    outcome (putFile place content) w = (.ok u, w') ↔
      ∃ files, w.files.write place content = .ok files ∧ w' = { w with files } := by
  rw [outcome_putFile]
  cases w.files.write place content with
  | error f => simp
  | ok files => simp [eq_comm]

theorem moved_moveRecording {name text : String} {page : Render.Page} {asked : Files.Place}
    (h : outcome (moveRecording name page (.string text)) w = (.ok ⟨⟩, w'))
    (hasked : (Path.ofString text).resolve w.host.directory = .ok asked) :
    Moved w w' name page (.string text) := by
  simp only [moveRecording, outcome_bind_eq_ok, outcome_get, outcome_attempt, outcome_set,
    outcome_modify, outcome_putFile_eq_ok, Prod.mk.injEq] at h
  obtain ⟨_, _, ⟨hw, rfl⟩, _, _, ⟨made, hmade, rfl⟩, _, _, ⟨hw₁, rfl⟩, place, _, ⟨hplace, rfl⟩, _, _,
    ⟨-, rfl⟩, _, _, ⟨moved, hmoved, rfl⟩, -, rfl⟩ := h
  cases hw
  cases hw₁
  have hdestination := Files.Tree.destination_eq_ite _ hplace hasked
  rw [Files.Tree.isDirectory_write hmade] at hdestination
  refine ⟨text, asked, place, rfl, hasked, hdestination, Files.Tree.entry?_write_self hmoved, ?_⟩
  intro hne
  exact (Files.Tree.entry?_write hmoved hne.symm).trans (Files.Tree.entry?_remove_self _ (by simp))

theorem outcome_record {picture : Picture} {text : String} {asked : Files.Place}
    {duration width height : Value}
    (h : outcome (record picture (.string text) duration width height) w = (.ok ⟨⟩, w'))
    (hasked : (Path.ofString text).resolve w.host.directory = .ok asked) :
    (∀ name, w.recording = .file name →
        ∃ page : Render.Page, page.picture = picture ∧ Moved w w' name page (.string text)) ∧
      ((∀ name, w.recording ≠ .file name) → w'.files = w.files) := by
  simp only [record, outcome_call_bind, outcome_bind_eq_ok, outcome_attempt, outcome_get,
    Prod.mk.injEq, Except.ok.injEq] at h
  obtain ⟨size, _, ⟨-, rfl⟩, _, _, ⟨rfl, rfl⟩, h⟩ := h
  cases hrecording : w.recording with
  | file name =>
      simp only [hrecording] at h
      obtain ⟨text, asked, place, hmoved⟩ := moved_moveRecording h hasked
      refine ⟨fun _ hname => ?_, fun hne => absurd rfl (hne name)⟩
      cases hname
      exact ⟨⟨size, picture⟩, rfl, text, asked, place, hmoved⟩
  | absent | unplaced =>
      simp only [hrecording, outcome_pure, Prod.mk.injEq, true_and] at h
      subst h
      exact ⟨fun _ hfile => (by cases hfile), fun _ => rfl⟩

/-- A path that has been granted is a text, and can be resolved. -/
theorem resolve_of_grant {kind : OutputKind} (h : w.grant kind path = .ok ()) :
    ∃ text place, path = .string text ∧
      (Path.ofString text).resolve w.host.directory = .ok place := by
  simp only [grant, Outcome.bind_eq_ok] at h
  obtain ⟨settings, -, allowed, hallowed, h⟩ := h
  cases allowed with
  | false => cases h
  | true =>
      obtain ⟨text, place, hpath, hplace, -⟩ := Access.allows_of_permits hallowed
      exact ⟨text, place, hpath, hplace⟩

def content? (w : Workspace) (text : String) : Option Content :=
  (w.files.read w.host.directory (Path.ofString text)).toOption

theorem Holds.content?_eq {text : String} (h : Holds w (.string text) content) :
    w.content? text = some content := by
  obtain ⟨_, htext, hread⟩ := h
  cases htext
  exact Outcome.toOption_eq_some.mpr hread

end Workspace

def Content.isDrawing : Content → Bool
  | .drawing _ => true
  | _ => false

namespace Tool

open Workspace (outcome Wrote Holds SamePlace Moved)

variable {w w' : Workspace}

/-- What a call has done, and what it replies. -/
inductive Fulfilled (w w' : Workspace) : Demand → Reply → Prop
  | drawing {text svg png : Value} {d : Drawing} (drawn : w.drawText text = .ok d)
      (written : svg.isGiven = true →
        (Holds w' svg (.drawing d) ↔ ¬ (png.isGiven = true ∧ SamePlace w svg png)))
      (pictured : png.isGiven = true →
        ∃ page : Render.Page, page.picture = .drawing d ∧ Holds w' png (.screenshot page)) :
      Fulfilled w w' (.drawing text svg png)
        (reply d (note "SVG written to " svg ++ note "PNG written to " png))
  | video {markup : String} {output : Value} {duration : Int}
      (saved : ∀ name, w.recording = .file name →
        ∃ page : Render.Page, page.picture = .markup markup ∧ Moved w w' name page output)
      (unsaved : (∀ name, w.recording ≠ .file name) → w'.files = w.files) :
      Fulfilled w w' (.video (.string markup) output duration)
        (.text ("Video saved to " ++ output.text))

theorem wrote_writeDrawing {d : Drawing} {path : Value}
    (h : outcome (writeDrawing d path) w = (.ok ⟨⟩, w')) : Wrote w w' path (.drawing d) := by
  simp only [writeDrawing, Workspace.outcome_bind_eq_ok, Workspace.outcome_attempt,
    Prod.mk.injEq] at h
  obtain ⟨p, _, ⟨hp, rfl⟩, h⟩ := h
  exact Workspace.wrote_writeOutput hp h

theorem outcome_ifGiven_eq_ok {path : Value} {act : Action Unit} {u : Unit} :
    outcome (ifGiven path act) w = (.ok u, w') ↔
      if path.isGiven then outcome act w = (.ok u, w') else w' = w := by
  simp only [ifGiven]
  split
  · rfl
  · simp [eq_comm]

theorem fulfilled_drawing {text svg png : Value} {d : Drawing} {r : Reply}
    (drawn : w.drawText text = .ok d)
    (h : outcome (Job.drawing d svg png).perform w = (.ok r, w')) :
    Fulfilled w w' (.drawing text svg png) r := by
  simp only [Job.perform, Workspace.outcome_bind_eq_ok, outcome_ifGiven_eq_ok,
    Workspace.outcome_pure, Prod.mk.injEq, Except.ok.injEq] at h
  obtain ⟨_, w₁, hsvg, _, w₂, hpng, rfl, rfl⟩ := h
  refine .drawing drawn (fun given => ?_) (fun given => ?_)
  · rw [if_pos given] at hsvg
    have hwrote := wrote_writeDrawing hsvg
    cases hgiven : png.isGiven with
    | false =>
        simp only [hgiven, Bool.false_eq_true, ite_false] at hpng
        simpa [hpng] using hwrote.holds
    | true =>
        simp only [hgiven, ite_true] at hpng
        obtain ⟨page, -, hshot⟩ := Workspace.wrote_capture hpng
        have hplaces : SamePlace w₁ svg png ↔ SamePlace w svg png := by
          obtain ⟨_, _, _, _, _, hhost⟩ := hwrote
          rw [SamePlace, SamePlace, hhost]
        rw [← hplaces]
        -- The picture comes last: if it is at the same place, it is what is found there.
        obtain ⟨hne, hkept⟩ | ⟨hsame, hover⟩ := hshot.holds_of_holds hwrote.holds
        · simp [hne, hkept]
        · refine ⟨fun hdrawing => ?_, fun hne => absurd ⟨rfl, hsame⟩ hne⟩
          cases hdrawing.unique hover
  · rw [if_pos given] at hpng
    obtain ⟨page, hpage, hshot⟩ := Workspace.wrote_capture hpng
    exact ⟨page, hpage, hshot.holds⟩

theorem fulfilled_video {markup text : String} {asked : Files.Place} {duration : Int} {r : Reply}
    (h : outcome (Job.video (.markup markup) (.string text) duration).perform w = (.ok r, w'))
    (hasked : (Files.Path.ofString text).resolve w.host.directory = .ok asked) :
    Fulfilled w w' (.video (.string markup) (.string text) duration) r := by
  simp only [Job.perform, Workspace.outcome_bind_eq_ok, Workspace.outcome_pure, Prod.mk.injEq,
    Except.ok.injEq] at h
  obtain ⟨_, w₁, hrecord, rfl, rfl⟩ := h
  obtain ⟨hsaved, hunsaved⟩ := Workspace.outcome_record hrecord hasked
  exact .video hsaved hunsaved

/-- Asking for permissions changes nothing that a demand is about. -/
theorem fulfilled_of_asked {ps : List (OutputKind × Value)} {demand : Demand} {r : Reply}
    (h : Fulfilled (w.asked ps) w' demand r) : Fulfilled w w' demand r := by
  simp only [Workspace.asked] at h
  split at h
  · exact h
  · cases h with
    | drawing drawn written pictured => exact .drawing drawn written pictured
    | video saved unsaved => exact .video saved unsaved

def Reply.text? : Reply → Option String
  | .text s => some s
  | .drawing _ => none

theorem outcome_of_text? {act : Action Reply} {s : String}
    (h : (outcome act w).1.toOption.bind Reply.text? = some s) :
    outcome act w = (.ok (.text s), (outcome act w).2) := by
  cases hout : outcome act w with
  | mk result w' =>
      rw [hout] at h
      cases result with
      | error f => cases h
      | ok r =>
          cases r with
          | text s' =>
              cases h
              rfl
          | drawing d => cases h

/-- What the reply of a call tells is what the call has done, but for a drawing whose picture was written
over it and for a video without a recording. -/
theorem replies_tell_what_was_written {name : String} {arguments : Value} {r : Reply}
    (h : outcome (call name arguments) w = (.ok r, w')) :
    ∃ demand, Demand.read name arguments = .ok demand ∧ Fulfilled w w' demand r := by
  rw [outcome_call] at h
  cases hprepared : prepared w name arguments with
  | error f => simp [hprepared] at h
  | ok job =>
      simp only [hprepared] at h
      simp only [prepared, Outcome.bind_eq_ok] at hprepared
      obtain ⟨demand, hdemand, _, hgranted, hjob⟩ := hprepared
      rw [← job_asked w (permissionsOf name arguments)] at hjob
      refine ⟨demand, hdemand, ?_⟩
      cases demand with
      | drawing text svg png =>
          obtain ⟨d, hd, hjob⟩ := Outcome.bind_eq_ok.mp hjob
          cases hjob
          exact fulfilled_of_asked (fulfilled_drawing hd h)
      | video markup output duration =>
          obtain ⟨picture, hpicture, hjob⟩ := Outcome.bind_eq_ok.mp hjob
          cases hjob
          obtain ⟨_, hgrant, -⟩ := Outcome.bind_eq_ok.mp hgranted
          obtain ⟨text, asked, rfl, hasked⟩ := Workspace.resolve_of_grant hgrant
          cases markup with
          | string markup =>
              cases hpicture
              exact fulfilled_of_asked (fulfilled_video h (by simpa using hasked))
          | _ => cases hpicture

def anywhereBelow (directory : String) : Value :=
  .table [(.string "file_output", .table [(.string "allowed", .list [.table [
    (.string "path", .string directory),
    (.string "types", .list [.string "svg", .string "png", .string "webm"])]])])]

/-- All kinds of files may be written below `/work`, where there is a directory `out`. -/
def openWorkspace : Workspace :=
  { Workspace.empty ⟨["work"], "/home/ann", []⟩ .plain with
    files := Files.Tree.withDirectory ["work", "out"]
    settings := some (anywhereBelow "/work")
    recording := .file "rec.webm" }

def drawingAt (svg png : String) : Value :=
  .table [(.string "yaml_spec", .string "elements: []"), (.string "output_path", .string svg),
    (.string "png_path", .string png)]

def videoAt (output : String) : Value :=
  .table [(.string "svg_content", .string "<svg/>"), (.string "output_path", .string output)]

theorem openWorkspace_replies :
    (∃ r w', outcome (call svgName (drawingAt "a.svg" "out/a.png")) openWorkspace = (.ok r, w') ∧
      ∃ demand, Demand.read svgName (drawingAt "a.svg" "out/a.png") = .ok demand ∧
        Fulfilled openWorkspace w' demand r) ∧
    ∃ r w', outcome (call videoName (videoAt "out")) openWorkspace = (.ok r, w') ∧
      ∃ demand, Demand.read videoName (videoAt "out") = .ok demand ∧
        Fulfilled openWorkspace w' demand r := by
  have hdrawing : (outcome (call svgName (drawingAt "a.svg" "out/a.png"))
      openWorkspace).1.toOption.isSome = true := by decide +kernel
  have hvideo : (outcome (call videoName (videoAt "out")) openWorkspace).1.toOption.isSome = true := by
    decide +kernel
  obtain ⟨r, w', hcall⟩ := Workspace.exists_of_isSome hdrawing
  obtain ⟨r', w'', hcall'⟩ := Workspace.exists_of_isSome hvideo
  exact ⟨⟨r, w', hcall, replies_tell_what_was_written hcall⟩,
    r', w'', hcall', replies_tell_what_was_written hcall'⟩

/-- The reply of a call can tell of a drawing that is no longer there, and of a video that never was. -/
theorem overwritten_drawing_and_unsaved_video :
    (∃ w', outcome (call svgName (drawingAt "a.svg" "./a.svg")) openWorkspace =
        (.ok (.text "SVG written to a.svg\nPNG written to ./a.svg"), w') ∧
      ∀ d, ¬ Holds w' (.string "a.svg") (.drawing d)) ∧
    ∀ recording ∈ [Render.Recording.absent, .unplaced],
      ∃ w', outcome (call videoName (videoAt "a.webm")) { openWorkspace with recording } =
          (.ok (.text "Video saved to a.webm"), w') ∧
        ∀ content, ¬ Holds w' (.string "a.webm") content := by
  constructor
  · refine ⟨_, outcome_of_text? (by decide +kernel), fun d hd => ?_⟩
    have hpicture : ((outcome (call svgName (drawingAt "a.svg" "./a.svg"))
        openWorkspace).2.content? "a.svg").any Content.isDrawing = false := by
      decide +kernel
    rw [hd.content?_eq] at hpicture
    cases hpicture
  · intro recording hrecording
    have hreply : ∀ recording ∈ [Render.Recording.absent, .unplaced],
        (outcome (call videoName (videoAt "a.webm"))
          { openWorkspace with recording }).1.toOption.bind Reply.text? =
            some "Video saved to a.webm" := by
      decide +kernel
    have hnothing : ∀ recording ∈ [Render.Recording.absent, .unplaced],
        ((outcome (call videoName (videoAt "a.webm"))
          { openWorkspace with recording }).2.content? "a.webm").isSome = false := by
      decide +kernel
    refine ⟨_, outcome_of_text? (hreply recording hrecording), fun content hcontent => ?_⟩
    have hnone := hnothing recording hrecording
    rw [hcontent.content?_eq] at hnone
    cases hnone

end Tool
end SvgDiagram
