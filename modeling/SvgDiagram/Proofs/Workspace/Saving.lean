import SvgDiagram.Proofs.Files.Making
import SvgDiagram.Proofs.Scene.Expansion
import SvgDiagram.Proofs.Workspace.Written
import SvgDiagram.Workspace.Export

/-!
Saving a drawing is all or nothing. The directories above the output are made first, and then the scene and
its libraries are read; since only directories have been added, they are read as they were. The drawing is
written last, so a request that fails has changed no file, and one that succeeds has changed the file at
its output, even if that was the scene or a library.
-/

namespace SvgDiagram
namespace Workspace

open Files (Path Place)

/-- One request saves at a path what another gives back. -/
inductive Export.Saves : Export → Value → Export → Prop
  | text (text output : Value) : Saves (.saveText text output) output (.drawText text)
  | file (path output : Value) : Saves (.saveFile path output) output (.drawFile path)
  | scene (scene output : Value) : Saves (.saveScene scene output) output (.drawScene scene)

/-- A request gives a drawing back, and does nothing else. -/
def Gives (request : Export) (w : Workspace) (d : Drawing) : Prop :=
  outcome (perform request) w = (.ok (.drawing d), w)

/-- A place that is above an output. -/
def AboveOutput (w : Workspace) (output : Value) (place : Place) : Prop :=
  ∃ text q, output = .string text ∧ Path.IsAbove q (Path.ofString text) ∧
    q.resolve w.host.directory = .ok place

/-- No directory is lost, and the new ones were missing above an output. -/
structure AddsAbove (w w' : Workspace) (output : Value) : Prop where
  kept : ∀ place, w.files.isDirectory place = true → w'.files.isDirectory place = true
  added : ∀ place, w'.files.isDirectory place = true → w.files.isDirectory place = true ∨
    w.files.entry? place = none ∧ AboveOutput w output place

/-- Outside some places, the files are the same. -/
def SameFilesBut (changed : Place → Prop) (w w' : Workspace) : Prop :=
  ∀ place, ¬ changed place → ∀ content,
    w'.files.entry? place = some (.file content) ↔ w.files.entry? place = some (.file content)

/-- A drawing has been saved: it is the one that is given after the directories have been made, and before
if one is given then, and no file but the one at the output has changed. -/
inductive Saved (w w' : Workspace) (drawing : Export) : Value → Exported → Prop
  | intro {text : String} {place : Place} {files : Files.Tree Content} {d : Drawing}
      (prepared : w.files.Gains (AboveOutput w (.string text)) files)
      (given : Gives drawing { w with files } d) (given_before : ∀ d', Gives drawing w d' → d' = d)
      (resolved : (Path.ofString text).resolve w.host.directory = .ok place)
      (holds : Holds w' (.string text) (.drawing d)) (others : SameFilesBut (· = place) w w') :
      Saved w w' drawing (.string text) (.path (Path.ofString text))

section
variable {w : Workspace} {files : Files.Tree Content} {made : Place → Prop}

theorem library_of_gains (h : w.files.Gains made files) {path v : Value}
    (hv : w.library path = .ok v) : { w with files }.library path = .ok v := by
  simp only [library, Outcome.bind_eq_ok] at hv ⊢
  obtain ⟨p, hp, hv⟩ := hv
  refine ⟨p, hp, ?_⟩
  cases hc : w.files.contains w.host.directory p with
  | false => simp [hc] at hv
  | true =>
      simp only [hc, h.contains hc, Bool.not_true, Bool.false_eq_true, ite_false] at hv ⊢
      obtain ⟨content, hread, hv⟩ := Outcome.bind_eq_ok.mp hv
      exact Outcome.bind_eq_ok.mpr ⟨content, h.read hread, hv⟩

theorem drawScene_of_gains (h : w.files.Gains made files) {scene : Value} {d : Drawing}
    (hd : w.drawScene scene = .ok d) : { w with files }.drawScene scene = .ok d := by
  simp only [drawScene, Outcome.bind_eq_ok] at hd ⊢
  obtain ⟨expanded, hexpanded, hd⟩ := hd
  exact ⟨expanded, Scene.expand_of_reads (fun _ _ => library_of_gains h) hexpanded, hd⟩

theorem drawText_of_gains (h : w.files.Gains made files) {text : Value} {d : Drawing}
    (hd : w.drawText text = .ok d) : { w with files }.drawText text = .ok d := by
  simp only [drawText, Outcome.bind_eq_ok] at hd ⊢
  obtain ⟨scene, hscene, hd⟩ := hd
  exact ⟨scene, hscene, drawScene_of_gains h hd⟩

theorem drawFile_of_gains (h : w.files.Gains made files) {p : Path} {d : Drawing}
    (hd : w.drawFile p = .ok d) : { w with files }.drawFile p = .ok d := by
  simp only [drawFile, Outcome.bind_eq_ok] at hd ⊢
  obtain ⟨content, hread, scene, hscene, hd⟩ := hd
  exact ⟨content, h.read hread, scene, hscene, drawScene_of_gains h hd⟩

end

section
variable {w w' : Workspace} {files : Files.Tree Content} {output : Value}

theorem AddsAbove.of_gains (h : w.files.Gains (AboveOutput w output) files) :
    AddsAbove w { w with files } output where
  kept := fun _ hd => h.isDirectory hd
  added := fun _ hd => h.made_of_isDirectory hd

theorem SameFilesBut.of_gains {made changed : Place → Prop}
    (h : w.files.Gains made files) : SameFilesBut changed w { w with files } :=
  fun place _ content => h.file_iff place content

theorem SameFilesBut.of_write {made : Place → Prop} {place : Place} {content : Content}
    (h : w.files.Gains made files) (hwrite : files.write place content = .ok w'.files) :
    SameFilesBut (· = place) w w' := by
  intro other hother old
  rw [Files.Tree.entry?_write hwrite hother]
  exact h.file_iff other old

/-- A file that is written afterwards is no directory, and was none before. -/
theorem AddsAbove.of_wrote {content : Content} (h : w.files.Gains (AboveOutput w output) files)
    (hwrote : Wrote { w with files } w' output content) : AddsAbove w w' output := by
  obtain ⟨text, place, -, -, hwrite, -⟩ := hwrote
  have hsame := Files.Tree.isDirectory_write hwrite
  exact ⟨fun other hd => (hsame other).trans (h.isDirectory hd),
    fun other hd => h.made_of_isDirectory ((hsame other).symm.trans hd)⟩

end

theorem outcome_makeDirectory (p : Path) (w : Workspace) :
    outcome (makeDirectory p) w = ((w.files.ensure w.host.directory p).2,
      { w with files := (w.files.ensure w.host.directory p).1 }) := by
  simp only [makeDirectory, outcome_bind, outcome_get, outcome_set, outcome_attempt]

/-- Preparing an output makes directories above it, whether it succeeds or not. -/
theorem prepare_cases (output : Value) (w : Workspace) :
    ∃ files, w.files.Gains (AboveOutput w output) files ∧
      ((∃ f, outcome (prepare output) w = (.error f, { w with files })) ∨
        ∃ text, output = .string text ∧
          outcome (prepare output) w = (.ok (Path.ofString text), { w with files })) := by
  simp only [prepare, outcome_bind, outcome_attempt]
  cases hp : Path.ofValue output with
  | error f => exact ⟨w.files, .refl _ _, .inl ⟨f, rfl⟩⟩
  | ok p =>
      obtain ⟨text, rfl, rfl⟩ := Path.ofValue_eq_ok.mp hp
      refine ⟨_, (w.files.gains_ensure_parent w.host.directory text).weaken ?_, ?_⟩
      · rintro place ⟨q, habove, hq⟩
        exact ⟨text, q, rfl, habove, hq⟩
      · simp only [outcome_makeDirectory, outcome_pure]
        cases (w.files.ensure w.host.directory (Path.ofString text).parent).2 with
        | error f => exact .inl ⟨f, rfl⟩
        | ok _ => exact .inr ⟨text, rfl, rfl⟩

/-- Saving writes the drawing last: where it fails, nothing but directories has been added. -/
theorem save_cases (output : Value) (draw : Workspace → Except Fault Drawing) (w : Workspace) :
    ∃ files, w.files.Gains (AboveOutput w output) files ∧
      ((∃ f, outcome (save output draw) w = (.error f, { w with files })) ∨
        ∃ text d w', output = .string text ∧ draw { w with files } = .ok d ∧
          Wrote { w with files } w' output (.drawing d) ∧
          outcome (save output draw) w = (.ok (.path (Path.ofString text)), w')) := by
  obtain ⟨files, hgains, ⟨f, hprepare⟩ | ⟨text, rfl, hprepare⟩⟩ := prepare_cases output w
  · exact ⟨files, hgains, .inl ⟨f, by rw [save, outcome_bind, hprepare]⟩⟩
  · have hp : Path.ofValue (.string text) = .ok (Path.ofString text) := rfl
    refine ⟨files, hgains, ?_⟩
    simp only [save, outcome_bind, hprepare, outcome_get, outcome_attempt, outcome_pure]
    cases hd : draw { w with files } with
    | error f => exact .inl ⟨f, rfl⟩
    | ok d =>
        obtain ⟨f, hfail⟩ | ⟨w', hwrite, hwrote⟩ :=
          writeOutput_cases .svg (.drawing d) { w with files } hp
        · exact .inl ⟨f, by simp only [hfail]⟩
        · exact .inr ⟨text, d, w', rfl, rfl, hwrote, by simp only [hwrite]⟩

theorem gives_iff {request : Export} {w : Workspace} {drawn : Except Fault Drawing}
    (h : outcome (perform request) w = (drawn.map .drawing, w)) (d : Drawing) :
    Gives request w d ↔ drawn = .ok d := by
  rw [Gives, h]
  cases drawn <;> simp [Except.map]

/-- A request that saves, and the one that gives the same drawing back, draw alike; and they draw the same
after directories have been made. -/
theorem Export.Saves.exists_draw {request drawing : Export} {output : Value}
    (h : request.Saves output drawing) :
    ∃ draw : Workspace → Except Fault Drawing,
      (∀ w d, Gives drawing w d ↔ draw w = .ok d) ∧
      (∀ w, (∃ f, outcome (perform request) w = (.error f, w)) ∨
        outcome (perform request) w = outcome (save output draw) w) ∧
      ∀ w files d, ∀ made : Place → Prop, w.files.Gains made files → draw w = .ok d →
        draw { w with files } = .ok d := by
  cases h with
  | text text output =>
      refine ⟨fun w => w.drawText text, fun w => gives_iff ?_, fun w => .inr rfl, ?_⟩
      · simp only [perform, outcome_get_bind, outcome_attempt_pure]
      · exact fun w files d made hgains hd => drawText_of_gains hgains hd
  | scene scene output =>
      refine ⟨fun _ => Drawing.ofScene scene, fun w => gives_iff ?_, fun w => .inr rfl, ?_⟩
      · simp only [perform, outcome_attempt_pure]
      · exact fun w files d made hgains hd => hd
  | file path output =>
      refine ⟨fun w => Path.ofValue path >>= w.drawFile, fun w => gives_iff ?_, fun w => ?_, ?_⟩
      · rw [perform, outcome_bind, outcome_attempt]
        cases Path.ofValue path with
        | error f => rfl
        | ok p => simp only [outcome_get_bind, outcome_attempt_pure, Outcome.ok_bind]
      · simp only [perform, outcome_bind, outcome_attempt]
        cases Path.ofValue path with
        | error f => exact .inl ⟨f, rfl⟩
        | ok p => exact .inr rfl
      · intro w files d made hgains hd
        obtain ⟨p, hp, hd⟩ := Outcome.bind_eq_ok.mp hd
        exact Outcome.bind_eq_ok.mpr ⟨p, hp, drawFile_of_gains hgains hd⟩

/-- A request that saves a drawing changes no file if it fails. If it succeeds, the file at its output is
the drawing that is given back for the same scene, and no other file has changed. Either way no directory
is new that was not missing above the output. -/
theorem saving_is_all_or_nothing (w : Workspace) {request drawing : Export} {output : Value}
    (h : request.Saves output drawing) :
    AddsAbove w (outcome (perform request) w).2 output ∧
      (∀ f, (outcome (perform request) w).1 = .error f →
        SameFilesBut (fun _ => False) w (outcome (perform request) w).2) ∧
      ∀ e, (outcome (perform request) w).1 = .ok e →
        Saved w (outcome (perform request) w).2 drawing output e := by
  obtain ⟨draw, hgives, hrequest, hstable⟩ := h.exists_draw
  obtain ⟨f, hfail⟩ | hsave := hrequest w
  · rw [hfail]
    exact ⟨.of_gains (.refl _ _), fun _ _ => .of_gains (.refl (AboveOutput w output) _), nofun⟩
  · obtain ⟨files, hgains, ⟨f, hfail⟩ | ⟨text, d, w', rfl, hd, hwrote, hok⟩⟩ := save_cases output draw w
    · rw [hsave, hfail]
      exact ⟨.of_gains hgains, fun _ _ => .of_gains hgains, nofun⟩
    · rw [hsave, hok]
      refine ⟨.of_wrote hgains hwrote, nofun, ?_⟩
      rintro e ⟨⟩
      have hbefore : ∀ d', Gives drawing w d' → d' = d := by
        intro d' hd'
        have hstill := hstable w files d' _ hgains ((hgives w d').mp hd')
        exact Except.ok.inj (hstill.symm.trans hd)
      have hholds := hwrote.holds
      obtain ⟨_, place, ⟨⟩, hfind, hwrite, -⟩ := hwrote
      exact .intro hgains ((hgives _ d).mpr hd) hbefore (Files.Tree.resolve_of_find _ hfind) hholds
        (.of_write hgains hwrite)

/-- A working directory with a library in it. -/
def libraryWorkspace : Workspace :=
  { Workspace.empty ⟨["work"], "/home/ann", []⟩ .plain with
    files := (Files.Tree.withDirectory ["work"]).put ["work", "lib.yaml"]
      (.file (.text "dot: \x7btype: circle\x7d")) }

def libraryScene : Value :=
  .string "libraries: [lib.yaml]\nelements: [\x7buse: dot\x7d]"

/-- A drawing is saved over the library it was made with; and one whose path leads through the library is
not saved, though directories have been made on the way. -/
theorem libraryWorkspace_saves :
    (∃ e w', outcome (perform (.saveText libraryScene (.string "lib.yaml"))) libraryWorkspace =
        (.ok e, w') ∧
      Saved libraryWorkspace w' (.drawText libraryScene) (.string "lib.yaml") e) ∧
    ∃ f w', outcome (perform (.saveText libraryScene (.string "a/b/../../lib.yaml/c.svg")))
        libraryWorkspace = (.error f, w') ∧
      w'.files.isDirectory ["work", "a", "b"] = true ∧
      SameFilesBut (fun _ => False) libraryWorkspace w' := by
  have hover : (outcome (perform (.saveText libraryScene (.string "lib.yaml")))
      libraryWorkspace).1.toOption.isSome = true := by decide +kernel
  have hthrough : (outcome (perform (.saveText libraryScene (.string "a/b/../../lib.yaml/c.svg")))
      libraryWorkspace).1.toOption.isSome = false := by decide +kernel
  have hmade : (outcome (perform (.saveText libraryScene (.string "a/b/../../lib.yaml/c.svg")))
      libraryWorkspace).2.files.isDirectory ["work", "a", "b"] = true := by decide +kernel
  obtain ⟨e, w', hok⟩ := exists_of_isSome hover
  obtain ⟨f, w'', herror⟩ := exists_error_of_isSome hthrough
  have hsaved := (saving_is_all_or_nothing libraryWorkspace
    (.text libraryScene (.string "lib.yaml"))).2.2 e
  have hkept := (saving_is_all_or_nothing libraryWorkspace
    (.text libraryScene (.string "a/b/../../lib.yaml/c.svg"))).2.1 f
  rw [hok] at hsaved
  rw [herror] at hkept hmade
  exact ⟨⟨e, w', hok, hsaved rfl⟩, f, w'', herror, hmade, hkept rfl⟩

end Workspace
end SvgDiagram
