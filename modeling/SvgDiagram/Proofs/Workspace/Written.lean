import SvgDiagram.Proofs.Files.Lookup
import SvgDiagram.Proofs.Workspace.Action

/-!
Files that have been written. What is written at a path can be read there, and any other file keeps its
content, unless its path leads to the same place.
-/

namespace SvgDiagram
namespace Workspace

open Files (Path)

/-- Reading the file at a path gives some content. -/
def Holds (w : Workspace) (path : Value) (content : Content) : Prop :=
  ∃ text, path = .string text ∧
    w.files.read w.host.directory (Path.ofString text) = .ok content

def SamePlace (w : Workspace) (path other : Value) : Prop :=
  ∃ text text' place, path = .string text ∧ other = .string text' ∧
    (Path.ofString text).resolve w.host.directory = .ok place ∧
    (Path.ofString text').resolve w.host.directory = .ok place

/-- A file was written at a path, and nothing else. -/
def Wrote (w w' : Workspace) (path : Value) (content : Content) : Prop :=
  ∃ text place, path = .string text ∧
    w.files.find w.host.directory (Path.ofString text) = .ok place ∧
    w.files.write place content = .ok w'.files ∧ w'.host = w.host

variable {w w' : Workspace} {path other : Value} {content old : Content}

theorem Wrote.holds (h : Wrote w w' path content) : Holds w' path content := by
  obtain ⟨text, place, hpath, hfind, hwrite, hhost⟩ := h
  refine ⟨text, hpath, Files.Tree.read_eq_ok.mpr ⟨place, ?_, Files.Tree.entry?_write_self hwrite⟩⟩
  rw [hhost]
  exact Files.Tree.find_write hwrite hfind

/-- A file keeps its content, or it is the one that was written. -/
theorem Wrote.holds_of_holds (h : Wrote w w' path content) (hold : Holds w other old) :
    ¬ SamePlace w other path ∧ Holds w' other old ∨
      SamePlace w other path ∧ Holds w' other content := by
  obtain ⟨text, place, rfl, hfind, hwrite, hhost⟩ := h
  obtain ⟨text', rfl, hread⟩ := hold
  obtain ⟨place', hfind', hentry⟩ := Files.Tree.read_eq_ok.mp hread
  have hresolve := Files.Tree.resolve_of_find _ hfind
  have hresolve' := Files.Tree.resolve_of_find _ hfind'
  have hstill : w'.files.find w'.host.directory (Path.ofString text') = .ok place' := by
    rw [hhost]
    exact Files.Tree.find_write hwrite hfind'
  by_cases hsame : place' = place
  · subst hsame
    refine .inr ⟨⟨text', text, place', rfl, rfl, hresolve', hresolve⟩, text', rfl, ?_⟩
    exact Files.Tree.read_eq_ok.mpr ⟨place', hstill, Files.Tree.entry?_write_self hwrite⟩
  · refine .inl ⟨?_, text', rfl, ?_⟩
    · intro hplaces
      obtain ⟨_, _, shared, ht, ht', hleft, hright⟩ := hplaces
      cases ht
      cases ht'
      cases hresolve'.symm.trans hleft
      cases hresolve.symm.trans hright
      exact hsame rfl
    · rw [← Files.Tree.entry?_write hwrite hsame] at hentry
      exact Files.Tree.read_eq_ok.mpr ⟨place', hstill, hentry⟩

theorem Holds.unique (h : Holds w path content) (h' : Holds w path old) : content = old := by
  obtain ⟨text, rfl, hread⟩ := h
  obtain ⟨text', htext, hread'⟩ := h'
  cases htext
  exact Except.ok.inj (hread.symm.trans hread')

/-- Writing a file writes it whole, or changes nothing. -/
theorem writeOutput_cases (kind : OutputKind) (content : Content) (w : Workspace) {p : Path}
    (hp : Path.ofValue path = .ok p) :
    (∃ f, outcome (writeOutput kind p content) w = (.error f, w)) ∨
      ∃ w', outcome (writeOutput kind p content) w = (.ok ⟨⟩, w') ∧ Wrote w w' path content := by
  obtain ⟨text, rfl, rfl⟩ := Path.ofValue_eq_ok.mp hp
  rw [outcome_writeOutput]
  cases hfind : w.files.find w.host.directory (Path.ofString text) with
  | error f => exact .inl ⟨f, rfl⟩
  | ok place =>
      cases hwrite : w.files.write place content with
      | error f => exact .inl ⟨f, by simp [hwrite]⟩
      | ok files =>
          refine .inr ⟨{ w with files, outputs := w.outputs ++ [⟨kind, place⟩] }, ?_, ?_⟩
          · simp only [hwrite, Outcome.ok_bind, Outcome.pure_eq_ok]
          · exact ⟨text, place, rfl, hfind, hwrite, rfl⟩

theorem wrote_writeOutput {kind : OutputKind} {p : Path} (hp : Path.ofValue path = .ok p)
    (h : outcome (writeOutput kind p content) w = (.ok ⟨⟩, w')) : Wrote w w' path content := by
  obtain ⟨f, hfail⟩ | ⟨w'', hwrote, hw⟩ := writeOutput_cases kind content w hp
  · cases h.symm.trans hfail
  · cases h.symm.trans hwrote
    exact hw

end Workspace
end SvgDiagram
