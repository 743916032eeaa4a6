import SvgDiagram.Proofs.Files.Lookup

/-!
Making directories. Whether it succeeds or stops half way, the tree gains directories on the way to the one
that is asked for, and nothing else in it changes. So whatever could be read before can be read after.
-/

namespace SvgDiagram
namespace Files

/-- One path is the directory of another, or above it. -/
structure Path.IsAbove (q p : Path) : Prop where
  root_eq : q.root = p.root
  names_lead : q.names <+: p.parent.names

/-- A place on the way from another one along some names. -/
def OnTheWay (start : Place) (names : List String) (place : Place) : Prop :=
  ∃ lead, lead <+: names ∧ place = (lead.filter isStep).foldl Path.step start

namespace Tree

variable {α : Type} {made more : Place → Prop} {t t' t'' : Tree α}

/-- A tree gains directories: where there was nothing, one may have been made. -/
def Gains (made : Place → Prop) (t t' : Tree α) : Prop :=
  ∀ place, t'.entry? place = t.entry? place ∨
    t.entry? place = none ∧ t'.entry? place = some .directory ∧ made place

namespace Gains

theorem refl (made : Place → Prop) (t : Tree α) : Gains made t t := fun _ => .inl rfl

theorem trans (h : Gains made t t') (h' : Gains made t' t'') : Gains made t t'' := by
  intro place
  obtain hsame | ⟨hnone, hmade, hp⟩ := h place
  · obtain hsame' | ⟨hnone', hmade', hp'⟩ := h' place
    · exact .inl (hsame'.trans hsame)
    · exact .inr ⟨hsame.symm.trans hnone', hmade', hp'⟩
  · obtain hsame' | ⟨hnone', -, -⟩ := h' place
    · exact .inr ⟨hnone, hsame'.trans hmade, hp⟩
    · cases hmade.symm.trans hnone'

theorem weaken (h : Gains made t t') (hm : ∀ place, made place → more place) :
    Gains more t t' := by
  intro place
  obtain hsame | ⟨hnone, hmade, hp⟩ := h place
  · exact .inl hsame
  · exact .inr ⟨hnone, hmade, hm place hp⟩

theorem put {place : Place} (h : t.entry? place = none) :
    Gains (· = place) t (t.put place .directory) := by
  intro other
  by_cases hp : other = place
  · subst hp
    exact .inr ⟨h, entry?_put_self t _ (by rintro rfl; cases h), rfl⟩
  · exact .inl (entry?_put t _ hp)

/-- The files are the same. -/
theorem file_iff (h : Gains made t t') (place : Place) (content : α) :
    t'.entry? place = some (.file content) ↔ t.entry? place = some (.file content) := by
  obtain hsame | ⟨hnone, hmade, -⟩ := h place
  · rw [hsame]
  · simp [hnone, hmade]

theorem isDirectory (h : Gains made t t') {place : Place} (hd : t.isDirectory place = true) :
    t'.isDirectory place = true := by
  obtain hsame | ⟨hnone, -, -⟩ := h place
  · rwa [Tree.isDirectory, hsame]
  · simp [Tree.isDirectory, hnone] at hd

theorem made_of_isDirectory (h : Gains made t t') {place : Place}
    (hd : t'.isDirectory place = true) :
    t.isDirectory place = true ∨ t.entry? place = none ∧ made place := by
  obtain hsame | ⟨hnone, -, hp⟩ := h place
  · exact .inl (by rwa [Tree.isDirectory, ← hsame])
  · exact .inr ⟨hnone, hp⟩

theorem find (h : Gains made t t') {directory found : Place} {p : Path}
    (hf : t.find directory p = .ok found) : t'.find directory p = .ok found :=
  find_of_isDirectory (fun _ => h.isDirectory) hf

theorem read (h : Gains made t t') {directory : Place} {p : Path} {content : α}
    (hr : t.read directory p = .ok content) : t'.read directory p = .ok content := by
  obtain ⟨place, hfind, hentry⟩ := read_eq_ok.mp hr
  exact read_eq_ok.mpr ⟨place, h.find hfind, (h.file_iff place content).mpr hentry⟩

theorem contains (h : Gains made t t') {directory : Place} {p : Path}
    (hc : t.contains directory p = true) : t'.contains directory p = true := by
  simp only [Tree.contains] at hc ⊢
  cases hf : t.find directory p with
  | error f => simp [hf] at hc
  | ok place =>
      rw [hf] at hc
      rw [h.find hf]
      obtain hsame | ⟨-, hmade, -⟩ := h place
      · exact (congrArg Option.isSome hsame).trans hc
      · exact congrArg Option.isSome hmade

end Gains

theorem gains_makeDirectory {start : Place} {names : List String}
    (h : t.makeDirectory start names = .ok t') : Gains (OnTheWay start names) t t' := by
  simp only [makeDirectory, Outcome.bind_eq_ok] at h
  obtain ⟨target, hwalk, h⟩ := h
  cases hentry : t.entry? target with
  | some e => simp [hentry] at h
  | none =>
      simp only [hentry, Outcome.bind_eq_ok, Outcome.pure_eq_ok, Except.ok.injEq] at h
      obtain ⟨_, -, rfl⟩ := h
      refine (Gains.put hentry).weaken ?_
      rintro place rfl
      exact ⟨names, List.prefix_rfl, t.walk_eq_ok hwalk⟩

theorem gains_ensureOne (t : Tree α) (start : Place) (names : List String) :
    Gains (OnTheWay start names) t (t.ensureOne start names).1 := by
  simp only [ensureOne]
  cases h : t.makeDirectory start names with
  | ok t' => exact gains_makeDirectory h
  | error f =>
      simp only
      split
      · exact .refl _ t
      · exact .refl _ t

/-- The directories that are made are on the way, also when a later one cannot be made. -/
theorem gains_ensureAll (t : Tree α) (start : Place) (names : List String) :
    Gains (OnTheWay start names.reverse) t (t.ensureAll start names).1 := by
  -- The names are taken away from the end, and what is above is made first.
  induction names with
  | nil => exact t.gains_ensureOne start []
  | cons name above ih =>
      have habove : Gains (OnTheWay start (name :: above).reverse) t (t.ensureAll start above).1 := by
        refine ih.weaken ?_
        rintro place ⟨lead, hlead, rfl⟩
        exact ⟨lead, hlead.trans (by simp), rfl⟩
      simp only [ensureAll]
      split
      · rename_i made hmade
        exact gains_makeDirectory hmade
      · split
        · rename_i made hmade
          rw [hmade] at habove
          exact habove.trans (made.gains_ensureOne start _)
        · rename_i made f hmade
          rw [hmade] at habove
          exact habove
      · exact t.gains_ensureOne start _

/-- Making the directory of a path makes nothing but directories above the path. -/
theorem gains_ensure_parent (t : Tree α) (directory : Place) (s : String) :
    Gains (fun place => ∃ q : Path, q.IsAbove (Path.ofString s) ∧ q.resolve directory = .ok place) t
      (t.ensure directory (Path.ofString s).parent).1 := by
  simp only [ensure]
  split
  · exact .refl _ t
  · rename_i hnul
    refine (t.gains_ensureAll _ _).weaken ?_
    rw [List.reverse_reverse]
    rintro place ⟨lead, hlead, rfl⟩
    have hsub : lead ⊆ (Path.ofString s).parent.names := hlead.subset
    have hsteps : lead.filter isStep = lead := by
      rw [List.filter_eq_self]
      intro n hn
      have hm := List.dropLast_subset _ (hsub hn)
      rw [ofString_names] at hm
      exact (List.mem_filter.mp hm).2
    refine ⟨⟨(Path.ofString s).root, lead⟩, ⟨rfl, hlead⟩, resolve_eq_ok.mpr ⟨?_, ?_⟩⟩
    · -- A path above one without the character has no name with it either.
      simp only [Path.hasNul, List.any_eq_true, not_exists, not_and] at hnul
      simpa [Path.hasNul] using fun n hn => by simpa using hnul n (hsub hn)
    · rw [hsteps]
      rfl

end Tree
end Files
end SvgDiagram
