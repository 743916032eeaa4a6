import SvgDiagram.Files.Tree
import SvgDiagram.Proofs.Outcome

/-!
Looking up paths in a tree of files, and what writing leaves alone. There are no links, so a path that can
be looked up leads to the place that its text alone gives.
-/

namespace SvgDiagram
namespace Files

/-- Whether a name takes a step when a path is followed. -/
def isStep (name : String) : Bool := name != "" && name != "."

theorem ofString_names (s : String) :
    (Path.ofString s).names = (betweenSlashes s).filter isStep := rfl

theorem isAbsolute_ofString (s : String) :
    (Path.ofString s).isAbsolute = (s.toList.head? == some '/') := by
  simp only [Path.isAbsolute, Path.ofString, Path.rootOf]
  cases s.toList with
  | nil => rfl
  | cons c cs =>
      by_cases h : c = '/'
      · subst h
        simp only [List.takeWhile_cons, beq_self_eq_true, ite_true, List.length_cons,
          List.head?_cons]
        split <;> simp_all
      · simp [h]

/-- Only a text is the path of something. -/
theorem Path.ofValue_eq_ok {v : Value} {p : Path} :
    Path.ofValue v = .ok p ↔ ∃ text, v = .string text ∧ Path.ofString text = p := by
  cases v <;> simp [Path.ofValue]

namespace Tree

variable {α : Type}

theorem lookup_filter_ne (entries : List (Place × Entry α)) {place other : Place}
    (h : other ≠ place) :
    (entries.filter fun x => x.1 != place).lookup other = entries.lookup other := by
  induction entries with
  | nil => rfl
  | cons x rest ih =>
      obtain ⟨key, e⟩ := x
      by_cases hx : key = place
      · subst hx
        have hne : (other == key) = false := by simpa using h
        simp [ih, List.lookup_cons, hne]
      · simp [hx, ih, List.lookup_cons]

theorem entry?_remove (t : Tree α) {place other : Place} (h : other ≠ place) :
    Tree.entry? (t.remove place) other = t.entry? other := by
  simp only [ entry?, remove, lookup_filter_ne t.entries h]

theorem entry?_remove_self (t : Tree α) {place : Place} (h : place ≠ []) :
    Tree.entry? (t.remove place) place = none := by
  have hnone (entries : List (Place × Entry α)) :
      (entries.filter fun x => x.1 != place).lookup place = none := by
    simp only [List.lookup_eq_none_iff, List.mem_filter, bne_iff_ne]
    exact fun x hx => by simpa using hx.2.symm
  simp only [ entry?, remove, List.isEmpty_eq_false_iff.mpr h, Bool.false_eq_true, ite_false, hnone]

theorem entry?_put (t : Tree α) (e : Entry α) {place other : Place} (h : other ≠ place) :
    Tree.entry? (t.put place e) other = t.entry? other := by
  have hne : (other == place) = false := by simpa using h
  simp only [ entry?, put, List.lookup_cons, hne, lookup_filter_ne t.entries h]

theorem entry?_put_self (t : Tree α) (e : Entry α) {place : Place} (h : place ≠ []) :
    Tree.entry? (t.put place e) place = some e := by
  simp [ entry?, put, h]

theorem eq_put_of_write {t t' : Tree α} {place : Place} {content : α}
    (h : t.write place content = .ok t') : t' = t.put place (.file content) := by
  simp only [write] at h
  split at h
  · simp at h
  · simpa using h.symm
  · obtain ⟨_, _, h⟩ := Outcome.bind_eq_ok.mp h
    simpa using h.symm

/-- Writing a file changes nothing at any other place. -/
theorem entry?_write {t t' : Tree α} {place other : Place} {content : α}
    (h : t.write place content = .ok t') (hp : other ≠ place) :
    t'.entry? other = t.entry? other := by
  rw [eq_put_of_write h]
  exact entry?_put t _ hp

theorem isDirectory_of_write {t t' : Tree α} {place : Place} {content : α}
    (h : t.write place content = .ok t') : t.isDirectory place = false := by
  simp only [write] at h
  simp only [isDirectory]
  cases he : t.entry? place with
  | none => rfl
  | some e =>
      cases e with
      | file old => rfl
      | directory => simp [he] at h

theorem entry?_write_self {t t' : Tree α} {place : Place} {content : α}
    (h : t.write place content = .ok t') : t'.entry? place = some (.file content) := by
  have hplace : place ≠ [] := by
    rintro rfl
    exact absurd (isDirectory_of_write h) (by simp [isDirectory, entry?])
  rw [eq_put_of_write h]
  exact entry?_put_self t _ hplace

/-- Writing a file makes and removes no directory. -/
theorem isDirectory_write {t t' : Tree α} {place : Place} {content : α}
    (h : t.write place content = .ok t') (other : Place) :
    t'.isDirectory other = t.isDirectory other := by
  by_cases hp : other = place
  · rw [hp, isDirectory_of_write h, isDirectory, entry?_write_self h]
  · rw [isDirectory, isDirectory, entry?_write h hp]

theorem needDirectory_eq_ok (t : Tree α) (place : Place) :
    t.needDirectory place = .ok () ↔ t.isDirectory place = true := by
  simp only [needDirectory, isDirectory]
  cases t.entry? place with
  | none => simp
  | some e => cases e <;> simp

/-- What names lead to stays while the directories do. -/
theorem walk_of_isDirectory {t t' : Tree α}
    (hd : ∀ place, t.isDirectory place = true → t'.isDirectory place = true)
    {place found : Place} {names : List String} (h : t.walk place names = .ok found) :
    t'.walk place names = .ok found := by
  induction names generalizing place with
  | nil => exact h
  | cons name rest ih =>
      simp only [walk, Outcome.bind_eq_ok] at h
      obtain ⟨_, hneed, h⟩ := h
      have hneed' : t'.needDirectory place = .ok () :=
        (needDirectory_eq_ok t' place).mpr (hd place ((needDirectory_eq_ok t place).mp hneed))
      simp only [walk, hneed', Outcome.ok_bind]
      split at h
      · rename_i hname
        rw [if_pos hname, ih h]
      · rename_i hname
        rw [if_neg hname, ih h]

theorem find_of_isDirectory {t t' : Tree α}
    (hd : ∀ place, t.isDirectory place = true → t'.isDirectory place = true)
    {directory found : Place} {p : Path} (hf : t.find directory p = .ok found) :
    t'.find directory p = .ok found := by
  simp only [ find] at hf ⊢
  split at hf
  · cases hf
  · rename_i hnul
    rw [if_neg hnul, walk_of_isDirectory hd hf]

theorem find_write {t t' : Tree α} {place : Place} {content : α}
    (h : t.write place content = .ok t') {directory found : Place} {p : Path}
    (hf : t.find directory p = .ok found) : t'.find directory p = .ok found :=
  find_of_isDirectory (fun place hd => (isDirectory_write h place).trans hd) hf

theorem read_eq_ok {t : Tree α} {directory : Place} {p : Path} {content : α} :
    t.read directory p = .ok content ↔
      ∃ place, t.find directory p = .ok place ∧ t.entry? place = some (.file content) := by
  simp only [read, Outcome.bind_eq_ok]
  constructor
  · intro h
    obtain ⟨place, hfind, h⟩ := h
    refine ⟨place, hfind, ?_⟩
    split at h
    · rename_i old hentry
      cases h
      exact hentry
    · cases h
    · cases h
  · intro h
    obtain ⟨place, hfind, hentry⟩ := h
    exact ⟨place, hfind, by rw [hentry]; rfl⟩

theorem walk_eq_ok (t : Tree α) {place found : Place} {names : List String}
    (h : t.walk place names = .ok found) : found = (names.filter isStep).foldl Path.step place := by
  induction names generalizing place with
  | nil => simpa [walk] using h.symm
  | cons name rest ih =>
      simp only [walk, Outcome.bind_eq_ok] at h
      obtain ⟨_, _, h⟩ := h
      by_cases hs : isStep name = true
      · have hn : (name == "" || name == ".") = false := by simpa [isStep] using hs
        simp only [hn, Bool.false_eq_true, ite_false] at h
        simpa [List.filter_cons, hs] using ih h
      · have hn : (name == "" || name == ".") = true := by
          simpa [isStep, Decidable.imp_iff_not_or, or_comm] using hs
        simp only [hn, ite_true] at h
        simpa [List.filter_cons, hs] using ih h

theorem resolve_eq_ok {directory place : Place} {p : Path} :
    p.resolve directory = .ok place ↔ p.hasNul = false ∧
      place = p.names.foldl Path.step (if p.isAbsolute then [] else directory) := by
  cases h : p.hasNul with
  | true => simp [Path.resolve, h]
  | false =>
      simp only [Path.resolve, h, Bool.false_eq_true, ite_false, Except.ok.injEq, true_and]
      exact eq_comm

/-- A path that is found in the tree is at the place it resolves to. -/
theorem resolve_of_find (t : Tree α) {directory place : Place} {s : String}
    (h : t.find directory (Path.ofString s) = .ok place) :
    (Path.ofString s).resolve directory = .ok place := by
  cases hn : (Path.ofString s).hasNul with
  | true => simp [find, hn] at h
  | false =>
      simp only [find, hn, Bool.false_eq_true, ite_false] at h
      have hf : (Path.ofString s).names.filter isStep = (Path.ofString s).names := by
        simp [ofString_names]
      refine resolve_eq_ok.mpr ⟨hn, ?_⟩
      rw [← hf]
      exact t.walk_eq_ok h

/-- What is moved to a path comes to the place it resolves to, or into the directory there. -/
theorem destination_eq_ite (t : Tree α) {directory place asked : Place} {path name : String}
    (h : t.destination directory path name = .ok place)
    (hr : (Path.ofString path).resolve directory = .ok asked) :
    place = if t.isDirectory asked then asked ++ [name] else asked := by
  have hasked := (resolve_eq_ok.mp hr).2
  rw [isAbsolute_ofString, ofString_names] at hasked
  simp only [destination] at h
  split at h
  · simp at h
  · split at h
    · simp at h
    · obtain ⟨found, hw, h⟩ := Outcome.bind_eq_ok.mp h
      have hfound : found = asked := (t.walk_eq_ok hw).trans hasked.symm
      subst hfound
      split at h
      · rename_i hd
        rw [if_pos hd]
        split at h
        · simp at h
        · simpa using h.symm
      · rename_i hd
        rw [if_neg hd]
        simpa using h.symm

theorem destination_eq_ok (t : Tree α) {directory place asked : Place} {path name : String}
    (h : t.destination directory path name = .ok place)
    (hr : (Path.ofString path).resolve directory = .ok asked) :
    place = asked ∨ place = asked ++ [name] := by
  have hplace := t.destination_eq_ite h hr
  split at hplace
  · exact .inr hplace
  · exact .inl hplace

end Tree
end Files
end SvgDiagram
