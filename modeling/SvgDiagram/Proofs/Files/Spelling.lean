import SvgDiagram.Proofs.Files.Lookup

/-!
How a place is spelled. The names on the way to it, with a slash before each, read as the path of the place,
and that path leads there from any working directory. What is read from a text are pieces of it, and no
character but slashes and points is lost.
-/

namespace SvgDiagram
namespace Files

/-- A name that stands in a path as it is. -/
structure IsPart (name : String) : Prop where
  ne_empty : name ≠ ""
  ne_same : name ≠ "."
  no_slash : '/' ∉ name.toList

theorem IsPart.isStep {name : String} (h : IsPart name) : isStep name = true := by
  simp [Files.isStep, h.ne_empty, h.ne_same]

/-- A name that a file or a directory can have. -/
structure IsName (name : String) : Prop where
  ne_empty : name ≠ ""
  ne_same : name ≠ "."
  ne_above : name ≠ ".."
  no_slash : '/' ∉ name.toList
  no_nul : Char.ofNat 0 ∉ name.toList

instance (name : String) : Decidable (IsName name) :=
  decidable_of_iff (name ≠ "" ∧ name ≠ "." ∧ name ≠ ".." ∧ '/' ∉ name.toList ∧
      Char.ofNat 0 ∉ name.toList)
    ⟨fun ⟨e, s, a, sl, n⟩ => ⟨e, s, a, sl, n⟩, fun h => ⟨h.1, h.2, h.3, h.4, h.5⟩⟩

theorem IsName.isPart {name : String} (h : IsName name) : IsPart name :=
  ⟨h.ne_empty, h.ne_same, h.no_slash⟩

/-- The pieces of a text between separators have all its characters but the separators. -/
theorem exists_mem_splitOn_iff {cs : List Char} {separator c : Char} :
    (∃ piece ∈ cs.splitOn separator, c ∈ piece) ↔ c ∈ cs ∧ c ≠ separator := by
  induction cs with
  | nil => simp
  | cons d cs ih =>
      rw [List.splitOn_cons_eq_if_modifyHead]
      by_cases hd : d = separator
      · subst hd
        rw [if_pos (beq_self_eq_true d), List.exists_mem_cons_iff, ih, List.mem_cons]
        simp only [List.not_mem_nil, false_or]
        tauto
      · obtain ⟨first, rest, hsplit⟩ :=
          List.exists_cons_of_ne_nil (List.splitOn_ne_nil separator cs)
        rw [hsplit, List.exists_mem_cons_iff] at ih
        rw [if_neg (by simpa using hd), hsplit, List.modifyHead_cons, List.exists_mem_cons_iff,
          List.mem_cons, or_assoc, ih, List.mem_cons]
        grind

namespace Path

/-- Names with slashes between them are the pieces of their text. -/
theorem betweenSlashes_joined {names : List String} (hne : names ≠ []) (h : ∀ n ∈ names, IsPart n) :
    ((['/'].intercalate (names.map String.toList)).splitOn '/').map String.ofList = names := by
  have hslash : ∀ cs ∈ names.map String.toList, '/' ∉ cs := by
    intro cs hcs
    obtain ⟨n, hn, rfl⟩ := List.mem_map.mp hcs
    exact (h n hn).no_slash
  have hback : String.ofList ∘ String.toList = id := funext fun _ => String.ofList_toList
  rw [List.splitOn_intercalate _ hslash (by simpa using hne), List.map_map, hback, List.map_id]

theorem head_joined {names : List String} (hne : names ≠ []) (h : ∀ n ∈ names, IsPart n) :
    ∃ c cs, c ≠ '/' ∧ ['/'].intercalate (names.map String.toList) = c :: cs := by
  cases names with
  | nil => exact absurd rfl hne
  | cons first rest =>
      have hfirst := h first (by simp)
      obtain ⟨c, cs, hc⟩ : ∃ c cs, first.toList = c :: cs := by
        apply List.exists_cons_of_ne_nil
        simpa using hfirst.ne_empty
      refine ⟨c, ['/'].intercalate (cs :: rest.map String.toList), ?_, ?_⟩
      · intro heq
        exact hfirst.no_slash (by rw [hc, heq]; simp)
      · simp [hc, List.intercalate_cons_cons_left]

/-- The text of a path is read as the path. -/
theorem ofString_text {p : Path} (h : ∀ n ∈ p.names, IsPart n) : ofString p.text = p := by
  obtain ⟨root, names⟩ := p
  by_cases hne : names = []
  · subst hne
    cases root <;> rfl
  · have hpieces := betweenSlashes_joined hne h
    obtain ⟨c, cs, hc, hjoined⟩ := head_joined hne h
    have hsteps : names.filter Files.isStep = names :=
      List.filter_eq_self.mpr fun n hn => (h n hn).isStep
    have htext : (Path.mk root names).text.toList = root.text.toList ++ c :: cs := by
      rw [← hjoined]
      simp [text, hne, String.toList_intercalate]
    have hroot : rootOf (Path.mk root names).text = root := by
      rw [rootOf, htext]
      cases root <;> simp [Root.text, hc]
    have hnames : (ofString (Path.mk root names).text).names = names := by
      rw [ofString_names, betweenSlashes, htext, ← hjoined]
      cases root <;>
        simp [Root.text, List.splitOn_cons_eq_if_modifyHead, hpieces, hsteps, Files.isStep]
    rw [ofString, hroot]
    exact congrArg (Path.mk root) hnames

theorem ofString_text_ofPlace {place : Place} (h : ∀ n ∈ place, IsName n) :
    ofString (ofPlace place).text = ofPlace place :=
  ofString_text fun n hn => (h n hn).isPart

theorem isPart_of_mem_names {s n : String} (h : n ∈ (ofString s).names) : IsPart n := by
  rw [ofString_names, List.mem_filter] at h
  obtain ⟨hmem, hstep⟩ := h
  obtain ⟨piece, hpiece, rfl⟩ := List.mem_map.mp hmem
  have hstep : String.ofList piece ≠ "" ∧ String.ofList piece ≠ "." := by
    simpa only [Files.isStep, Bool.and_eq_true, bne_iff_ne] using hstep
  refine ⟨hstep.1, hstep.2, ?_⟩
  intro hslash
  rw [String.toList_ofList] at hslash
  exact (exists_mem_splitOn_iff.mp ⟨piece, hpiece, hslash⟩).2 rfl

/-- The names of a path have all characters of its text but slashes and points. -/
theorem exists_mem_names_iff (s : String) {c : Char} (hslash : c ≠ '/') (hpoint : c ≠ '.') :
    (∃ n ∈ (ofString s).names, c ∈ n.toList) ↔ c ∈ s.toList := by
  have hpieces : (∃ piece ∈ s.toList.splitOn '/', c ∈ piece) ↔ c ∈ s.toList ∧ c ≠ '/' :=
    exists_mem_splitOn_iff
  constructor
  · rintro ⟨n, hn, hc⟩
    rw [ofString_names, List.mem_filter] at hn
    obtain ⟨piece, hpiece, rfl⟩ := List.mem_map.mp hn.1
    rw [String.toList_ofList] at hc
    exact (hpieces.mp ⟨piece, hpiece, hc⟩).1
  · intro hmem
    obtain ⟨piece, hpiece, hc⟩ := hpieces.mpr ⟨hmem, hslash⟩
    refine ⟨String.ofList piece, ?_, by rwa [String.toList_ofList]⟩
    rw [ofString_names, List.mem_filter]
    refine ⟨List.mem_map_of_mem hpiece, ?_⟩
    -- A piece that is dropped has no characters but points.
    simp only [Files.isStep, Bool.and_eq_true, bne_iff_ne]
    refine ⟨?_, ?_⟩
    · intro hempty
      have hnil : piece = [] := by simpa using congrArg String.toList hempty
      simp [hnil] at hc
    · intro hsame
      have hdot : piece = ['.'] := by simpa using congrArg String.toList hsame
      exact hpoint (by simpa [hdot] using hc)

theorem foldl_step {names : List String} (h : ∀ n ∈ names, n ≠ "..") (start : Place) :
    names.foldl step start = start ++ names := by
  induction names generalizing start with
  | nil => simp
  | cons n rest ih =>
      have hn := h n (by simp)
      have hstep : step start n = start ++ [n] := by simp [step, hn]
      rw [List.foldl_cons, hstep, ih (fun m hm => h m (by simp [hm])), List.append_assoc]
      rfl

theorem resolve_ofPlace {place : Place} (h : ∀ n ∈ place, IsName n) (directory : Place) :
    (ofPlace place).resolve directory = .ok place := by
  rw [Tree.resolve_eq_ok]
  constructor
  · have hnul : ∀ n ∈ place, Char.ofNat 0 ∉ n.toList := fun n hn => (h n hn).no_nul
    simpa [hasNul, ofPlace] using hnul
  · simp [ofPlace, isAbsolute, foldl_step fun n hn => (h n hn).ne_above]

end Path
end Files
end SvgDiagram
