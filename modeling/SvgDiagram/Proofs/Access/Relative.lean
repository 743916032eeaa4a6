import Mathlib.Order.Minimal
import SvgDiagram.Proofs.Access.Cover
import SvgDiagram.Proofs.Files.Spelling

/-!
Relative patterns. One without `*` is a directory below the working directory. One with `*` is not: its
components are matched from the root, which counts as a component of its own, so its first one has to
stand for the root. It means what it would mean below the working directory only if it means nothing.
-/

namespace SvgDiagram
namespace Access

open Files (Place Path IsName IsPart)

/-- A relative pattern, put below the working directory. -/
def under (working : Place) (pattern : String) : String :=
  (Path.ofPlace (working ++ (Path.ofString pattern).names)).text

/-- Components that are no wildcards match themselves only. -/
theorem glob_append_iff {accepts : String → String → Bool} {literal pattern directory : List String}
    (h : ∀ n ∈ literal, isWildcard n = false) :
    Glob accepts (literal ++ pattern) directory ↔
      ∃ below, directory = literal ++ below ∧ Glob accepts pattern below := by
  induction literal generalizing directory with
  | nil => simp
  | cons n literal ih =>
      have hn := h n List.mem_cons_self
      have hliteral : ∀ m ∈ literal, isWildcard m = false := fun m hm => h m (List.mem_cons_of_mem _ hm)
      have hdeep : n ≠ "**" := by
        rintro rfl
        rw [isWildcard_deep] at hn
        cases hn
      constructor
      · intro hg
        obtain ⟨component, below, rfl, hf, hg⟩ := hg.part_inv hdeep
        obtain ⟨rest, rfl, hrest⟩ := (ih hliteral).mp hg
        have heq : component = n := by simpa [fits, hn] using hf
        exact ⟨rest, by rw [heq]; rfl, hrest⟩
      · rintro ⟨below, rfl, hg⟩
        exact .name hn ((ih hliteral).mpr ⟨below, rfl, hg⟩)

section

variable {working : Place} {pattern : String}

theorem ofString_under (hworking : ∀ n ∈ working, IsName n) :
    Path.ofString (under working pattern) =
      Path.ofPlace (working ++ (Path.ofString pattern).names) := by
  apply Path.ofString_text
  intro n hn
  obtain hn | hn := List.mem_append.mp hn
  · exact (hworking n hn).isPart
  · exact Path.isPart_of_mem_names hn

/-- A pattern has the stars that it has below the working directory. -/
theorem star_mem_under_iff (hworking : ∀ n ∈ working, IsName n ∧ isWildcard n = false) :
    '*' ∈ (under working pattern).toList ↔ '*' ∈ pattern.toList := by
  have hstar : ∀ n ∈ working, '*' ∉ n.toList := by
    intro n hn hmem
    have hwild : isWildcard n = true := List.any_eq_true.mpr ⟨'*', hmem, rfl⟩
    rw [(hworking n hn).2] at hwild
    cases hwild
  rw [← Path.exists_mem_names_iff _ (by decide) (by decide),
    ← Path.exists_mem_names_iff pattern (by decide) (by decide),
    ofString_under fun n hn => (hworking n hn).1]
  constructor
  · rintro ⟨n, hn, hmem⟩
    obtain hn | hn := List.mem_append.mp hn
    · exact absurd hmem (hstar n hn)
    · exact ⟨n, hn, hmem⟩
  · rintro ⟨n, hn, hmem⟩
    exact ⟨n, List.mem_append_right _ hn, hmem⟩

/-- A relative pattern with `*` is matched from the root. -/
theorem covers_relative_iff (hrelative : (Path.ofString pattern).isAbsolute = false)
    (hstar : '*' ∈ pattern.toList) (directory : Place) :
    Covers working pattern directory ↔
      ∃ lead, lead <+: "/" :: directory ∧ Glob accepts (Path.ofString pattern).names lead := by
  have hcomponents : (Path.ofString pattern).components = (Path.ofString pattern).names := by
    simp [Path.components, hrelative]
  constructor
  · rintro (⟨star, _, _⟩ | ⟨_, h, matched⟩)
    · exact absurd hstar star
    · exact ⟨_, h, hcomponents ▸ matched⟩
  · rintro ⟨lead, h, matched⟩
    exact .glob hstar h (hcomponents ▸ matched)

/-- Below the working directory, a pattern with `*` is matched from there. -/
theorem covers_under_iff (hworking : ∀ n ∈ working, IsName n ∧ isWildcard n = false)
    (hstar : '*' ∈ pattern.toList) (directory : Place) :
    Covers working (under working pattern) directory ↔
      ∃ lead, working ++ lead <+: directory ∧ Glob accepts (Path.ofString pattern).names lead := by
  have hcomponents : (Path.ofString (under working pattern)).components =
      ("/" :: working) ++ (Path.ofString pattern).names := by
    rw [ofString_under fun n hn => (hworking n hn).1]
    rfl
  have hliteral : ∀ n ∈ "/" :: working, isWildcard n = false := by
    rw [List.forall_mem_cons]
    exact ⟨by decide, fun n hn => (hworking n hn).2⟩
  have hstar' := (star_mem_under_iff hworking).mpr hstar
  constructor
  · rintro (⟨star, _, _⟩ | ⟨_, h, matched⟩)
    · exact absurd hstar' star
    · rw [hcomponents] at matched
      obtain ⟨lead, rfl, hlead⟩ := (glob_append_iff hliteral).mp matched
      exact ⟨lead, (List.cons_prefix_cons.mp h).2, hlead⟩
  · rintro ⟨lead, h, hlead⟩
    refine .glob hstar' (List.cons_prefix_cons.mpr ⟨rfl, h⟩) ?_
    rw [hcomponents]
    exact (glob_append_iff hliteral).mpr ⟨lead, rfl, hlead⟩

/-- A relative path without steps upwards leads below the working directory. -/
theorem resolve_relative (hrelative : (Path.ofString pattern).isAbsolute = false)
    (hup : ".." ∉ (Path.ofString pattern).names) :
    (Path.ofString pattern).resolve working =
      if (Path.ofString pattern).hasNul then .error .nulInPath
      else .ok (working ++ (Path.ofString pattern).names) := by
  have hsteps := Path.foldl_step (fun n hn hn' => hup (hn' ▸ hn)) working
  simp [Path.resolve, hrelative, hsteps]

/-- A pattern without `*` is the same directory below the working directory. -/
theorem resolve_under (hworking : ∀ n ∈ working, IsName n)
    (hrelative : (Path.ofString pattern).isAbsolute = false)
    (hup : ".." ∉ (Path.ofString pattern).names) :
    (Path.ofString (under working pattern)).resolve working =
      (Path.ofString pattern).resolve working := by
  have hnul : (Path.ofPlace (working ++ (Path.ofString pattern).names)).hasNul =
      (Path.ofString pattern).hasNul := by
    have hnone : (working.any fun n => n.toList.contains (Char.ofNat 0)) = false := by
      simpa using fun n hn => (hworking n hn).no_nul
    simp only [Path.hasNul, Path.ofPlace, List.any_append, hnone, Bool.false_or]
  have hsteps : (working ++ (Path.ofString pattern).names).foldl Path.step [] =
      working ++ (Path.ofString pattern).names := by
    rw [Path.foldl_step ?_ [], List.nil_append]
    intro n hn
    obtain hn | hn := List.mem_append.mp hn
    · exact (hworking n hn).ne_above
    · exact fun hn' => hup (hn' ▸ hn)
  rw [resolve_relative hrelative hup, ofString_under hworking, Path.resolve, hnul]
  simp only [Path.ofPlace, Path.isAbsolute, hsteps, bne_iff_ne, ne_eq, reduceCtorEq, not_false_eq_true,
    ite_true]

theorem admits_under_of_plain (hworking : ∀ n ∈ working, IsName n ∧ isWildcard n = false)
    (hrelative : (Path.ofString pattern).isAbsolute = false)
    (hup : ".." ∉ (Path.ofString pattern).names) (hstar : '*' ∉ pattern.toList) (place : Place) :
    admits working (Path.ofPlace place) pattern =
      admits working (Path.ofPlace place) (under working pattern) := by
  have hstar' : '*' ∉ (under working pattern).toList := by
    rwa [star_mem_under_iff hworking]
  have hresolve := resolve_under (fun n hn => (hworking n hn).1) hrelative hup
  simp only [admits, admitsBy, List.contains_eq_mem, hstar, hstar', decide_false, Bool.false_eq_true,
    ite_false, hresolve]

theorem covered_of_plain (hrelative : (Path.ofString pattern).isAbsolute = false)
    (hup : ".." ∉ (Path.ofString pattern).names) (hstar : '*' ∉ pattern.toList) {directory : Place}
    (h : Covers working pattern directory) : working <+: directory := by
  obtain ⟨_, hresolved, hprefix⟩ | ⟨star, _, _⟩ := h
  · rw [resolve_relative hrelative hup] at hresolved
    split at hresolved
    · cases hresolved
    · cases hresolved
      exact (List.prefix_append working _).trans hprefix
  · exact absurd star hstar

/-- Among the directories that the rest of a pattern matches, a shortest one is not below the working
directory in the way that the whole pattern asks for. -/
theorem exists_uncovered {first : String} {rest lead : List String}
    (hdeep : working = [] → first ≠ "**") (h : Glob accepts (first :: rest) lead) :
    ∃ directory, Glob accepts rest directory ∧
      ¬∃ lead, working ++ lead <+: directory ∧ Glob accepts (first :: rest) lead := by
  -- What is left for the rest after the first component, and after the working directory, is shorter.
  have hrest {lead : List String} (h : Glob accepts (first :: rest) lead) :
      ∃ below, Glob accepts rest below ∧ below.length ≤ lead.length ∧
        (first ≠ "**" → below.length < lead.length) := by
    by_cases hfirst : first = "**"
    · subst hfirst
      obtain ⟨skipped, below, rfl, hbelow⟩ := h.deep_inv
      exact ⟨below, hbelow, by simp, fun hne => absurd rfl hne⟩
    · obtain ⟨_, below, rfl, -, hbelow⟩ := h.part_inv hfirst
      exact ⟨below, hbelow, by simp, fun _ => by simp⟩
  obtain ⟨below, hbelow, -⟩ := hrest h
  obtain ⟨directory, hdirectory, hshortest⟩ :=
    exists_minimalFor_of_wellFoundedLT (Glob accepts rest) List.length ⟨below, hbelow⟩
  refine ⟨directory, hdirectory, ?_⟩
  rintro ⟨lead, hprefix, hlead⟩
  obtain ⟨shorter, hshorter, hle, hlt⟩ := hrest hlead
  have hlength := hprefix.length_le
  rw [List.length_append] at hlength
  have hmin : directory.length ≤ shorter.length := hshortest hshorter (by omega)
  cases working with
  | nil =>
      have hlt := hlt (hdeep rfl)
      omega
  | cons n working =>
      rw [List.length_cons] at hlength
      omega

/-- A relative pattern with `*` that matches anything does not mean what it means below the working
directory. -/
theorem exists_covers_differ (hworking : ∀ n ∈ working, IsName n ∧ isWildcard n = false)
    (hrelative : (Path.ofString pattern).isAbsolute = false) (hstar : '*' ∈ pattern.toList)
    (hdeep : working = [] → (Path.ofString pattern).names.head? ≠ some "**") {lead : List String}
    (h : Glob accepts (Path.ofString pattern).names lead) :
    ∃ directory, ¬(Covers working pattern directory ↔
      Covers working (under working pattern) directory) := by
  simp only [covers_relative_iff hrelative hstar, covers_under_iff hworking hstar]
  cases hnames : (Path.ofString pattern).names with
  | nil =>
      obtain ⟨n, hn, -⟩ := (Path.exists_mem_names_iff pattern (by decide) (by decide)).mpr hstar
      simp [hnames] at hn
  | cons first rest =>
      rw [hnames] at h hdeep
      have hdeep : working = [] → first ≠ "**" := by simpa using hdeep
      by_cases hroot : first = "**" ∨ fits accepts first "/" = true
      · -- The first component can stand for the root, and the rest is matched from there.
        obtain ⟨directory, hdirectory, hun⟩ := exists_uncovered hdeep h
        refine ⟨directory, fun hiff => hun (hiff.mp ⟨"/" :: directory, List.prefix_rfl, ?_⟩)⟩
        by_cases hfirst : first = "**"
        · subst hfirst
          exact .deep ["/"] hdirectory
        · exact .of_fits hfirst (hroot.resolve_left hfirst) hdirectory
      · -- No directory starts with anything but the root, so nothing is matched.
        obtain ⟨hfirst, hfits⟩ := not_or.mp hroot
        refine ⟨working ++ lead, fun hiff => ?_⟩
        obtain ⟨other, hprefix, hother⟩ := hiff.mpr ⟨lead, List.prefix_rfl, h⟩
        obtain ⟨component, below, rfl, hcomponent, -⟩ := hother.part_inv hfirst
        obtain ⟨rfl, -⟩ := List.cons_prefix_cons.mp hprefix
        exact hfits hcomponent

/-- A relative pattern with `*` whose first component is not `**` asks that component for the root, and
the rest of the pattern for the directory. -/
theorem covers_relative_cons_iff (hrelative : (Path.ofString pattern).isAbsolute = false)
    (hstar : '*' ∈ pattern.toList) {first : String} {rest : List String}
    (hnames : (Path.ofString pattern).names = first :: rest) (hfirst : first ≠ "**") (directory : Place) :
    Covers working pattern directory ↔
      fits accepts first "/" = true ∧ ∃ lead, lead <+: directory ∧ Glob accepts rest lead := by
  rw [covers_relative_iff hrelative hstar, hnames]
  constructor
  · rintro ⟨lead, hprefix, hlead⟩
    obtain ⟨component, below, rfl, hfits, hbelow⟩ := hlead.part_inv hfirst
    obtain ⟨rfl, hdirectory⟩ := List.cons_prefix_cons.mp hprefix
    exact ⟨hfits, below, hdirectory, hbelow⟩
  · rintro ⟨hfits, lead, hprefix, hlead⟩
    exact ⟨"/" :: lead, List.cons_prefix_cons.mpr ⟨rfl, hprefix⟩, .of_fits hfirst hfits hlead⟩

end

/-- A question about a pattern with `*` always has an answer, so two of them have the same answer if they
cover the same. -/
theorem admits_eq_iff {working : Place} {pattern other : String} (hpattern : '*' ∈ pattern.toList)
    (hother : '*' ∈ other.toList) (place : Place) :
    admits working (Path.ofPlace place) pattern = admits working (Path.ofPlace place) other ↔
      (Covers working pattern place.dropLast ↔ Covers working other place.dropLast) := by
  have hanswer {p : String} (hp : '*' ∈ p.toList) :
      ∃ b, admits working (Path.ofPlace place) p = .ok b := by
    simp [admits, admitsBy, hp]
  obtain ⟨b, hb⟩ := hanswer hpattern
  obtain ⟨c, hc⟩ := hanswer hother
  rw [← admits_iff, ← admits_iff, hb, hc, Except.ok.injEq, Except.ok.injEq, Except.ok.injEq,
    Bool.eq_iff_iff]

/-- A relative pattern means the same below the working directory exactly if it has no `*`, or matches no
directory at all. Without `*` it admits only what is below the working directory. With `*`, and unless its
first component is `**`, it admits a file exactly if that component accepts the root and the rest of the
pattern matches from there. -/
theorem relative_pattern_means_working_directory_iff {working : Place}
    (hworking : ∀ n ∈ working, IsName n ∧ isWildcard n = false) {pattern : String}
    (hrelative : (Path.ofString pattern).isAbsolute = false)
    (hup : ".." ∉ (Path.ofString pattern).names)
    (hdeep : working = [] → (Path.ofString pattern).names.head? ≠ some "**") :
    ((∀ place, admits working (Path.ofPlace place) pattern =
        admits working (Path.ofPlace place) (under working pattern)) ↔
      ('*' ∈ pattern.toList → ∀ lead, ¬Glob accepts (Path.ofString pattern).names lead)) ∧
    ('*' ∉ pattern.toList → ∀ place, admits working (Path.ofPlace place) pattern = .ok true →
      working <+: place.dropLast) ∧
    ('*' ∈ pattern.toList → ∀ first rest, (Path.ofString pattern).names = first :: rest →
      first ≠ "**" → ∀ place, (admits working (Path.ofPlace place) pattern = .ok true ↔
        fits accepts first "/" = true ∧ ∃ lead, lead <+: place.dropLast ∧ Glob accepts rest lead)) := by
  refine ⟨⟨?_, ?_⟩, ?_, ?_⟩
  · intro hsame hstar lead hlead
    obtain ⟨directory, hdiffer⟩ := exists_covers_differ hworking hrelative hstar hdeep hlead
    have hfile := (admits_eq_iff hstar ((star_mem_under_iff hworking).mpr hstar) _).mp
      (hsame (directory ++ ["file"]))
    rw [List.dropLast_concat] at hfile
    exact hdiffer hfile
  · intro hnone place
    by_cases hstar : '*' ∈ pattern.toList
    · rw [admits_eq_iff hstar ((star_mem_under_iff hworking).mpr hstar),
        covers_relative_iff hrelative hstar, covers_under_iff hworking hstar]
      simp only [hnone hstar, and_false, exists_false]
    · exact admits_under_of_plain hworking hrelative hup hstar place
  · intro hstar place hadmits
    exact covered_of_plain hrelative hup hstar ((admits_iff _ _ _).mp hadmits)
  · intro hstar first rest hnames hfirst place
    rw [admits_iff, covers_relative_cons_iff hrelative hstar hnames hfirst]

theorem out_means_working_directory :
    (∀ place, admits ["work"] (Path.ofPlace place) "out/a" =
        admits ["work"] (Path.ofPlace place) "/work/out/a") ∧
      ¬∀ place, admits ["work"] (Path.ofPlace place) "out*" =
        admits ["work"] (Path.ofPlace place) "/work/out*" := by
  have hworking : ∀ n ∈ ["work"], IsName n ∧ isWildcard n = false := by decide
  have hplain := relative_pattern_means_working_directory_iff hworking
    (show (Path.ofString "out/a").isAbsolute = false by decide) (by decide) (by decide)
  have hstar := relative_pattern_means_working_directory_iff hworking
    (show (Path.ofString "out*").isAbsolute = false by decide) (by decide) (by decide)
  have hmatched : Glob accepts (Path.ofString "out*").names ["out1"] :=
    .wildcard (by decide) (by decide) (by decide +kernel) .nil
  exact ⟨hplain.1.mpr fun hmem => absurd hmem (by decide),
    fun hsame => hstar.1.mp hsame (by decide) _ hmatched⟩

/-- A relative pattern admits a file outside the working directory, and another one admits no file in a
directory of that name below it. -/
theorem relative_patterns_miss_working_directory :
    (admits ["work"] (Path.ofPlace ["data", "x.svg"]) "*/data" = .ok true ∧
      admits ["work"] (Path.ofPlace ["data", "x.svg"]) (under ["work"] "*/data") = .ok false) ∧
    admits ["work"] (Path.ofPlace ["work", "out1", "x.svg"]) "out*" = .ok false ∧
      admits ["work"] (Path.ofPlace ["work", "out1", "x.svg"]) (under ["work"] "out*") = .ok true := by
  decide +kernel

end Access
end SvgDiagram
