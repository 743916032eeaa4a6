import Mathlib.Data.List.Induction
import Mathlib.Logic.Relation
import SvgDiagram.Proofs.Files.Spelling

/-!
The place that a text leads to, as a matter of its pieces alone. A piece that says nothing can be left out,
and so can a name together with the step upwards after it; a step upwards from the root goes nowhere. What
is left when nothing more can be left out is the place, whatever the order in which it was done.
-/

namespace SvgDiagram
namespace Files

/-- Pieces of a path from the root, and what is left of them after one thing is left out. -/
inductive Shortens : List String → List String → Prop
  | silent (before after : List String) {piece : String} (h : piece = "" ∨ piece = ".") :
      Shortens (before ++ piece :: after) (before ++ after)
  | undone (before after : List String) {name : String} (h : isStep name = true) (down : name ≠ "..") :
      Shortens (before ++ name :: ".." :: after) (before ++ after)
  | top (after : List String) : Shortens (".." :: after) after

/-- Pieces of a path from the root can be shortened to the place, and that not any further. -/
structure LeadsTo (pieces : List String) (place : Place) : Prop where
  shortened : Relation.ReflTransGen Shortens pieces place
  plain : ∀ n ∈ place, isStep n = true ∧ n ≠ ".."

/-- The place that is reached by following the pieces one after the other. -/
def follow (pieces : List String) : Place := (pieces.filter isStep).foldl Path.step []

theorem isStep_eq_false {piece : String} : isStep piece = false ↔ piece = "" ∨ piece = "." := by
  simp only [isStep, Bool.and_eq_false_iff, bne_eq_false_iff_eq]

theorem Shortens.append {pieces shorter : List String} (h : Shortens pieces shorter)
    (after : List String) : Shortens (pieces ++ after) (shorter ++ after) := by
  cases h with
  | silent before rest h => simpa using Shortens.silent before (rest ++ after) h
  | undone before rest h down => simpa using Shortens.undone before (rest ++ after) h down
  | top => exact .top (shorter ++ after)

theorem follow_concat (pieces : List String) (piece : String) :
    follow (pieces ++ [piece]) =
      if isStep piece then Path.step (follow pieces) piece else follow pieces := by
  cases h : isStep piece with
  | true => simp [follow, List.filter_append, h]
  | false => simp [follow, List.filter_append, h]

theorem follow_of_shortens {pieces shorter : List String} (h : Shortens pieces shorter) :
    follow pieces = follow shorter := by
  cases h with
  | silent before after h => simp [follow, isStep_eq_false.mpr h]
  | undone before after h down =>
      have hup : isStep ".." = true := by decide
      simp [follow, h, hup, Path.step, down]
  | top after => rfl

theorem follow_of_plain {place : Place} (h : ∀ n ∈ place, isStep n = true ∧ n ≠ "..") :
    follow place = place := by
  have hsteps : place.filter isStep = place := List.filter_eq_self.mpr fun n hn => (h n hn).1
  rw [follow, hsteps, Path.foldl_step (fun n hn => (h n hn).2) [], List.nil_append]

theorem leadsTo_follow (pieces : List String) : LeadsTo pieces (follow pieces) := by
  induction pieces using List.reverseRecOn with
  | nil => exact ⟨.refl, by simp [follow]⟩
  | append_singleton pieces piece ih =>
      have hlift : Relation.ReflTransGen Shortens (pieces ++ [piece]) (follow pieces ++ [piece]) :=
        ih.shortened.lift (· ++ [piece]) fun _ _ h => h.append [piece]
      rw [follow_concat]
      cases hstep : isStep piece with
      | false =>
          have hsilent := Shortens.silent (follow pieces) [] (isStep_eq_false.mp hstep)
          rw [List.append_nil] at hsilent
          exact ⟨hlift.tail hsilent, ih.plain⟩
      | true =>
          by_cases hup : piece = ".."
          · subst hup
            -- The step upwards takes back the last name of the place, if it has one.
            cases hplace : follow pieces using List.reverseRecOn with
            | nil =>
                rw [hplace] at hlift
                exact ⟨hlift.tail (.top []), by simp [Path.step]⟩
            | append_singleton place name _ =>
                have hname := ih.plain name (by simp [hplace])
                have hundone := Shortens.undone place [] hname.1 hname.2
                rw [List.append_nil] at hundone
                rw [hplace, List.append_assoc] at hlift
                have hleft : Path.step (place ++ [name]) ".." = place := by simp [Path.step]
                simp only [ite_true, hleft]
                exact ⟨hlift.tail hundone, fun n hn => ih.plain n (by simp [hplace, hn])⟩
          · have hdown : Path.step (follow pieces) piece = follow pieces ++ [piece] := by
              simp [Path.step, hup]
            simp only [ite_true, hdown]
            refine ⟨hlift, fun n hn => ?_⟩
            obtain hn | hn := List.mem_append.mp hn
            · exact ih.plain n hn
            · rw [List.mem_singleton.mp hn]
              exact ⟨hstep, hup⟩

/-- Pieces lead to one place only. -/
theorem leadsTo_iff {pieces : List String} {place : Place} :
    LeadsTo pieces place ↔ place = follow pieces := by
  constructor
  · rintro ⟨shortened, plain⟩
    have hsame : follow pieces = follow place := by
      clear plain
      induction shortened with
      | refl => rfl
      | tail _ hstep ih => rw [ih, follow_of_shortens hstep]
    rw [hsame, follow_of_plain plain]
  · rintro rfl
    exact leadsTo_follow pieces

/-- The pieces of a text, after those of the working directory if the text does not start at the root. -/
def fromRoot (working : Place) (text : String) : List String :=
  if text.toList.head? = some '/' then betweenSlashes text else working ++ betweenSlashes text

/-- Pieces that say nothing make no difference, wherever they stand. -/
theorem follow_filter (before pieces after : List String) :
    follow (before ++ pieces.filter isStep ++ after) = follow (before ++ pieces ++ after) := by
  simp only [follow, List.filter_append, List.filter_filter, Bool.and_self]

theorem foldl_step_eq_follow {working : Place} (hworking : ∀ n ∈ working, IsName n)
    {names : List String} (hnames : ∀ n ∈ names, isStep n = true) :
    names.foldl Path.step working = follow (working ++ names) := by
  have hplain : working.filter isStep = working :=
    List.filter_eq_self.mpr fun n hn => (hworking n hn).isPart.isStep
  have hstart := Path.foldl_step (fun n hn => (hworking n hn).ne_above) []
  rw [follow, List.filter_append, hplain, List.filter_eq_self.mpr hnames, List.foldl_append, hstart,
    List.nil_append]

namespace Path

theorem hasNul_ofString (text : String) :
    (ofString text).hasNul = false ↔ Char.ofNat 0 ∉ text.toList := by
  rw [← exists_mem_names_iff text (by decide) (by decide)]
  simp [hasNul]

theorem follow_fromRoot (working : Place) (text : String) (after : List String) :
    follow ((if (ofString text).isAbsolute then [] else working) ++ (ofString text).names ++ after) =
      follow (fromRoot working text ++ after) := by
  rw [ofString_names, follow_filter, isAbsolute_ofString, fromRoot]
  simp only [beq_iff_eq]
  split <;> rfl

theorem resolve_parts_iff {working : Place} (hworking : ∀ n ∈ working, IsName n) {p : Path}
    (hp : ∀ n ∈ p.names, IsPart n) (place : Place) :
    p.resolve working = .ok place ↔ p.hasNul = false ∧
      LeadsTo ((if p.isAbsolute then [] else working) ++ p.names) place := by
  have hstart : ∀ n ∈ (if p.isAbsolute then [] else working), IsName n := by
    split
    · simp
    · exact hworking
  rw [Tree.resolve_eq_ok, leadsTo_iff, foldl_step_eq_follow hstart fun n hn => (hp n hn).isStep]

/-- A text is resolved to the place that its pieces lead to. -/
theorem resolve_ofString_iff {working : Place} (hworking : ∀ n ∈ working, IsName n) (text : String)
    (place : Place) : (ofString text).resolve working = .ok place ↔
      Char.ofNat 0 ∉ text.toList ∧ LeadsTo (fromRoot working text) place := by
  have hfollow := follow_fromRoot working text []
  rw [List.append_nil, List.append_nil] at hfollow
  rw [resolve_parts_iff hworking (fun n hn => isPart_of_mem_names hn), hasNul_ofString, leadsTo_iff,
    leadsTo_iff, hfollow]

end Path

/-- The home directory that `~`, or `~` and the name of a user, stands for. -/
def Host.homeOf? (host : Host) (user : String) : Option String :=
  if user.isEmpty then some host.home else host.users.lookup user

/-- The pieces, from the root, that a pattern stands for. It counts from the root, from the working
directory, or from the home directory that its first name stands for, which has no wildcards of its own. -/
inductive Host.Stands (host : Host) (pattern : String) : List String → Prop
  | absolute (h : pattern.toList.head? = some '/') : Stands host pattern (betweenSlashes pattern)
  | relative (h : pattern.toList.head? ≠ some '/')
      (own : ∀ first ∈ (Path.ofString pattern).names.head?, first.toList.head? ≠ some '~') :
      Stands host pattern (host.directory ++ betweenSlashes pattern)
  | home {user home : String} {rest : List String} (h : pattern.toList.head? ≠ some '/')
      (first : (Path.ofString pattern).names = ("~" ++ user) :: rest)
      (known : host.homeOf? user = some home) (star : '*' ∉ home.toList)
      (nul : Char.ofNat 0 ∉ home.toList) : Stands host pattern (fromRoot host.directory home ++ rest)

namespace Host

variable {host : Host}

theorem expandHome_of_absolute {p : Path} (h : p.isAbsolute = true) : host.expandHome p = .ok p := by
  obtain ⟨root, names⟩ := p
  cases root with
  | relative => cases h
  | slash | doubleSlash => rfl

theorem expandHome_of_own {p : Path}
    (h : ∀ first ∈ p.names.head?, first.toList.head? ≠ some '~') : host.expandHome p = .ok p := by
  obtain ⟨root, names⟩ := p
  cases names with
  | nil => cases root <;> rfl
  | cons first rest =>
      have hfirst := h first rfl
      cases root with
      | slash | doubleSlash => rfl
      | relative =>
          simp only [expandHome]
          split
          · rename_i user htilde
            exact absurd (by rw [htilde]; rfl) hfirst
          · rfl

theorem expandHome_of_home {p : Path} {user home : String} {rest : List String}
    (h : p.isAbsolute = false) (first : p.names = ("~" ++ user) :: rest)
    (known : host.homeOf? user = some home) :
    host.expandHome p = .ok ⟨(Path.ofString home).root, (Path.ofString home).names ++ rest⟩ := by
  obtain ⟨root, names⟩ := p
  have hempty : user.toList.isEmpty = user.isEmpty := by
    rw [Bool.eq_iff_iff]
    simp
  have hroot : root = .relative := by simpa [Path.isAbsolute] using h
  have hfirst : ("~" ++ user).toList = '~' :: user.toList := by simp
  simp only at first
  subst hroot first
  simp only [homeOf?] at known
  simp only [expandHome, hfirst, hempty, String.ofList_toList, known]

theorem expandHome_cases {p q : Path} (h : host.expandHome p = .ok q) :
    q = p ∨ ∃ first home rest, p.names = first :: rest ∧
      q = ⟨(Path.ofString home).root, (Path.ofString home).names ++ rest⟩ := by
  obtain ⟨root, names⟩ := p
  cases root with
  | slash | doubleSlash => exact .inl (Except.ok.inj h).symm
  | relative =>
      cases names with
      | nil => exact .inl (Except.ok.inj h).symm
      | cons first rest =>
          simp only [expandHome] at h
          split at h
          · split at h
            · exact .inr ⟨first, _, rest, rfl, (Except.ok.inj h).symm⟩
            · cases h
          · exact .inl (Except.ok.inj h).symm

theorem isPart_of_expandHome {text : String} {p : Path}
    (h : host.expandHome (Path.ofString text) = .ok p) : ∀ n ∈ p.names, IsPart n := by
  intro n hn
  obtain rfl | ⟨first, home, rest, hnames, rfl⟩ := expandHome_cases h
  · exact Path.isPart_of_mem_names hn
  · obtain hn | hn := List.mem_append.mp hn
    · exact Path.isPart_of_mem_names hn
    · exact Path.isPart_of_mem_names (s := text) (by simp [hnames, hn])

/-- What a pattern stands for is where it leads to after its home directory has been put in. -/
theorem Stands.exists_expandHome (hworking : ∀ n ∈ host.directory, IsName n) {pattern : String}
    {pieces : List String} (h : host.Stands pattern pieces) (hstar : '*' ∉ pattern.toList)
    (hnul : Char.ofNat 0 ∉ pattern.toList) :
    ∃ p, host.expandHome (Path.ofString pattern) = .ok p ∧ (∀ n ∈ p.names, '*' ∉ n.toList) ∧
      ∀ place, p.resolve host.directory = .ok place ↔ LeadsTo pieces place := by
  have habsent {text : String} {c : Char} (hslash : c ≠ '/') (hpoint : c ≠ '.')
      (hc : c ∉ text.toList) : ∀ n ∈ (Path.ofString text).names, c ∉ n.toList := by
    intro n hn hmem
    exact hc ((Path.exists_mem_names_iff text hslash hpoint).mp ⟨n, hn, hmem⟩)
  have hstars := habsent (by decide) (by decide) hstar
  have hnuls := habsent (by decide) (by decide) hnul
  cases h with
  | absolute habsolute =>
      refine ⟨_, expandHome_of_absolute ?_, hstars, fun place => ?_⟩
      · rw [isAbsolute_ofString, habsolute, beq_self_eq_true]
      · rw [Path.resolve_ofString_iff hworking, fromRoot, if_pos habsolute]
        simp only [hnul, not_false_eq_true, true_and]
  | relative hrelative own =>
      refine ⟨_, expandHome_of_own own, hstars, fun place => ?_⟩
      rw [Path.resolve_ofString_iff hworking, fromRoot, if_neg hrelative]
      simp only [hnul, not_false_eq_true, true_and]
  | @home user home rest hrelative first known star nul =>
      have hexpanded := expandHome_of_home (by simpa [isAbsolute_ofString] using hrelative) first known
      have hrest : ∀ n ∈ rest, n ∈ (Path.ofString pattern).names := by
        intro n hn
        simp [first, hn]
      have hhome := habsent (by decide) (by decide) star
      have hnulhome := habsent (by decide) (by decide) nul
      refine ⟨_, hexpanded, ?_, fun place => ?_⟩
      · intro n hn
        obtain hn | hn := List.mem_append.mp hn
        · exact hhome n hn
        · exact hstars n (hrest n hn)
      · have hnul' :
            Path.hasNul ⟨(Path.ofString home).root, (Path.ofString home).names ++ rest⟩ = false := by
          simp only [Path.hasNul, List.any_append, Bool.or_eq_false_iff, List.any_eq_false,
            List.contains_eq_mem, decide_eq_true_eq]
          exact ⟨hnulhome, fun n hn => hnuls n (hrest n hn)⟩
        have hfollow := Path.follow_fromRoot host.directory home rest
        rw [List.append_assoc] at hfollow
        rw [Path.resolve_parts_iff hworking (isPart_of_expandHome hexpanded), hnul', leadsTo_iff,
          leadsTo_iff, ← hfollow]
        exact and_iff_right rfl

end Host

end Files
end SvgDiagram
