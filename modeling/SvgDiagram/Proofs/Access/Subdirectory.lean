import SvgDiagram.Proofs.Access.Cover
import SvgDiagram.Proofs.Files.Spelling

/-!
A permission extends to every directory below the one that it was given for. No question about an entry
depends on the file but through its directory, and none that has an answer loses it, or turns from yes to
no, when the directory gets deeper. So the entries before the one that admits the file still have answers,
and either one of them has become a yes or the same entry is reached again.
-/

namespace SvgDiagram
namespace Access

open Files (Place Path Host IsName)

/-- Where the first question has an answer the second has one too, and keeps a yes. -/
def Extends (x y : Except Fault Bool) : Prop :=
  ∀ b, x = .ok b → ∃ b', y = .ok b' ∧ (b = true → b' = true)

theorem Extends.refl (x : Except Fault Bool) : Extends x x :=
  fun b h => ⟨b, h, id⟩

theorem Extends.bind {α : Type} (x : Except Fault α) {f g : α → Except Fault Bool}
    (h : ∀ a, Extends (f a) (g a)) : Extends (x >>= f) (x >>= g) := by
  cases x with
  | error e => exact .refl _
  | ok a => exact h a

section
variable {accepts : String → String → Bool} {place deeper : Place}

theorem matchParts_below {pattern directory below : List String} (h : directory <+: below)
    (hm : matchParts accepts pattern directory = true) :
    matchParts accepts pattern below = true := by
  obtain ⟨lead, hl, hg⟩ := (matchParts_iff accepts pattern directory).mp hm
  exact (matchParts_iff accepts pattern below).mpr ⟨lead, hl.trans h, hg⟩

theorem isPrefixOf_below {lead directory below : List String} (h : directory <+: below)
    (hl : lead.isPrefixOf directory = true) : lead.isPrefixOf below = true := by
  rw [List.isPrefixOf_iff_prefix] at hl ⊢
  exact hl.trans h

theorem extends_admitsBy (hd : place.dropLast <+: deeper.dropLast) (working : Place)
    (pattern : String) :
    Extends (admitsBy accepts working (Path.ofPlace place) pattern)
      (admitsBy accepts working (Path.ofPlace deeper) pattern) := by
  have hc : (Path.ofPlace place).parent.components <+: (Path.ofPlace deeper).parent.components :=
    List.cons_prefix_cons.mpr ⟨rfl, hd⟩
  simp only [admitsBy]
  split
  · intro b hb
    cases hb
    exact ⟨_, rfl, matchParts_below hc⟩
  · -- The directory that a plain pattern names does not depend on the file.
    apply Extends.bind
    intro named b hb
    cases hb
    exact ⟨_, rfl, isPrefixOf_below hc⟩

theorem extends_entryAdmits (hd : place.dropLast <+: deeper.dropLast) (host : Host)
    (kind : String) (entry : Value) :
    Extends (entryAdmits accepts host place kind entry)
      (entryAdmits accepts host deeper kind entry) := by
  apply Extends.bind
  intro pattern
  apply Extends.bind
  intro kinds
  apply Extends.bind
  intro held
  cases held with
  | false =>
      simp only [Bool.not_false, ite_true]
      exact .refl _
  | true =>
      simp only [Bool.not_true, Bool.false_eq_true, ite_false]
      apply Extends.bind
      intro path
      apply Extends.bind
      intro expanded
      exact extends_admitsBy hd host.directory expanded.text

theorem someAdmits_below (hd : place.dropLast <+: deeper.dropLast) (host : Host)
    (kind : String) {entries : List Value}
    (h : someAdmits accepts host place kind entries = .ok true) :
    someAdmits accepts host deeper kind entries = .ok true := by
  induction entries with
  | nil => simp [someAdmits] at h
  | cons entry rest ih =>
      simp only [someAdmits, Outcome.bind_eq_ok] at h ⊢
      obtain ⟨admitted, he, h⟩ := h
      obtain ⟨admitted', he', hyes⟩ := extends_entryAdmits hd host kind entry admitted he
      refine ⟨admitted', he', ?_⟩
      cases admitted' with
      | true => rfl
      | false =>
          cases admitted with
          | true => exact absurd (hyes rfl) Bool.false_ne_true
          | false => exact ih h

end

/-- Where a file may be written, every file below its directory may be written too, whatever the shape of
the settings and whichever components the wildcards accept. -/
theorem permitsBy_below (accepts : String → String → Bool) (host : Host) (settings : Value)
    (kind : String) (directory names : List String) (file other : String)
    (hdirectory : ∀ n ∈ directory, IsName n) (hnames : ∀ n ∈ names, IsName n)
    (hfile : IsName file) (hother : IsName other)
    (h : permitsBy accepts host settings (.string (Path.ofPlace (directory ++ [file])).text) kind =
      .ok true) :
    permitsBy accepts host settings
      (.string (Path.ofPlace (directory ++ names ++ [other])).text) kind = .ok true := by
  have hplace : ∀ n ∈ directory ++ [file], IsName n := by
    simpa [or_imp, forall_and] using ⟨hdirectory, hfile⟩
  have hdeeper : ∀ n ∈ directory ++ names ++ [other], IsName n := by
    simpa [or_imp, forall_and] using ⟨hdirectory, hnames, hother⟩
  have hd : (directory ++ [file]).dropLast <+: (directory ++ names ++ [other]).dropLast := by
    simp
  simp only [permitsBy, Path.ofValue, Path.ofString_text_ofPlace hplace,
    Path.ofString_text_ofPlace hdeeper, Path.resolve_ofPlace hplace, Path.resolve_ofPlace hdeeper,
    Outcome.ok_bind, Outcome.bind_eq_ok] at h ⊢
  obtain ⟨output, houtput, entries, hentries, h⟩ := h
  refine ⟨output, houtput, entries, hentries, ?_⟩
  cases hg : entries.isGiven with
  | false => simp [hg] at h
  | true =>
      simp only [hg, Bool.not_true, Bool.false_eq_true, ite_false, Outcome.bind_eq_ok] at h ⊢
      obtain ⟨listed, hlisted, h⟩ := h
      exact ⟨listed, hlisted, someAdmits_below hd host kind h⟩

/-- A plain entry of another kind, then one whose wildcard is deep in its pattern. -/
def deepSettings : Value :=
  .table [(.string "file_output", .table [(.string "allowed", .list [
    .table [(.string "path", .string "~/pictures"), (.string "types", .list [.string "png"])],
    .table [(.string "path", .string "/data/**/out*"), (.string "types", .string "svg, webm")]])])]

theorem deepSettings_permits_below :
    permitsBy accepts ⟨["work"], "/home/ann", []⟩ deepSettings
        (.string (Path.ofPlace (["data", "a", "b", "out1", "x"] ++ ["f.svg"])).text) "svg" =
        .ok true ∧
      permitsBy accepts ⟨["work"], "/home/ann", []⟩ deepSettings
        (.string (Path.ofPlace (["data", "a", "b", "out1", "x"] ++ ["y", "..z"] ++ ["g"])).text)
        "svg" = .ok true := by
  have h : permitsBy accepts ⟨["work"], "/home/ann", []⟩ deepSettings
      (.string (Path.ofPlace (["data", "a", "b", "out1", "x"] ++ ["f.svg"])).text) "svg" =
        .ok true := by
    decide +kernel
  refine ⟨h, ?_⟩
  exact permitsBy_below accepts ⟨["work"], "/home/ann", []⟩ deepSettings "svg"
    ["data", "a", "b", "out1", "x"] ["y", "..z"] "f.svg" "g" (by decide) (by decide) (by decide)
    (by decide) h

end Access
end SvgDiagram
