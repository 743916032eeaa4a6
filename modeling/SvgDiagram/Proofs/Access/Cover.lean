import SvgDiagram.Access.Settings
import SvgDiagram.Proofs.Files.Lookup
import SvgDiagram.Proofs.Value.Table

/-!
Which directories the settings cover. A pattern is given its meaning by a relation between its components
and those of a directory; the matcher decides it. A directory below a covered one is covered too, which is
what lets a file be put one level below the place that was asked about.
-/

namespace SvgDiagram
namespace Access

open Files (Place Path Host)

theorem mem_suffixes {α : Type} (xs ys : List α) : ys ∈ suffixes xs ↔ ys <:+ xs := by
  induction xs with
  | nil => simp [suffixes]
  | cons x xs ih => simp only [suffixes, List.mem_cons, ih, List.suffix_cons_iff]

/-- The components of a pattern match all components of a directory. -/
inductive Glob (accepts : String → String → Bool) : List String → List String → Prop
  | nil : Glob accepts [] []
  | deep {rest below : List String} (skipped : List String) (h : Glob accepts rest below) :
      Glob accepts ("**" :: rest) (skipped ++ below)
  | wildcard {part component : String} {rest below : List String} (deep : part ≠ "**")
      (wild : isWildcard part = true) (accepted : accepts part component = true)
      (h : Glob accepts rest below) : Glob accepts (part :: rest) (component :: below)
  | name {part : String} {rest below : List String} (wild : isWildcard part = false)
      (h : Glob accepts rest below) : Glob accepts (part :: rest) (part :: below)

theorem isWildcard_deep : isWildcard "**" = true := by decide

theorem Glob.of_fits {accepts : String → String → Bool} {part component : String}
    {rest below : List String} (deep : part ≠ "**") (h : fits accepts part component = true)
    (hr : Glob accepts rest below) : Glob accepts (part :: rest) (component :: below) := by
  cases hw : isWildcard part with
  | true => exact .wildcard deep hw (by simpa [fits, hw] using h) hr
  | false =>
      have he : component = part := by simpa [fits, hw] using h
      subst he
      exact .name hw hr

theorem Glob.deep_inv {accepts : String → String → Bool} {rest directory : List String}
    (h : Glob accepts ("**" :: rest) directory) :
    ∃ skipped below, directory = skipped ++ below ∧ Glob accepts rest below := by
  cases h with
  | deep skipped h => exact ⟨skipped, _, rfl, h⟩
  | wildcard deep _ _ _ => exact absurd rfl deep
  | name wild _ => exact absurd isWildcard_deep (by simp [wild])

theorem Glob.part_inv {accepts : String → String → Bool} {part : String}
    {rest directory : List String} (deep : part ≠ "**")
    (h : Glob accepts (part :: rest) directory) :
    ∃ component below, directory = component :: below ∧ fits accepts part component = true ∧
      Glob accepts rest below := by
  cases h with
  | deep _ _ => exact absurd rfl deep
  | wildcard _ wild accepted h => exact ⟨_, _, rfl, by simp [fits, wild, accepted], h⟩
  | name wild h => exact ⟨_, _, rfl, by simp [fits, wild], h⟩

/-- The matcher looks for leading components of the directory that the whole pattern matches. -/
theorem matchParts_iff (accepts : String → String → Bool) (pattern directory : List String) :
    matchParts accepts pattern directory = true ↔
      ∃ lead, lead <+: directory ∧ Glob accepts pattern lead := by
  induction pattern generalizing directory with
  | nil => exact ⟨fun _ => ⟨[], List.nil_prefix, .nil⟩, fun _ => by simp [matchParts]⟩
  | cons part rest ih =>
      by_cases deep : part = "**"
      -- What is left after skipping components is a suffix, and the lead may end anywhere in it.
      · subst deep
        simp only [matchParts, beq_self_eq_true, ite_true, List.any_eq_true, mem_suffixes, ih]
        constructor
        · rintro ⟨below, ⟨skipped, rfl⟩, lead, hl, hg⟩
          exact ⟨skipped ++ lead, List.prefix_append_right_inj skipped |>.mpr hl, .deep skipped hg⟩
        · rintro ⟨lead, ⟨after, rfl⟩, hg⟩
          obtain ⟨skipped, below, rfl, hb⟩ := hg.deep_inv
          exact ⟨below ++ after, ⟨skipped, (List.append_assoc ..).symm⟩, below,
            List.prefix_append below after, hb⟩
      · cases directory with
        | nil =>
            simp only [matchParts, beq_iff_eq, deep, ite_false, Bool.false_eq_true, false_iff]
            rintro ⟨lead, hl, hg⟩
            obtain ⟨_, _, rfl, _⟩ := hg.part_inv deep
            exact absurd (List.prefix_nil.mp hl) (by simp)
        | cons component below =>
            simp only [matchParts, beq_iff_eq, deep, ite_false, Bool.and_eq_true, ih]
            constructor
            · rintro ⟨hf, lead, hl, hg⟩
              exact ⟨component :: lead, List.cons_prefix_cons.mpr ⟨rfl, hl⟩, .of_fits deep hf hg⟩
            · rintro ⟨lead, hl, hg⟩
              obtain ⟨c, lead, rfl, hf, hb⟩ := hg.part_inv deep
              obtain ⟨rfl, hb'⟩ := List.cons_prefix_cons.mp hl
              exact ⟨hf, lead, hb', hb⟩

/-- A pattern covers a directory, seen from a working directory: one without `*` is a directory that the
other is in, one with `*` matches some directory that the other is in. -/
inductive Covers (working : Place) (pattern : String) (directory : Place) : Prop
  | plain {place : Place} (star : '*' ∉ pattern.toList)
      (resolved : (Path.ofString pattern).resolve working = .ok place) (h : place <+: directory)
  | glob {lead : List String} (star : '*' ∈ pattern.toList) (h : lead <+: "/" :: directory)
      (matched : Glob accepts (Path.ofString pattern).components lead)

theorem Covers.below {working directory deeper : Place} {pattern : String}
    (h : Covers working pattern directory) (hd : directory <+: deeper) :
    Covers working pattern deeper := by
  cases h with
  | plain star resolved h => exact .plain star resolved (h.trans hd)
  | glob star h matched =>
      exact .glob star (h.trans (List.cons_prefix_cons.mpr ⟨rfl, hd⟩)) matched

/-- The question that is put about a file is whether its directory is covered. -/
theorem admits_iff (working place : Place) (pattern : String) :
    admits working (Path.ofPlace place) pattern = .ok true ↔
      Covers working pattern place.dropLast := by
  have holder : (Path.ofPlace place).parent.components = "/" :: place.dropLast := rfl
  have whole (p : Place) : (Path.ofPlace p).components = "/" :: p := rfl
  simp only [admits, admitsBy, holder, whole, List.contains_eq_mem, decide_eq_true_eq]
  by_cases star : '*' ∈ pattern.toList
  · simp only [star, ite_true, Outcome.pure_eq_ok, Except.ok.injEq, matchParts_iff]
    constructor
    · rintro ⟨lead, h, matched⟩
      exact .glob star h matched
    · rintro (⟨star', _, _⟩ | ⟨_, h, matched⟩)
      · exact absurd star star'
      · exact ⟨_, h, matched⟩
  · simp only [star, ite_false, Outcome.bind_eq_ok, Outcome.pure_eq_ok, Except.ok.injEq,
      List.isPrefixOf_iff_prefix, List.cons_prefix_cons, true_and]
    constructor
    · rintro ⟨p, resolved, h⟩
      exact .plain star resolved h
    · rintro (⟨_, resolved, h⟩ | ⟨star', _, _⟩)
      · exact ⟨_, resolved, h⟩
      · exact absurd star' star

/-- An entry of the settings lets files of a kind be put into a directory. -/
inductive EntryCovers (host : Host) (kind : String) (directory : Place) : Value → Prop
  | intro {t : Table} {text : String} {path : Path}
      (named : Table.field? t "path" = some (.string text))
      (kinds : ((Table.field? t "types").getD (.list [])).holds kind = .ok true)
      (expanded : host.expandHome (Path.ofString text) = .ok path)
      (covers : Covers host.directory path.text directory) :
      EntryCovers host kind directory (.table t)

theorem EntryCovers.below {host : Host} {kind : String} {directory deeper : Place} {entry : Value}
    (h : EntryCovers host kind directory entry) (hd : directory <+: deeper) :
    EntryCovers host kind deeper entry := by
  cases h with
  | intro named kinds expanded covers => exact .intro named kinds expanded (covers.below hd)

theorem entryAdmits_iff (host : Host) (place : Place) (kind : String) (entry : Value) :
    entryAdmits accepts host place kind entry = .ok true ↔
      EntryCovers host kind place.dropLast entry := by
  simp only [entryAdmits, Outcome.bind_eq_ok, Value.part_eq_ok, Value.part?, Outcome.pure_eq_ok,
    Except.ok.injEq]
  constructor
  · rintro ⟨pattern, ⟨t, rfl, named⟩, _, ⟨u, hu, rfl⟩, held, kinds, h⟩
    cases hu
    cases held with
    | false => simp at h
    | true =>
        simp only [Bool.not_true, Bool.false_eq_true, ite_false, Outcome.bind_eq_ok,
          Path.ofValue_eq_ok] at h
        obtain ⟨_, ⟨text, rfl, rfl⟩, path, expanded, h⟩ := h
        exact .intro named kinds expanded ((admits_iff _ _ _).mp h)
  · rintro ⟨named, kinds, expanded, covers⟩
    refine ⟨_, ⟨_, rfl, named⟩, _, ⟨_, rfl, rfl⟩, true, kinds, ?_⟩
    simp only [Bool.not_true, Bool.false_eq_true, ite_false, Path.ofValue, Outcome.ok_bind,
      expanded]
    exact (admits_iff _ _ _).mpr covers

/-- The entries are asked in order, up to the first that admits the file. -/
theorem someAdmits_iff (host : Host) (place : Place) (kind : String) (entries : List Value) :
    someAdmits accepts host place kind entries = .ok true ↔
      ∃ earlier entry later, entries = earlier ++ entry :: later ∧
        (∀ e ∈ earlier, entryAdmits accepts host place kind e = .ok false) ∧
        EntryCovers host kind place.dropLast entry := by
  induction entries with
  | nil => simp [someAdmits]
  | cons e rest ih =>
      simp only [someAdmits, Outcome.bind_eq_ok, ← entryAdmits_iff] at ih ⊢
      constructor
      · rintro ⟨admitted, he, h⟩
        cases admitted with
        | true => exact ⟨[], e, rest, rfl, by simp, he⟩
        | false =>
            obtain ⟨earlier, entry, later, rfl, hf, ht⟩ := ih.mp (by simpa using h)
            exact ⟨e :: earlier, entry, later, rfl, by simpa using ⟨he, hf⟩, ht⟩
      · rintro ⟨earlier, entry, later, hs, hf, ht⟩
        cases earlier with
        | nil =>
            obtain ⟨rfl, rfl⟩ := List.cons.inj hs
            exact ⟨true, ht, rfl⟩
        | cons e' earlier =>
            obtain ⟨rfl, rfl⟩ := List.cons.inj hs
            have hr := ih.mpr ⟨earlier, entry, later, rfl, fun x hx => hf x (by simp [hx]), ht⟩
            exact ⟨false, hf e (by simp), hr⟩

/-- An entry that lists the kind of a file asks its pattern, once the home directory is put in. -/
theorem entryAdmits_of_kinds {host : Host} {kind text : String} {t : Table} {p : Path} {listed : Bool}
    (named : Table.field? t "path" = some (.string text))
    (kinds : ((Table.field? t "types").getD (.list [])).holds kind = .ok listed)
    (expanded : host.expandHome (Path.ofString text) = .ok p) (place : Place) :
    entryAdmits accepts host place kind (.table t) =
      if listed then admits host.directory (Path.ofPlace place) p.text else .ok false := by
  have hnamed := Value.part_eq_ok.mpr ⟨t, rfl, named⟩
  simp only [entryAdmits, hnamed, Value.part?, Value.entries, Outcome.ok_bind, Outcome.pure_eq_ok, kinds]
  cases listed with
  | false => rfl
  | true =>
      simp only [Bool.not_true, Bool.false_eq_true, ite_false, ite_true, Path.ofValue, Outcome.ok_bind,
        expanded]
      rfl

theorem someAdmits_singleton (host : Host) (place : Place) (kind : String) (entry : Value) :
    someAdmits accepts host place kind [entry] = entryAdmits accepts host place kind entry := by
  simp only [someAdmits]
  cases entryAdmits accepts host place kind entry with
  | error f => rfl
  | ok admitted => cases admitted <;> rfl

def sequence? : Value → Option (List Value)
  | .list vs => some vs
  | .pair a b => some [a, b]
  | _ => none

/-- Settings that list entries ask them about the place that the path resolves to. -/
theorem permits_of_entries {host : Host} {settings output allowed : Value} {entries : List Value}
    (houtput : settings.part "file_output" = .ok output)
    (hallowed : output.part "allowed" = .ok allowed) (hentries : sequence? allowed = some entries)
    (path : Value) (kind : String) :
    permits host settings path kind =
      if entries.isEmpty then .ok false
      else Path.ofValue path >>= fun p => p.resolve host.directory >>= fun place =>
        someAdmits accepts host place kind entries := by
  have hsequence : allowed.isGiven = !entries.isEmpty ∧ allowed.items = .ok entries := by
    cases allowed with
    | list vs | pair a b =>
        cases hentries
        exact ⟨rfl, rfl⟩
    | _ => cases hentries
  simp only [permits, permitsBy, houtput, hallowed, Outcome.ok_bind, hsequence, Bool.not_not]
  rfl

/-- Some entry of the settings lets files of a kind be put into a directory. -/
def Allows (host : Host) (settings : Value) (kind : String) (directory : Place) : Prop :=
  ∃ output entries listed, settings.part "file_output" = .ok output ∧
    output.part "allowed" = .ok entries ∧ entries.items = .ok listed ∧
    ∃ entry ∈ listed, EntryCovers host kind directory entry

theorem Allows.below {host : Host} {settings : Value} {kind : String} {directory deeper : Place}
    (h : Allows host settings kind directory) (hd : directory <+: deeper) :
    Allows host settings kind deeper := by
  obtain ⟨output, entries, listed, ho, he, hl, entry, hm, h⟩ := h
  exact ⟨output, entries, listed, ho, he, hl, entry, hm, h.below hd⟩

/-- A permission that is given is about the place that the path leads to lexically. -/
theorem allows_of_permits {host : Host} {settings path : Value} {kind : String}
    (h : permits host settings path kind = .ok true) :
    ∃ text place, path = .string text ∧ (Path.ofString text).resolve host.directory = .ok place ∧
      Allows host settings kind place.dropLast := by
  simp only [permits, permitsBy, Outcome.bind_eq_ok] at h
  obtain ⟨output, ho, entries, he, h⟩ := h
  cases hg : entries.isGiven with
  | false => simp [hg] at h
  | true =>
      simp only [hg, Bool.not_true, Bool.false_eq_true, ite_false, Outcome.bind_eq_ok,
        Path.ofValue_eq_ok] at h
      obtain ⟨_, ⟨text, rfl, rfl⟩, place, hp, listed, hl, h⟩ := h
      obtain ⟨earlier, entry, later, rfl, _, hc⟩ := (someAdmits_iff _ _ _ _).mp h
      exact ⟨text, place, rfl, hp, output, entries, _, ho, he, hl, entry, by simp, hc⟩

end Access
end SvgDiagram
