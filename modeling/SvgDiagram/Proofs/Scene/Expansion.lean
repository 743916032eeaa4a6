import Mathlib.Data.List.Forall2
import SvgDiagram.Proofs.Value.Table
import SvgDiagram.Scene.Definition

/-!
What expanding a scene does with uses. Every element of the scene that has a use is replaced, once: a
definition that is itself a use stays one, and what is in a group is copied as it stands, whether the group
comes from the scene or from a definition. So the uses that are left can be told before the expansion.
-/

namespace SvgDiagram
namespace Scene

/-- One element is in another, in its list of elements or deeper. -/
inductive Nested : Value → Value → Prop
  | child {t : Table} {vs : List Value} {e : Value}
      (given : Table.field? t "elements" = some (.list vs)) (h : e ∈ vs) : Nested e (.table t)
  | deeper {t : Table} {vs : List Value} {c e : Value}
      (given : Table.field? t "elements" = some (.list vs)) (h : c ∈ vs) (inner : Nested e c) :
      Nested e (.table t)

/-- An element that has a use. -/
def Uses (v : Value) : Prop := ∃ t name, v = .table t ∧ Table.field? t "use" = some name

/-- No element in a scene or in a group has a use, at any depth. -/
def UseFree (v : Value) : Prop := ∀ e, Nested e v → ¬ Uses e

/-- Whose elements a use gets: it keeps its own, or else takes those of the definition. -/
def provider (t : Table) (definition : Value) : Value :=
  if (Table.field? t "elements").isSome then .table t else definition

/-- An element that one replacement rids of all uses: there are none in it, or it uses a definition that is
no use, and there are none in the elements that it gets. -/
inductive Settles (known : Table) : Value → Prop
  | plain {v : Value} (unused : ¬ Uses v) (inner : UseFree v) : Settles known v
  | used {t : Table} {name definition : Value} (uses : Table.field? t "use" = some name)
      (found : Table.get? known name = some definition) (unused : ¬ Uses definition)
      (inner : UseFree (provider t definition)) : Settles known (.table t)

theorem uses_table_iff (t : Table) :
    Uses (.table t) ↔ (Table.field? t "use").isSome = true := by
  rw [Option.isSome_iff_exists]
  constructor
  · rintro ⟨_, name, ⟨⟩, hname⟩
    exact ⟨name, hname⟩
  · rintro ⟨name, hname⟩
    exact ⟨t, name, rfl, hname⟩

theorem useFree_table_iff (t : Table) :
    UseFree (.table t) ↔ ∀ vs, Table.field? t "elements" = some (.list vs) →
      ∀ v ∈ vs, ¬ Uses v ∧ UseFree v := by
  constructor
  · intro h vs hvs v hv
    exact ⟨h v (.child hvs hv), fun e he => h e (.deeper hvs hv he)⟩
  · intro h e he
    cases he with
    | child given he => exact (h _ given e he).1
    | deeper given hc inner => exact (h _ given _ hc).2 e inner

/-- What is in a group is told by its elements alone. -/
theorem useFree_congr {t u : Table} (h : Table.field? t "elements" = Table.field? u "elements") :
    UseFree (.table t) ↔ UseFree (.table u) := by
  rw [useFree_table_iff, useFree_table_iff, h]

/-- The entries of an element that are set in the copy of a definition. -/
def own (t : Table) : Table := t.filter fun e => !e.1.isText "use"

theorem field?_own (t : Table) (name : String) :
    Table.field? (own t) name = if name = "use" then none else Table.field? t name := by
  rw [own, Table.field?_filter fun key => !key.isText "use"]
  by_cases h : name = "use"
  · simp [h, Value.isText]
  · simp [h, Value.isText]

theorem distinct_own {t : Table} (h : Table.Distinct t) : Table.Distinct (own t) :=
  List.Pairwise.filter _ h

theorem override_eq_ok {definition v : Value} {t : Table} (h : override definition t = .ok v) :
    (∃ d, definition = .table d ∧ v = .table (Table.update d (own t))) ∨ v = definition ∧ own t = [] := by
  cases definition with
  | table d =>
      cases h
      exact .inl ⟨d, rfl, rfl⟩
  | list items | set items =>
      simp only [override] at h
      split at h
      · rename_i hempty
        cases h
        exact .inr ⟨rfl, List.isEmpty_iff.mp hempty⟩
      · cases h
  | _ => cases h

section
variable {t : Table} {definition v : Value}

/-- The copy of a definition is a use exactly if the definition is one. -/
theorem uses_override (hdistinct : Table.Distinct t) (h : override definition t = .ok v) :
    Uses v ↔ Uses definition := by
  obtain ⟨d, rfl, rfl⟩ | ⟨rfl, -⟩ := override_eq_ok h
  · rw [uses_table_iff, uses_table_iff, Table.field?_update d (distinct_own hdistinct), field?_own]
    rfl
  · rfl

theorem useFree_override (hdistinct : Table.Distinct t) (h : override definition t = .ok v) :
    UseFree v ↔ UseFree (provider t definition) := by
  obtain ⟨d, rfl, rfl⟩ | ⟨rfl, hown⟩ := override_eq_ok h
  · have helements : Table.field? (Table.update d (own t)) "elements" =
        (Table.field? t "elements").or (Table.field? d "elements") := by
      rw [Table.field?_update d (distinct_own hdistinct), field?_own]
      rfl
    cases hgiven : Table.field? t "elements" with
    | some elements =>
        simp only [provider, hgiven, Option.isSome_some, ite_true]
        exact useFree_congr (by rw [helements, hgiven]; rfl)
    | none =>
        simp only [provider, hgiven, Option.isSome_none, Bool.false_eq_true, ite_false]
        exact useFree_congr (by rw [helements, hgiven]; rfl)
  · have hlacking : Table.field? t "elements" = none := by
      have hfield := field?_own t "elements"
      rw [hown] at hfield
      exact hfield.symm
    simp [provider, hlacking]

end

theorem settles_iff_of_not_uses {known : Table} {v : Value} (h : ¬ Uses v) :
    Settles known v ↔ UseFree v := by
  constructor
  · rintro (⟨-, inner⟩ | ⟨uses, -, -, -⟩)
    · exact inner
    · exact absurd ⟨_, _, rfl, uses⟩ h
  · exact .plain h

theorem settles_iff_of_use {known t : Table} {name definition : Value}
    (uses : Table.field? t "use" = some name) (found : Table.get? known name = some definition) :
    Settles known (.table t) ↔ ¬ Uses definition ∧ UseFree (provider t definition) := by
  constructor
  · rintro (⟨unused, -⟩ | ⟨uses', found', unused, inner⟩)
    · exact absurd ⟨t, name, rfl, uses⟩ unused
    · cases uses.symm.trans uses'
      cases found.symm.trans found'
      exact ⟨unused, inner⟩
  · rintro ⟨unused, inner⟩
    exact .used uses found unused inner

/-- An element is kept, if it has no use, or becomes a copy of the definition that it uses. -/
theorem expandElement_eq_ok {known : Table} {v v' : Value} (h : expandElement known v = .ok v') :
    (¬ Uses v ∧ v' = v) ∨ ∃ t name definition, v = .table t ∧ Table.field? t "use" = some name ∧
      Table.get? known name = some definition ∧ override definition t = .ok v' := by
  simp only [expandElement, Outcome.bind_eq_ok] at h
  obtain ⟨held, hheld, h⟩ := h
  cases held with
  | false =>
      cases h
      refine .inl ⟨?_, rfl⟩
      rintro ⟨t, name, rfl, hname⟩
      simp [Value.holds, Table.contains_string, hname] at hheld
  | true =>
      simp only [Bool.not_true, Bool.false_eq_true, ite_false, Outcome.bind_eq_ok,
        Value.part_eq_ok] at h
      obtain ⟨name, ⟨t, rfl, hname⟩, found, hfound, h⟩ := h
      simp only [Value.lookup?] at hfound
      split at hfound
      · cases hfound
        cases hget : Table.get? known name with
        | none => simp [hget] at h
        | some definition =>
            simp only [hget, Value.entries, Outcome.ok_bind] at h
            exact .inr ⟨t, name, definition, rfl, hname, hget, h⟩
      · cases hfound

/-- What is left of the uses in an element after it has been replaced. -/
theorem settles_iff_of_expandElement {known : Table} {v v' : Value}
    (hdistinct : ∀ t, v = .table t → Table.Distinct t) (h : expandElement known v = .ok v') :
    ¬ Uses v' ∧ UseFree v' ↔ Settles known v := by
  obtain ⟨unused, rfl⟩ | ⟨t, name, definition, rfl, uses, found, hover⟩ := expandElement_eq_ok h
  · rw [settles_iff_of_not_uses unused]
    exact and_iff_right unused
  · rw [settles_iff_of_use uses found, uses_override (hdistinct t rfl) hover,
      useFree_override (hdistinct t rfl) hover]

theorem expand_eq_ok {read : Value → Except Fault Value} {scene result : Value} :
    expand read scene = .ok result ↔ ∃ entries known vs vs', scene = .table entries ∧
      definitions read entries = .ok known ∧
      ((Table.field? entries "elements").getD (.list [])).items = .ok vs ∧
      vs.mapM (expandElement known) = .ok vs' ∧
      result = .table (Table.erase (Table.erase (Table.setField entries "elements" (.list vs'))
        (.string "definitions")) (.string "libraries")) := by
  simp only [expand, Outcome.bind_eq_ok, Outcome.pure_eq_ok, Except.ok.injEq]
  constructor
  · rintro ⟨entries, hentries, known, hknown, vs, hvs, vs', hvs', rfl⟩
    exact ⟨entries, known, vs, vs', Value.eq_table_of_entries hentries, hknown, hvs, hvs', rfl⟩
  · rintro ⟨entries, known, vs, vs', rfl, hknown, hvs, hvs', rfl⟩
    exact ⟨entries, rfl, known, hknown, vs, hvs, vs', hvs', rfl⟩

section
variable {read read' : Value → Except Fault Value}

theorem addLibraries_of_reads (hreads : ∀ path v, read path = .ok v → read' path = .ok v)
    {paths : List Value} {t u : Table} (h : addLibraries read t paths = .ok u) :
    addLibraries read' t paths = .ok u := by
  induction paths generalizing t with
  | nil => exact h
  | cons path rest ih =>
      simp only [addLibraries, Outcome.bind_eq_ok] at h ⊢
      obtain ⟨v, hv, next, hnext, h⟩ := h
      exact ⟨v, hreads path v hv, next, hnext, ih h⟩

/-- A scene expands alike wherever the same libraries, and perhaps others, can be read. -/
theorem expand_of_reads (hreads : ∀ path v, read path = .ok v → read' path = .ok v)
    {scene result : Value} (h : expand read scene = .ok result) :
    expand read' scene = .ok result := by
  obtain ⟨entries, known, vs, vs', hscene, hknown, h⟩ := expand_eq_ok.mp h
  refine expand_eq_ok.mpr ⟨entries, known, vs, vs', hscene, ?_, h⟩
  simp only [definitions, Outcome.bind_eq_ok] at hknown ⊢
  obtain ⟨libraries, hlibraries, t, ht, hknown⟩ := hknown
  exact ⟨libraries, hlibraries, t, addLibraries_of_reads hreads ht, hknown⟩

end

/-- An expanded scene is free of uses exactly if one replacement rids each of its elements of them: a use
of a use is left, and so is every use in a group, unless an element that uses the group gives it others. -/
theorem useFree_expand_iff {read : Value → Except Fault Value} {entries known : Table}
    {vs : List Value} {result : Value} (hknown : definitions read entries = .ok known)
    (hvs : ((Table.field? entries "elements").getD (.list [])).items = .ok vs)
    (hdistinct : ∀ t, Value.table t ∈ vs → Table.Distinct t)
    (h : expand read (.table entries) = .ok result) :
    UseFree result ↔ ∀ v ∈ vs, Settles known v := by
  obtain ⟨_, _, _, vs', ⟨⟩, hknown', hvs', hexpanded, rfl⟩ := expand_eq_ok.mp h
  cases hknown.symm.trans hknown'
  cases hvs.symm.trans hvs'
  have hresult : UseFree (.table (Table.erase (Table.erase (Table.setField entries "elements"
      (.list vs')) (.string "definitions")) (.string "libraries"))) ↔
      ∀ v' ∈ vs', ¬ Uses v' ∧ UseFree v' := by
    rw [useFree_table_iff]
    simp [Table.field?_erase, Table.field?_setField]
  rw [hresult]
  refine Outcome.forall_mem_iff (Outcome.forall₂_of_mapM hexpanded) fun v hv v' hv' => ?_
  refine settles_iff_of_expandElement ?_ hv'
  rintro t rfl
  exact hdistinct t hv

/-- For scenes without libraries. -/
def noLibrary (_ : Value) : Except Fault Value := .error .fileNotFound

def dot : Value := .table [(.string "type", .string "circle"), (.string "r", .int 3)]

def useOf (name : String) : Value := .table [(.string "use", .string name)]

def groupOf (elements : List Value) : Value :=
  .table [(.string "type", .string "group"), (.string "elements", .list elements)]

def withDefinitions (known : Table) (elements : List Value) : Table :=
  [(.string "definitions", .table known), (.string "elements", .list elements)]

/-- A group of uses, used by an element that gives it other elements. -/
def regrouped : Table :=
  [(.string "use", .string "pair"), (.string "elements", .list [dot, groupOf [dot]])]

def regroupedScene : Table :=
  withDefinitions [(.string "pair", groupOf [useOf "dot", useOf "dot"])] [.table regrouped, dot]

theorem regroupedScene_useFree :
    ∃ known vs result, definitions noLibrary regroupedScene = .ok known ∧
      ((Table.field? regroupedScene "elements").getD (.list [])).items = .ok vs ∧
      (∀ t, Value.table t ∈ vs → Table.Distinct t) ∧
      expand noLibrary (.table regroupedScene) = .ok result ∧
      (∀ v ∈ vs, Settles known v) ∧ UseFree result := by
  have hdistinct : ∀ t, Value.table t ∈ [Value.table regrouped, dot] → Table.Distinct t := by
    intro t ht
    simp only [dot, List.mem_cons, Value.table.injEq, List.not_mem_nil, or_false] at ht
    obtain rfl | rfl := ht
    · decide
    · decide
  have hdot : ¬ Uses dot ∧ UseFree dot :=
    ⟨by rw [dot, uses_table_iff]; decide, by rw [dot, useFree_table_iff]; rintro vs ⟨⟩⟩
  have hgroup : ¬ Uses (groupOf [dot]) ∧ UseFree (groupOf [dot]) := by
    refine ⟨by rw [groupOf, uses_table_iff]; decide, (useFree_table_iff _).mpr ?_⟩
    rintro vs ⟨⟩ v hv
    rwa [List.mem_singleton.mp hv]
  have hregrouped : UseFree (.table regrouped) := by
    rw [useFree_table_iff]
    rintro vs ⟨⟩
    simpa using ⟨hdot, hgroup⟩
  have hpair : ¬ Uses (groupOf [useOf "dot", useOf "dot"]) := by
    rw [groupOf, uses_table_iff]
    decide
  have hsettles : ∀ v ∈ [Value.table regrouped, dot],
      Settles [(.string "pair", groupOf [useOf "dot", useOf "dot"])] v := by
    simpa using ⟨.used rfl rfl hpair hregrouped, .plain hdot.1 hdot.2⟩
  obtain ⟨result, hresult⟩ : ∃ result, expand noLibrary (.table regroupedScene) = .ok result :=
    ⟨_, rfl⟩
  refine ⟨_, _, result, rfl, rfl, hdistinct, hresult, hsettles, ?_⟩
  exact (useFree_expand_iff rfl rfl hdistinct hresult).mpr hsettles

/-- A scene is expanded, and has a use all the same. -/
def LeavesUses (scene : Table) : Prop :=
  ∃ result, expand noLibrary (.table scene) = .ok result ∧ ¬ UseFree result

/-- Uses are left of a definition that is a use, in a group of the scene, and in a group that is a
definition. -/
theorem expansion_leaves_uses :
    LeavesUses (withDefinitions [(.string "dot", dot), (.string "spot", useOf "dot")] [useOf "spot"]) ∧
    LeavesUses (withDefinitions [(.string "dot", dot)] [groupOf [useOf "dot"]]) ∧
    LeavesUses (withDefinitions [(.string "dot", dot), (.string "pair", groupOf [useOf "dot"])]
      [useOf "pair"]) := by
  have hused (name : String) : Uses (useOf name) := ⟨_, _, rfl, rfl⟩
  refine ⟨⟨_, rfl, fun h => ?_⟩, ⟨_, rfl, fun h => ?_⟩, ⟨_, rfl, fun h => ?_⟩⟩
  · exact h (useOf "dot") (.child rfl (List.mem_singleton.mpr rfl)) (hused _)
  · refine h (useOf "dot") (.deeper rfl (List.mem_singleton.mpr rfl) ?_) (hused _)
    exact .child rfl (List.mem_singleton.mpr rfl)
  · refine h (useOf "dot") (.deeper rfl (List.mem_singleton.mpr rfl) ?_) (hused _)
    exact .child rfl (List.mem_singleton.mpr rfl)

end Scene
end SvgDiagram
