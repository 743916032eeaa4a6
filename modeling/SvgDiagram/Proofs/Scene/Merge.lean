import SvgDiagram.Proofs.Scene.Expansion
import SvgDiagram.Proofs.Value.Key

/-!
What a use becomes. A definition is looked for among those of the scene and then in the libraries, the last one
first; an element that uses it has, under each key, its own value or else that of the definition. An element asks
for nothing but the definition that it uses.
-/

namespace SvgDiagram
namespace Scene

open Outcome (FailsWith)

/-- Definitions: every one is a table, and no key comes twice, neither among their names nor in one of them. -/
structure IsGlossary (t : Table) : Prop where
  distinct : Table.Distinct t
  tables : ∀ e ∈ t, ∃ d, e.2 = .table d ∧ Table.Distinct d

/-- The definition of a name: that of the scene, or else that of the last library which has one. -/
def definition? (given : Table) (libraries : List Table) (name : Value) : Option Value :=
  (Table.get? given name).or (libraries.reverse.findSome? fun t => Table.get? t name)

/-- What is wrong with an element: what it uses cannot be a name, or has no definition. -/
def elementFault? (known : Value → Option Value) (e : Table) : Option Fault :=
  match Table.field? e "use" with
  | none => none
  | some name =>
    if !name.isKey then some .wrongShape
    else if (known name).isNone then some (.unknownDefinition name.text)
    else none

/-- An element without a use is kept. Any other has, under each key, its own value or else that of the
definition, and its use is not its own. -/
inductive Expanded (known : Value → Option Value) : Table → Table → Prop
  | kept {e : Table} (unused : Table.field? e "use" = none) : Expanded known e e
  | merged {e d t : Table} {name : Value} (uses : Table.field? e "use" = some name)
      (found : known name = some (.table d)) (distinct : Table.Distinct t)
      (values : ∀ key, key.isText "use" = false →
        Table.get? t key = (Table.get? e key).or (Table.get? d key))
      (use : Table.field? t "use" = Table.field? d "use") : Expanded known e t

theorem IsGlossary.exists_table {t : Table} (h : IsGlossary t) {name v : Value}
    (hv : Table.get? t name = some v) : ∃ d, v = .table d ∧ Table.Distinct d := by
  obtain ⟨e, he, -, rfl⟩ := (Table.get?_eq_some_iff h.distinct).mp hv
  exact h.tables e he

theorem exists_table_of_definition? {given : Table} {libraries : List Table} (hgiven : IsGlossary given)
    (hlibraries : ∀ t ∈ libraries, IsGlossary t) {name v : Value}
    (hv : definition? given libraries name = some v) : ∃ d, v = .table d ∧ Table.Distinct d := by
  obtain hv | ⟨-, hv⟩ := Option.or_eq_some_iff.mp hv
  · exact hgiven.exists_table hv
  · obtain ⟨t, ht, hv⟩ := List.exists_of_findSome?_eq_some hv
    exact (hlibraries t (List.mem_reverse.mp ht)).exists_table hv

section

variable {known e : Table}

theorem failsWith_expandElement
    (htables : ∀ name v, Table.get? known name = some v → ∃ d, v = .table d ∧ Table.Distinct d) :
    FailsWith (expandElement known (.table e)) (elementFault? (Table.get? known) e) := by
  simp only [expandElement, elementFault?, Value.holds, Outcome.ok_bind, Table.contains_string]
  cases huse : Table.field? e "use" with
  | none => exact ⟨_, rfl⟩
  | some name =>
      simp only [Value.part, huse, Outcome.ok_bind, Value.lookup?]
      cases name.isKey with
      | false => rfl
      | true =>
          cases hfound : Table.get? known name with
          | none => rfl
          | some v =>
              obtain ⟨d, rfl, -⟩ := htables name v hfound
              exact ⟨_, rfl⟩

theorem get?_own (e : Table) {key : Value} (hkey : key.isText "use" = false) :
    Table.get? (own e) key = Table.get? e key := by
  have hkept : ∀ a b : Value, a.sameKey b = true → (!a.isText "use") = !b.isText "use" := by
    intro a b h
    rw [← Value.sameKey_eq_isText, ← Value.sameKey_eq_isText, Value.sameKey_congr h]
  rw [own, Table.get?_filter hkept, hkey]
  rfl

/-- What an element becomes, whenever it becomes anything. -/
theorem expanded_of_expandElement {v : Value} (he : Table.Distinct e)
    (htables : ∀ name v, Table.get? known name = some v → ∃ d, v = .table d ∧ Table.Distinct d)
    (h : expandElement known (.table e) = .ok v) : ∃ t, v = .table t ∧ Expanded (Table.get? known) e t := by
  obtain ⟨unused, rfl⟩ | ⟨_, name, definition, ⟨⟩, uses, found, hover⟩ := expandElement_eq_ok h
  · refine ⟨e, rfl, .kept ?_⟩
    rwa [uses_table_iff, Option.not_isSome_iff_eq_none] at unused
  · obtain ⟨d, rfl, hd⟩ := htables name definition found
    obtain rfl : .table (Table.update d (own e)) = v := by simpa [override, own] using hover
    refine ⟨_, rfl, .merged uses found (hd.update _) (fun key hkey => ?_) ?_⟩
    · rw [Table.get?_update d (distinct_own he), get?_own e hkey]
    · rw [Table.field?_update d (distinct_own he), field?_own]
      rfl

theorem forall₂_expanded {es : List Table} {vs : List Value} (hes : ∀ e ∈ es, Table.Distinct e)
    (htables : ∀ name v, Table.get? known name = some v → ∃ d, v = .table d ∧ Table.Distinct d)
    (h : List.Forall₂ (fun e v => expandElement known (.table e) = .ok v) es vs) :
    ∃ es' : List Table, vs = es'.map .table ∧ List.Forall₂ (Expanded (Table.get? known)) es es' := by
  induction h with
  | nil => exact ⟨[], rfl, .nil⟩
  | cons hv _ ih =>
      obtain ⟨he, hrest⟩ := List.forall_mem_cons.mp hes
      obtain ⟨t, rfl, ht⟩ := expanded_of_expandElement he htables hv
      obtain ⟨es', rfl, hes'⟩ := ih hrest
      exact ⟨t :: es', rfl, .cons ht hes'⟩

/-- An element asks for nothing but the definition that it uses. -/
theorem expandElement_congr {known' : Table}
    (h : ∀ name, Table.field? e "use" = some name → Table.get? known' name = Table.get? known name) :
    expandElement known' (.table e) = expandElement known (.table e) := by
  simp only [expandElement, Value.holds, Outcome.ok_bind, Table.contains_string]
  cases huse : Table.field? e "use" with
  | none => rfl
  | some name => simp only [Value.part, huse, Outcome.ok_bind, Value.lookup?, h name huse]

theorem mapM_expandElement_congr {known' : Table} {es : List Table}
    (h : ∀ e ∈ es, ∀ name, Table.field? e "use" = some name →
      Table.get? known' name = Table.get? known name) :
    (es.map Value.table).mapM (expandElement known') = (es.map Value.table).mapM (expandElement known) := by
  induction es with
  | nil => rfl
  | cons e es ih =>
      obtain ⟨he, hes⟩ := List.forall_mem_cons.mp h
      rw [List.map_cons, List.mapM_cons, List.mapM_cons, expandElement_congr he, ih hes]

end

section

variable {read : Value → Except Fault Value} {scene known : Table} {es : List Table}

/-- What is left of a scene besides its elements, once it is expanded. -/
def rest (scene : Table) : Table :=
  Table.erase (Table.erase scene (.string "definitions")) (.string "libraries")

theorem erase_setField (t : Table) {name other : String} (h : name ≠ other) (v : Value) :
    Table.erase (Table.setField t name v) (.string other) =
      Table.setField (Table.erase t (.string other)) name v := by
  have hname : (Value.string name).sameKey (.string other) = false := by simp [Value.sameKey, h]
  simp only [Table.setField, Table.erase]
  induction t with
  | nil => simp [Table.set, hname]
  | cons e t ih =>
      rw [Table.set]
      by_cases hkey : e.1.sameKey (.string name) = true
      · have hkept : e.1.sameKey (.string other) = false := by
          rwa [(Value.sameKey_string e.1 name).mp hkey]
        simp [hkey, hkept, Table.set]
      · by_cases hother : e.1.sameKey (.string other) = true
        · simp [hkey, hother, ih]
        · simp [hkey, hother, ih, Table.set]

/-- A scene whose definitions are known is expanded element by element. -/
theorem expand_eq (hknown : definitions read scene = .ok known)
    (helements : (Table.field? scene "elements").getD (.list []) = .list (es.map .table)) :
    expand read (.table scene) = do
      let vs ← (es.map Value.table).mapM (expandElement known)
      return .table (Table.setField (rest scene) "elements" (.list vs)) := by
  simp only [expand, Value.entries, Outcome.ok_bind, hknown, helements, Value.items,
    erase_setField _ (show "elements" ≠ "definitions" by decide),
    erase_setField _ (show "elements" ≠ "libraries" by decide), rest]

end

/-- The names that elements use. -/
def usedNames (es : List Table) : List Value := es.filterMap fun e => Table.field? e "use"

/-- The definitions that elements use. -/
def usedPart (es : List Table) (t : Table) : Table :=
  t.filter fun e => (usedNames es).any fun name => e.1.sameKey name

/-- Two collections of definitions differ, but in nothing that the elements use: the definitions that are used
are the same ones in any order, and so are those of the libraries that have any, library by library. -/
structure SameUsed (es : List Table) (given : Table) (libraries : List Table) (given' : Table)
    (libraries' : List Table) : Prop where
  given : (usedPart es given).Perm (usedPart es given')
  libraries : List.Forall₂ List.Perm ((libraries.map (usedPart es)).filter fun t => !t.isEmpty)
    ((libraries'.map (usedPart es)).filter fun t => !t.isEmpty)

section

variable {es : List Table} {name : Value}

theorem distinct_usedPart {t : Table} (h : Table.Distinct t) : Table.Distinct (usedPart es t) :=
  List.Pairwise.filter _ h

theorem get?_usedPart (hname : name ∈ usedNames es) (t : Table) :
    Table.get? (usedPart es t) name = Table.get? t name := by
  have hkept : ∀ a b : Value, a.sameKey b = true →
      ((usedNames es).any fun name => a.sameKey name) = (usedNames es).any fun name => b.sameKey name := by
    intro a b h
    simp only [Value.sameKey_congr h]
  rw [usedPart, Table.get?_filter hkept]
  -- A name that is not even the same key as itself is used, but is found nowhere.
  cases hself : name.sameKey name with
  | true => rw [if_pos (List.any_eq_true.mpr ⟨name, hname, hself⟩)]
  | false => rw [Table.get?_eq_none_of_sameKey hself, ite_self]

/-- Libraries of which nothing is used do not count. -/
theorem findSome?_libraries (hname : name ∈ usedNames es) (libraries : List Table) :
    libraries.reverse.findSome? (fun t => Table.get? t name) =
      ((libraries.map (usedPart es)).filter fun t => !t.isEmpty).reverse.findSome?
        fun t => Table.get? t name := by
  induction libraries with
  | nil => rfl
  | cons t libraries ih =>
      rw [List.reverse_cons, List.findSome?_append, ih, List.map_cons, List.filter_cons,
        List.findSome?_singleton, ← get?_usedPart hname t]
      by_cases hempty : (usedPart es t).isEmpty = true
      · simp [List.isEmpty_iff.mp hempty, Table.get?]
      · simp [hempty, List.findSome?_append]

theorem findSome?_of_perm {libraries libraries' : List Table} (h : ∀ t ∈ libraries, Table.Distinct t)
    (hperm : List.Forall₂ List.Perm libraries libraries') :
    libraries'.reverse.findSome? (fun t => Table.get? t name) =
      libraries.reverse.findSome? fun t => Table.get? t name := by
  induction hperm with
  | nil => rfl
  | cons hfirst _ ih =>
      obtain ⟨ht, hrest⟩ := List.forall_mem_cons.mp h
      rw [List.reverse_cons, List.reverse_cons, List.findSome?_append, List.findSome?_append, ih hrest]
      simp only [List.findSome?_cons, List.findSome?_nil, Table.get?_perm ht hfirst]

theorem definition?_of_sameUsed {given given' : Table} {libraries libraries' : List Table}
    (hgiven : Table.Distinct given) (hlibraries : ∀ t ∈ libraries, Table.Distinct t)
    (h : SameUsed es given libraries given' libraries') (hname : name ∈ usedNames es) :
    definition? given' libraries' name = definition? given libraries name := by
  rw [definition?, definition?, ← get?_usedPart hname given', ← get?_usedPart hname given,
    Table.get?_perm (distinct_usedPart hgiven) h.given, findSome?_libraries hname libraries',
    findSome?_libraries hname libraries, findSome?_of_perm _ h.libraries]
  intro t ht
  obtain ⟨u, hu, rfl⟩ := List.mem_map.mp (List.mem_filter.mp ht).1
  exact distinct_usedPart (hlibraries u hu)

end

end Scene
end SvgDiagram
