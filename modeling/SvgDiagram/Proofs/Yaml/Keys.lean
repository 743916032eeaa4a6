import SvgDiagram.Proofs.Value.Table
import SvgDiagram.Yaml.Document

/-!
Keys of what a document stands for. No table and no set in it has a list, a set or a table as a key, at any
depth, however its entries were put together: written out, taken in from other mappings, or both.
-/

namespace SvgDiagram

/-- Every key in the value may be one. -/
inductive Value.Keyed : Value → Prop
  | plain {v : Value} (h : v.isKey = true) : Keyed v
  | list {vs : List Value} (items : ∀ v ∈ vs, Keyed v) : Keyed (.list vs)
  | pair {a b : Value} (first : Keyed a) (second : Keyed b) : Keyed (.pair a b)
  | set {vs : List Value} (items : ∀ v ∈ vs, v.isKey = true) : Keyed (.set vs)
  | table {t : Table} (keys : ∀ e ∈ t, e.1.isKey = true) (values : ∀ e ∈ t, Keyed e.2) :
      Keyed (.table t)

/-- Every key of the table, and every key in its values, may be one. -/
def Table.Keyed (t : Table) : Prop := ∀ e ∈ t, e.1.isKey = true ∧ e.2.Keyed

theorem Value.keyed_table_iff {t : Table} : (Value.table t).Keyed ↔ Table.Keyed t := by
  constructor
  · intro h e he
    cases h with
    | plain h => cases h
    | table keys values => exact ⟨keys e he, values e he⟩
  · intro h
    exact .table (fun e he => (h e he).1) fun e he => (h e he).2

namespace Table

theorem keyed_nil : Table.Keyed [] := by simp [Keyed]

theorem Keyed.field? {t : Table} (h : Table.Keyed t) {name : String} {v : Value}
    (hv : Table.field? t name = some v) : v.Keyed := by
  obtain ⟨e, he, rfl⟩ := Option.map_eq_some_iff.mp hv
  exact (h e (List.mem_of_find?_eq_some he)).2

theorem Keyed.append {t u : Table} (ht : Table.Keyed t) (hu : Table.Keyed u) :
    Table.Keyed (t ++ u) := by
  intro e he
  obtain he | he := List.mem_append.mp he
  · exact ht e he
  · exact hu e he

theorem Keyed.set {t : Table} (h : Table.Keyed t) {key v : Value} (hkey : key.isKey = true)
    (hv : v.Keyed) : Table.Keyed (Table.set key v t) := by
  induction t with
  | nil =>
      intro e he
      rw [Table.set, List.mem_singleton] at he
      rw [he]
      exact ⟨hkey, hv⟩
  | cons u t ih =>
      have hfirst := h u List.mem_cons_self
      have hrest : Table.Keyed t := fun e he => h e (List.mem_cons_of_mem _ he)
      intro e he
      rw [Table.set] at he
      split at he
      · obtain rfl | he := List.mem_cons.mp he
        · exact ⟨hfirst.1, hv⟩
        · exact hrest e he
      · obtain rfl | he := List.mem_cons.mp he
        · exact hfirst
        · exact ih hrest e he

theorem Keyed.update {t u : Table} (ht : Table.Keyed t) (hu : Table.Keyed u) :
    Table.Keyed (Table.update t u) := by
  induction u generalizing t with
  | nil => exact ht
  | cons e u ih =>
      have hfirst := hu e List.mem_cons_self
      exact ih (ht.set hfirst.1 hfirst.2) fun e he => hu e (List.mem_cons_of_mem _ he)

end Table

namespace Yaml

theorem isKey_scalarValue {kind : Kind} {text : String} {v : Value}
    (h : scalarValue kind text = .ok v) : v.isKey = true := by
  cases kind with
  | null | text =>
      cases h
      rfl
  | bool =>
      simp only [scalarValue, boolOf] at h
      split at h
      · cases h
        rfl
      · split at h
        · cases h
          rfl
        · cases h
  | int =>
      simp only [scalarValue, intOf, Outcome.bind_eq_ok, Outcome.pure_eq_ok, Except.ok.injEq] at h
      obtain ⟨_, _, _, _, rfl⟩ := h
      rfl
  | real =>
      simp only [scalarValue, realOf, Outcome.bind_eq_ok, Outcome.pure_eq_ok, Except.ok.injEq] at h
      obtain ⟨_, _, _, _, rfl⟩ := h
      rfl
  | timestamp | binary =>
      simp only [scalarValue, Outcome.bind_eq_ok, Outcome.pure_eq_ok, Except.ok.injEq] at h
      obtain ⟨_, _, rfl⟩ := h
      rfl
  | _ => cases h

theorem isKey_taggedMapping {kind : Kind} {pairs : List (Node × Node)} {v : Value}
    (h : taggedMapping kind pairs = .ok v) : v.isKey = true := by
  simp only [taggedMapping] at h
  split at h
  · split at h
    · cases h
    · exact isKey_scalarValue h
  · cases h

theorem keyOf_eq_ok {v key : Value} (h : keyOf v = .ok key) : key.isKey = true := by
  simp only [keyOf] at h
  split at h
  · rename_i hkey
    cases h
    exact hkey
  · cases h

/-- The first pair of a mapping takes in a table, or it is an entry of its own. -/
theorem entriesOf_cons_cases {k n : Node} {pairs : List (Node × Node)} {merged own : Table}
    (h : entriesOf ((k, n) :: pairs) = .ok (merged, own)) :
    (∃ taken merged', mergedOf n = .ok taken ∧ entriesOf pairs = .ok (merged', own) ∧
      merged = taken ++ merged') ∨
    ∃ key v own', key.isKey = true ∧ valueOf n = .ok v ∧ entriesOf pairs = .ok (merged, own') ∧
      own = (key, v) :: own' := by
  simp only [entriesOf] at h
  split at h
  · simp only [Outcome.bind_eq_ok, Outcome.pure_eq_ok, Except.ok.injEq, Prod.mk.injEq] at h
    obtain ⟨taken, htaken, ⟨merged', own'⟩, hrest, rfl, rfl⟩ := h
    exact .inl ⟨taken, merged', htaken, hrest, rfl⟩
  · split at h
    · simp only [Outcome.bind_eq_ok, Outcome.pure_eq_ok, Except.ok.injEq, Prod.mk.injEq] at h
      obtain ⟨_, rfl, v, hv, ⟨merged', own'⟩, hrest, rfl, rfl⟩ := h
      exact .inr ⟨_, v, own', rfl, hv, hrest, rfl⟩
    · simp only [Outcome.bind_eq_ok, Outcome.pure_eq_ok, Except.ok.injEq, Prod.mk.injEq] at h
      obtain ⟨w, -, key, hkey, v, hv, ⟨merged', own'⟩, hrest, rfl, rfl⟩ := h
      exact .inr ⟨key, v, own', keyOf_eq_ok hkey, hv, hrest, rfl⟩

mutual

theorem keyed_valueOf : ∀ (n : Node) {v : Value}, valueOf n = .ok v → v.Keyed
  | .scalar kind text, v, h => .plain (isKey_scalarValue h)
  | .sequence kind items, v, h => by
      simp only [valueOf] at h
      split at h
      · simp only [Outcome.bind_eq_ok, Outcome.pure_eq_ok, Except.ok.injEq] at h
        obtain ⟨vs, hvs, rfl⟩ := h
        exact .list (keyed_valuesOf items hvs)
      · simp only [Outcome.bind_eq_ok, Outcome.pure_eq_ok, Except.ok.injEq] at h
        obtain ⟨vs, hvs, rfl⟩ := h
        exact .list (keyed_pairsOf items hvs)
      · cases h
  | .mapping kind pairs, v, h => by
      simp only [valueOf] at h
      split at h
      · simp only [Outcome.bind_eq_ok, Outcome.pure_eq_ok, Except.ok.injEq] at h
        obtain ⟨⟨merged, own⟩, hentries, rfl⟩ := h
        obtain ⟨hmerged, hown⟩ := keyed_entriesOf pairs hentries
        exact Value.keyed_table_iff.mpr (Table.keyed_nil.update (hmerged.append hown))
      · simp only [Outcome.bind_eq_ok, Outcome.pure_eq_ok, Except.ok.injEq] at h
        obtain ⟨⟨merged, own⟩, hentries, rfl⟩ := h
        obtain ⟨hmerged, hown⟩ := keyed_entriesOf pairs hentries
        have hkeyed := Table.keyed_nil.update (hmerged.append hown)
        refine .set fun key hkey => ?_
        obtain ⟨e, he, rfl⟩ := List.mem_map.mp hkey
        exact (hkeyed e he).1
      · exact .plain (isKey_taggedMapping h)

theorem keyed_valuesOf : ∀ (ns : List Node) {vs : List Value}, valuesOf ns = .ok vs → ∀ v ∈ vs, v.Keyed
  | [], vs, h => by
      cases h
      simp
  | n :: ns, vs, h => by
      simp only [valuesOf, Outcome.bind_eq_ok, Outcome.pure_eq_ok, Except.ok.injEq] at h
      obtain ⟨v, hv, rest, hrest, rfl⟩ := h
      exact List.forall_mem_cons.mpr ⟨keyed_valueOf n hv, keyed_valuesOf ns hrest⟩

theorem keyed_pairsOf : ∀ (ns : List Node) {vs : List Value}, pairsOf ns = .ok vs → ∀ v ∈ vs, v.Keyed
  | [], vs, h => by
      cases h
      simp
  | .mapping _ [(k, n)] :: ns, vs, h => by
      simp only [pairsOf, Outcome.bind_eq_ok, Outcome.pure_eq_ok, Except.ok.injEq] at h
      obtain ⟨key, hkey, v, hv, rest, hrest, rfl⟩ := h
      refine List.forall_mem_cons.mpr ⟨?_, keyed_pairsOf ns hrest⟩
      exact .pair (keyed_valueOf k hkey) (keyed_valueOf n hv)
  | .mapping _ [] :: _, vs, h | .mapping _ (_ :: _ :: _) :: _, vs, h | .scalar _ _ :: _, vs, h
  | .sequence _ _ :: _, vs, h => by cases h

theorem keyed_entriesOf : ∀ (pairs : List (Node × Node)) {merged own : Table},
    entriesOf pairs = .ok (merged, own) → Table.Keyed merged ∧ Table.Keyed own
  | [], merged, own, h => by
      cases h
      exact ⟨Table.keyed_nil, Table.keyed_nil⟩
  | (k, n) :: pairs, merged, own, h => by
      obtain ⟨taken, merged', htaken, hrest, rfl⟩ | ⟨key, v, own', hkey, hv, hrest, rfl⟩ :=
        entriesOf_cons_cases h
      · obtain ⟨hmerged, hown⟩ := keyed_entriesOf pairs hrest
        exact ⟨(keyed_mergedOf n htaken).append hmerged, hown⟩
      · obtain ⟨hmerged, hown⟩ := keyed_entriesOf pairs hrest
        exact ⟨hmerged, List.forall_mem_cons.mpr ⟨⟨hkey, keyed_valueOf n hv⟩, hown⟩⟩

theorem keyed_mergedOf : ∀ (n : Node) {t : Table}, mergedOf n = .ok t → Table.Keyed t
  | .mapping _ pairs, t, h => by
      simp only [mergedOf, Outcome.bind_eq_ok, Outcome.pure_eq_ok, Except.ok.injEq] at h
      obtain ⟨⟨merged, own⟩, hentries, rfl⟩ := h
      obtain ⟨hmerged, hown⟩ := keyed_entriesOf pairs hentries
      exact hmerged.append hown
  | .sequence _ items, t, h => by
      simp only [mergedOf, Outcome.bind_eq_ok, Outcome.pure_eq_ok, Except.ok.injEq] at h
      obtain ⟨ts, hts, rfl⟩ := h
      intro e he
      obtain ⟨u, hu, he⟩ := List.mem_flatten.mp he
      exact keyed_mergedItems items hts u (List.mem_reverse.mp hu) e he
  | .scalar _ _, t, h => by cases h

theorem keyed_mergedItems : ∀ (ns : List Node) {ts : List Table}, mergedItems ns = .ok ts →
    ∀ t ∈ ts, Table.Keyed t
  | [], ts, h => by
      cases h
      simp
  | .mapping _ pairs :: ns, ts, h => by
      simp only [mergedItems, Outcome.bind_eq_ok, Outcome.pure_eq_ok, Except.ok.injEq] at h
      obtain ⟨⟨merged, own⟩, hentries, rest, hrest, rfl⟩ := h
      obtain ⟨hmerged, hown⟩ := keyed_entriesOf pairs hentries
      exact List.forall_mem_cons.mpr ⟨hmerged.append hown, keyed_mergedItems ns hrest⟩
  | .scalar _ _ :: _, ts, h => by cases h
  | .sequence _ _ :: _, ts, h => by cases h

end

/-- A document has only keys that may be keys. -/
theorem keyed_load {text : String} {v : Value} (h : load text = .ok v) : v.Keyed := by
  simp only [load, Outcome.bind_eq_ok] at h
  obtain ⟨ts, -, root, -, h⟩ := h
  cases root with
  | none =>
      cases h
      exact .plain rfl
  | some n => exact keyed_valueOf n h

end Yaml
end SvgDiagram
