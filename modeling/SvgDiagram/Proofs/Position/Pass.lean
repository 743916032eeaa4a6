import SvgDiagram.Proofs.Position.Resolution

/-!
The pass over the elements of a scene, whatever their ids are. Resolving an entry, an element, a
connection and a scene is said once as a relation between what goes in and what comes out; properties of
the pass are then inductions over it.
-/

namespace SvgDiagram
namespace Position

/-- An entry is kept, or it is an expression and becomes its value. -/
inductive EntryResolves (registry : Table) : Value × Value → Value × Value → Prop
  | kept {key v : Value} (h : ∀ text, v = .string text → isAttribute key = false) :
      EntryResolves registry (key, v) (key, v)
  | evaluated {key : Value} {text : String} {x : Float} (positional : isAttribute key = true)
      (value : evalText (.table registry) text = .ok x) :
      EntryResolves registry (key, .string text) (key, .float x)

abbrev Resolves (registry t t' : Table) : Prop := List.Forall₂ (EntryResolves registry) t t'

theorem resolveEntries_iff (registry t t' : Table) :
    resolveEntries registry t = .ok t' ↔ Resolves registry t t' := by
  induction t generalizing t' with
  | nil =>
      constructor
      · rintro ⟨⟩
        exact .nil
      · rintro ⟨⟩
        rfl
  | cons e t ih =>
      obtain ⟨key, v⟩ := e
      by_cases hexp : ∃ text, v = .string text ∧ isAttribute key = true
      · obtain ⟨text, rfl, hk⟩ := hexp
        simp only [resolveEntries, hk, ite_true, Outcome.bind_eq_ok, Outcome.pure_eq_ok,
          Except.ok.injEq, ih]
        constructor
        · rintro ⟨x, hx, rest, hrest, rfl⟩
          exact .cons (.evaluated hk hx) hrest
        · intro h
          obtain _ | ⟨he, hrest⟩ := h
          cases he with
          | kept h => simp [h text rfl] at hk
          | evaluated _ hx => exact ⟨_, hx, _, hrest, rfl⟩
      · have hkept : ∀ text, v = .string text → isAttribute key = false := by
          intro text hv
          exact Bool.eq_false_iff.mpr fun hk => hexp ⟨text, hv, hk⟩
        simp only [resolveEntries_kept t hkept, Outcome.bind_eq_ok, Outcome.pure_eq_ok,
          Except.ok.injEq, ih]
        constructor
        · rintro ⟨rest, hrest, rfl⟩
          exact .cons (.kept hkept) hrest
        · intro h
          obtain _ | ⟨he, hrest⟩ := h
          cases he with
          | kept _ => exact ⟨_, hrest, rfl⟩
          | evaluated hk _ => exact absurd ⟨_, rfl, hk⟩ hexp

/-- Only position attributes change. -/
theorem Resolves.field?_eq {registry t t' : Table} (h : Resolves registry t t') {name : String}
    (hname : attributes.contains name = false) : Table.field? t' name = Table.field? t name := by
  induction h with
  | nil => rfl
  | cons he _ ih =>
      cases he with
      | kept _ => simp only [Table.field?_cons, ih]
      | evaluated hk _ =>
          rename_i key text x _
          have hne : key.sameKey (.string name) = false := by
            rw [Bool.eq_false_iff]
            intro hsame
            rw [(Value.sameKey_string key name).mp hsame, isAttribute_string, hname] at hk
            cases hk
          simp [Table.field?_cons, hne, ih]

theorem Resolves.isLink_eq {registry t t' : Table} (h : Resolves registry t t') :
    isLink t' = isLink t := by
  simp only [isLink, h.field?_eq (show attributes.contains "type" = false by decide)]

/-- Elements resolve one after the other, each in the registry of those before it. -/
inductive Pass : Table → List Table → List Table → Table → Prop
  | nil (registry : Table) : Pass registry [] [] registry
  | cons {registry next last t t' : Table} {ts ts' : List Table} (resolves : Resolves registry t t')
      (registered : register registry t' = .ok next) (rest : Pass next ts ts' last) :
      Pass registry (t :: ts) (t' :: ts') last

theorem resolveElements_iff (registry : Table) (ts : List Table) (out : List Value) (last : Table) :
    resolveElements registry (ts.map .table) = .ok (out, last) ↔
      ∃ ts', Pass registry ts ts' last ∧ out = ts'.map .table := by
  induction ts generalizing registry out last with
  | nil =>
      constructor
      · rintro ⟨⟩
        exact ⟨[], .nil _, rfl⟩
      · rintro ⟨_, ⟨⟩, rfl⟩
        rfl
  | cons t ts ih =>
      simp only [List.map_cons, resolveElements, Value.entries, Outcome.ok_bind, Outcome.bind_eq_ok,
        Outcome.pure_eq_ok, Except.ok.injEq, Prod.mk.injEq, Prod.exists, ih, resolveEntries_iff]
      constructor
      · rintro ⟨t', ht, next, hnext, _, _, ⟨ts', hts, rfl⟩, rfl, rfl⟩
        exact ⟨t' :: ts', .cons ht hnext hts, rfl⟩
      · rintro ⟨_, hpass, rfl⟩
        obtain _ | ⟨ht, hnext, hts⟩ := hpass
        exact ⟨_, ht, _, hnext, _, _, ⟨_, hts, rfl⟩, rfl, rfl⟩

theorem Pass.forall₂ {registry last : Table} {ts ts' : List Table} (h : Pass registry ts ts' last) :
    List.Forall₂ (fun t t' => ∃ before, Resolves before t t') ts ts' := by
  induction h with
  | nil _ => exact .nil
  | cons resolves _ _ ih => exact .cons ⟨_, resolves⟩ ih

def endCentre (registry c : Table) (name : String) : Except Fault Point := do
  centre (← endElement registry ((Table.field? c name).getD .null))

/-- A connection becomes the line between the centres of its two ends. -/
def Connects (registry c c' : Table) : Prop :=
  ∃ a b, endCentre registry c "from" = .ok a ∧ endCentre registry c "to" = .ok b ∧ c' = linked c a b

theorem resolveConnection_iff (registry c : Table) (v : Value) :
    resolveConnection registry (.table c) = .ok v ↔
      ∃ c', Connects registry c c' ∧ v = .table c' := by
  simp only [resolveConnection, Connects, endCentre, Value.entries, Outcome.ok_bind,
    Outcome.bind_eq_ok, Outcome.pure_eq_ok, Except.ok.injEq]
  constructor
  · rintro ⟨source, hs, target, ht, a, ha, b, hb, rfl⟩
    exact ⟨_, ⟨a, b, ⟨source, hs, ha⟩, ⟨target, ht, hb⟩, rfl⟩, rfl⟩
  · rintro ⟨_, ⟨a, b, ⟨source, hs, ha⟩, ⟨target, ht, hb⟩, rfl⟩, rfl⟩
    exact ⟨source, hs, target, ht, a, ha, b, hb, rfl⟩

theorem mapM_resolveConnection_iff (registry : Table) (cs : List Table) (out : List Value) :
    (cs.map Value.table).mapM (resolveConnection registry) = .ok out ↔
      ∃ cs', List.Forall₂ (Connects registry) cs cs' ∧ out = cs'.map .table := by
  induction cs generalizing out with
  | nil =>
      constructor
      · rintro ⟨⟩
        exact ⟨[], .nil, rfl⟩
      · rintro ⟨_, ⟨⟩, rfl⟩
        rfl
  | cons c cs ih =>
      simp only [List.map_cons, List.mapM_cons, Outcome.bind_eq_ok, Outcome.pure_eq_ok,
        Except.ok.injEq, resolveConnection_iff, ih]
      constructor
      · rintro ⟨_, ⟨c', hc, rfl⟩, _, ⟨cs', hcs, rfl⟩, rfl⟩
        exact ⟨c' :: cs', .cons hc hcs, rfl⟩
      · rintro ⟨_, hall, rfl⟩
        obtain _ | ⟨hc, hcs⟩ := hall
        exact ⟨_, ⟨_, hc, rfl⟩, _, ⟨_, hcs, rfl⟩, rfl⟩

theorem field?_linked (c : Table) (a b : Point) {name : String}
    (hname : attributes.contains name = false) :
    Table.field? (linked c a b) name = Table.field? c name := by
  have hne : ∀ end_ ∈ ["x1", "y1", "x2", "y2"], end_ ≠ name := by
    rintro end_ hend rfl
    have hall : ∀ n ∈ ["x1", "y1", "x2", "y2"], attributes.contains n = true := by decide
    rw [hall end_ hend] at hname
    cases hname
  simp only [linked, List.foldl_cons, List.foldl_nil, Table.field?_setField,
    hne "x1" (by simp), hne "y1" (by simp), hne "x2" (by simp), hne "y2" (by simp), ite_false]

theorem isLink_linked (c : Table) (a b : Point) : isLink (linked c a b) = isLink c := by
  simp only [isLink, field?_linked c a b (show attributes.contains "type" = false by decide)]

/-- Only tables can be told apart into connections and others. -/
theorem exists_tables_of_split {items : List Value} {parts : List Value × List Value}
    (h : split items = .ok parts) : ∃ es : List Table, items = es.map .table := by
  induction items generalizing parts with
  | nil => exact ⟨[], rfl⟩
  | cons v items ih =>
      simp only [split, Outcome.bind_eq_ok] at h
      obtain ⟨connected, hv, rest, hrest, -⟩ := h
      obtain ⟨es, rfl⟩ := ih hrest
      cases v with
      | table t => exact ⟨t :: es, rfl⟩
      | _ =>
          simp [isConnection, Value.part?, Value.entries] at hv

/-- A scene resolves: its other elements one after the other, and then its connections in the registry of
all of them. -/
structure SceneResolves (es cs ts : List Table) (registry : Table) : Prop where
  passed : Pass [] (shapes es) ts registry
  connected : List.Forall₂ (Connects registry) (links es) cs

section

variable {es cs ts : List Table} {registry : Table}

theorem SceneResolves.isLink_of_mem_links (h : SceneResolves es cs ts registry) :
    ∀ c ∈ cs, isLink c = true := by
  intro c' hc'
  obtain ⟨c, hc, a, b, -, -, rfl⟩ := Outcome.exists_source h.connected hc'
  rw [isLink_linked]
  exact (List.mem_filter.mp hc).2

theorem SceneResolves.isLink_of_mem_shapes (h : SceneResolves es cs ts registry) :
    ∀ t ∈ ts, isLink t = false := by
  intro t' ht'
  obtain ⟨t, ht, before, hresolves⟩ := Outcome.exists_source h.passed.forall₂ ht'
  rw [hresolves.isLink_eq]
  simpa using (List.mem_filter.mp ht).2

end

theorem resolve_iff (elements : Value) (out : List Value) :
    resolve elements = .ok out ↔ ∃ es cs ts registry, elements.items = .ok (es.map .table) ∧
      SceneResolves es cs ts registry ∧ out = (cs ++ ts).map .table := by
  constructor
  · intro h
    simp only [resolve, Outcome.bind_eq_ok, Outcome.pure_eq_ok, Except.ok.injEq] at h
    obtain ⟨items, hitems, parts, hparts, ⟨others, registry⟩, hothers, lines, hlines, rfl⟩ := h
    obtain ⟨es, rfl⟩ := exists_tables_of_split hparts
    cases (split_tables es).symm.trans hparts
    obtain ⟨ts, hts, rfl⟩ := (resolveElements_iff _ _ _ _).mp hothers
    obtain ⟨cs, hcs, rfl⟩ := (mapM_resolveConnection_iff _ _ _).mp hlines
    exact ⟨es, cs, ts, registry, hitems, ⟨hts, hcs⟩, by simp⟩
  · rintro ⟨es, cs, ts, registry, hitems, ⟨hts, hcs⟩, rfl⟩
    have hothers := (resolveElements_iff [] (shapes es) _ registry).mpr ⟨ts, hts, rfl⟩
    have hlines := (mapM_resolveConnection_iff registry (links es) _).mpr ⟨cs, hcs, rfl⟩
    simp only [resolve, hitems, Outcome.ok_bind, split_tables, hothers, hlines, Outcome.pure_eq_ok,
      List.map_append]

end Position
end SvgDiagram
