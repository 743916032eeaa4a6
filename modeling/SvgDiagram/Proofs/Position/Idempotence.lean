import Mathlib.Data.List.Forall2
import SvgDiagram.Proofs.Position.Pass

/-!
Resolving again changes nothing. What has been resolved is settled: no expression is left in it. A pass
over settled elements keeps them and builds the same registry again, and in that registry every connection
finds the ends that it already has.
-/

namespace SvgDiagram
namespace Position

/-- No text stands under a position attribute. -/
def Settled (t : Table) : Prop :=
  ∀ e ∈ t, ∀ text, e.2 = .string text → isAttribute e.1 = false

theorem Resolves.settled {registry t t' : Table} (h : Resolves registry t t') : Settled t' := by
  induction h with
  | nil => simp [Settled]
  | cons he _ ih =>
      cases he with
      | kept hkept => exact List.forall_mem_cons.mpr ⟨hkept, ih⟩
      | evaluated _ _ => exact List.forall_mem_cons.mpr ⟨by simp, ih⟩

theorem Settled.resolves {t : Table} (h : Settled t) (registry : Table) : Resolves registry t t := by
  rw [Resolves, List.forall₂_same]
  rintro ⟨key, v⟩ he
  exact .kept (h _ he)

/-- A pass over what has been resolved goes through the same registries. -/
theorem Pass.again {registry last : Table} {ts ts' : List Table} (h : Pass registry ts ts' last) :
    Pass registry ts' ts' last := by
  induction h with
  | nil registry => exact .nil registry
  | cons resolves registered _ ih => exact .cons (resolves.settled.resolves _) registered ih

theorem linked_linked (c : Table) (a b : Point) : linked (linked c a b) a b = linked c a b := by
  have hends : Table.field? (linked c a b) "x1" = some (.float a.x) ∧
      Table.field? (linked c a b) "y1" = some (.float a.y) ∧
      Table.field? (linked c a b) "x2" = some (.float b.x) ∧
      Table.field? (linked c a b) "y2" = some (.float b.y) := by
    simp [linked, Table.field?_setField]
  generalize linked c a b = t at hends ⊢
  obtain ⟨hx1, hy1, hx2, hy2⟩ := hends
  simp only [linked, List.foldl_cons, List.foldl_nil, Table.setField_eq_self hx1,
    Table.setField_eq_self hy1, Table.setField_eq_self hx2, Table.setField_eq_self hy2]

theorem endCentre_linked (registry c : Table) (a b : Point) {name : String}
    (hname : attributes.contains name = false) :
    endCentre registry (linked c a b) name = endCentre registry c name := by
  simp only [endCentre, field?_linked c a b hname]

theorem Connects.again {registry c c' : Table} (h : Connects registry c c') :
    Connects registry c' c' := by
  obtain ⟨a, b, ha, hb, rfl⟩ := h
  refine ⟨a, b, ?_, ?_, (linked_linked c a b).symm⟩
  · rwa [endCentre_linked registry c a b (by decide)]
  · rwa [endCentre_linked registry c a b (by decide)]

theorem SceneResolves.again {es cs ts : List Table} {registry : Table}
    (h : SceneResolves es cs ts registry) :
    SceneResolves (cs ++ ts) cs ts registry := by
  have hlinks : links (cs ++ ts) = cs := by
    have hts : ts.filter isLink = [] := by simpa using h.isLink_of_mem_shapes
    rw [links, List.filter_append, List.filter_eq_self.mpr h.isLink_of_mem_links, hts,
      List.append_nil]
  have hshapes : shapes (cs ++ ts) = ts := by
    have hcs : cs.filter (fun t => !isLink t) = [] := by simpa using h.isLink_of_mem_links
    have hts : ts.filter (fun t => !isLink t) = ts := by simpa using h.isLink_of_mem_shapes
    rw [shapes, List.filter_append, hcs, hts, List.nil_append]
  refine ⟨by rw [hshapes]; exact h.passed.again, ?_⟩
  rw [hlinks, List.forall₂_same]
  intro c' hc'
  obtain ⟨c, -, hc⟩ := Outcome.exists_source h.connected hc'
  exact hc.again

/-- Whatever resolves resolves to a list that resolves to itself. -/
theorem resolve_resolved {elements : Value} {out : List Value} (h : resolve elements = .ok out) :
    resolve (.list out) = .ok out := by
  obtain ⟨es, cs, ts, registry, -, hscene, rfl⟩ := (resolve_iff elements out).mp h
  exact (resolve_iff _ _).mpr ⟨cs ++ ts, cs, ts, registry, rfl, hscene.again, rfl⟩

/-- A connection with an end of its own, from an id given twice to a path with a number for its id. -/
def relinkedScene : List Table :=
  [ofFields [("type", .string "connection"), ("x1", .string "elsewhere"), ("from", .string "a"),
     ("to", .int 1)],
   ofFields [("type", .string "circle"), ("id", .string "a"), ("cx", .int 10), ("cy", .int 20)],
   ofFields [("type", .string "circle"), ("id", .string "a"), ("cx", .string "a.cx + 2.5"),
     ("cy", .string "a.cy")],
   ofFields [("type", .string "path"), ("id", .int 1), ("d", .string "M 0 0 L 8 0 L 8 6 Z")]]

theorem relinkedScene_resolved :
    ∃ out, resolve (.list (relinkedScene.map .table)) = .ok out ∧ resolve (.list out) = .ok out := by
  have hsome : (resolve (.list (relinkedScene.map .table))).toOption.isSome = true := by
    decide +kernel
  obtain ⟨out, hok⟩ := Outcome.exists_ok_of_isSome hsome
  exact ⟨out, hok, resolve_resolved hok⟩

end Position
end SvgDiagram
