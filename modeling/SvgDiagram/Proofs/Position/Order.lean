import Mathlib.Data.List.Induction
import SvgDiagram.Proofs.Position.Resolution

/-!
Positions do not depend on the order of the elements. With distinct ids an id stands for the same element
wherever it is asked for, so each element is placed as it would be among all of them; two orders of one
scene that both resolve then place the same elements.
-/

namespace SvgDiagram
namespace Position

/-- Every id that stands for an element of the first list stands for it in the second. -/
def Extends (env env' : List Table) : Prop :=
  ∀ id t, named? env id = some t → named? env' id = some t

theorem named?_of_mem {env : List Table} (hnodup : (env.filterMap idOf?).Nodup) {t : Table}
    (ht : t ∈ env) {id : String} (hid : idOf? t = some id) : named? env id = some t := by
  induction env using List.reverseRecOn with
  | nil => cases ht
  | append_singleton env u ih =>
      rw [List.filterMap_append, List.nodup_append] at hnodup
      obtain ⟨hbefore, -, hapart⟩ := hnodup
      rw [named?_append]
      obtain ht | ht := List.mem_append.mp ht
      · have hu : idOf? u ≠ some id := by
          intro hu
          exact hapart id (List.mem_filterMap.mpr ⟨t, ht, hid⟩) id (by simp [hu]) rfl
        rw [if_neg hu]
        exact ih hbefore ht
      · obtain rfl := List.mem_singleton.mp ht
        rw [if_pos hid]

theorem extends_of_subset {env env' : List Table} (hnodup : (env'.filterMap idOf?).Nodup)
    (h : env ⊆ env') : Extends env env' := by
  intro id t ht
  obtain ⟨hmem, hid⟩ := mem_of_named? ht
  exact named?_of_mem hnodup (h hmem) hid

theorem Extends.valueAmong?_eq_some {env env' : List Table} (h : Extends env env') {text : String}
    {x : Float} (hx : valueAmong? env text = some x) : valueAmong? env' text = some x := by
  simp only [valueAmong?, Option.bind_eq_bind, Option.bind_eq_some_iff] at hx ⊢
  obtain ⟨e, he, t, ht, hrest⟩ := hx
  exact ⟨e, he, t, h _ _ ht, hrest⟩

/-- An element whose expressions have values is placed alike among more elements. -/
theorem Extends.placed_eq {env env' : List Table} (h : Extends env env') {t : Table} (ht : Meant env t) :
    placed env' t = placed env t := by
  simp only [placed]
  apply List.map_congr_left
  rintro ⟨key, v⟩ hv
  by_cases hk : isAttribute key = true
  · cases v with
    | string text =>
        obtain ⟨x, hx⟩ := Option.isSome_iff_exists.mp (ht key text hv hk)
        simp [hk, placedValue, hx, h.valueAmong?_eq_some hx]
    | _ => rfl
  · simp [hk]

theorem Extends.antisymm {env env' : List Table} (h : Extends env env') (h' : Extends env' env) :
    named? env = named? env' := by
  funext id
  apply Option.ext
  intro t
  exact ⟨h id t, h' id t⟩

/-- What becomes of an element or a connection among the placed elements. -/
def resolvedAmong (env : List Table) (t : Table) : Table :=
  if isLink t then joined env t else placed env t

/-- Elements are asked for by their ids only. -/
theorem resolvedAmong_congr {env env' : List Table} (h : named? env = named? env') :
    resolvedAmong env = resolvedAmong env' := by
  have hvalue : valueAmong? env = valueAmong? env' := by
    funext text
    simp only [valueAmong?, h]
  have hplaced : placedValue env = placedValue env' := by
    funext v
    cases v with
    | string text => simp only [placedValue, hvalue]
    | _ => rfl
  have hcentre : centreNamed? env = centreNamed? env' := by
    funext o
    simp only [centreNamed?, h]
  funext t
  simp only [resolvedAmong, joined, placed, hcentre, hplaced]

theorem filterMap_idOf?_placeFrom (env ts : List Table) :
    (placeFrom env ts).filterMap idOf? = ts.filterMap idOf? := by
  induction ts generalizing env with
  | nil => rfl
  | cons t ts ih => simp only [placeFrom, List.filterMap_cons, idOf?_placed, ih]

namespace Placement

variable {es es' env env' : List Table}

theorem ids (h : Placement es env) : env.filterMap idOf? = (shapes es).filterMap idOf? := by
  rw [h.eq_placeFrom, filterMap_idOf?_placeFrom]

/-- With distinct ids, each element is placed as it is among all of them. -/
theorem eq_map (h : Placement es env) (hnodup : ((shapes es).filterMap idOf?).Nodup) :
    env = (shapes es).map (placed env) := by
  apply List.ext_getElem?
  intro i
  rw [h.placed_before i, List.getElem?_map]
  cases ht : (shapes es)[i]? with
  | none => rfl
  | some t =>
      have hall : Extends (env.take i) env :=
        extends_of_subset (by rwa [h.ids]) (List.take_subset i env)
      exact congrArg some (hall.placed_eq (h.meant i t ht)).symm

/-- What is placed in one order is placed in another. -/
theorem subset (h : Placement es env) (h' : Placement es' env')
    (hsub : shapes es ⊆ shapes es') (hnodup : ((shapes es').filterMap idOf?).Nodup) : env ⊆ env' := by
  -- By induction on how many elements of the first order have been placed: what the next one names is
  -- among them, so it has its place in the second order too.
  have htake : ∀ i, env.take i ⊆ env' := by
    intro i
    induction i with
    | zero => simp
    | succ i ih =>
        rw [List.take_add_one]
        apply List.append_subset.mpr
        refine ⟨ih, ?_⟩
        intro u hu
        rw [Option.mem_toList, h.placed_before i] at hu
        obtain ⟨t, ht, rfl⟩ := Option.map_eq_some_iff.mp hu
        have hext : Extends (env.take i) env' := extends_of_subset (by rwa [h'.ids]) ih
        have hmem : placed env' t ∈ (shapes es').map (placed env') :=
          List.mem_map_of_mem (hsub (List.mem_of_getElem? ht))
        rwa [← h'.eq_map hnodup, hext.placed_eq (h.meant i t ht)] at hmem
  simpa using htake env.length

/-- With distinct ids, a scene is arranged element by element. -/
theorem arranged_eq (h : Placement es env) (hnodup : ((shapes es).filterMap idOf?).Nodup) :
    arranged es env = ((links es ++ shapes es).map (resolvedAmong env)).map .table := by
  have hlinks : (links es).map (joined env) = (links es).map (resolvedAmong env) := by
    apply List.map_congr_left
    intro c hc
    simp [resolvedAmong, (List.mem_filter.mp hc).2]
  have hshapes : (shapes es).map (resolvedAmong env) = env := by
    refine Eq.trans (List.map_congr_left ?_) (h.eq_map hnodup).symm
    intro t ht
    have hlink : isLink t = false := by simpa using (List.mem_filter.mp ht).2
    simp [resolvedAmong, hlink]
  simp only [arranged, hlinks, List.map_append, hshapes]

end Placement

theorem links_append_shapes_perm {es es' : List Table} (h : es.Perm es') :
    (links es ++ shapes es).Perm (links es' ++ shapes es') :=
  (h.filter _).append (h.filter _)

/-- Two orders of one scene, with distinct ids, that both resolve give every element and every connection
the same positions. -/
theorem resolve_alike_of_perm {es es' : List Table} (hperm : es.Perm es')
    (hid : ∀ t ∈ shapes es, hasTextId t = true) (hnodup : ((shapes es).filterMap idOf?).Nodup)
    {out out' : List Value} (h : resolve (.list (es.map .table)) = .ok out)
    (h' : resolve (.list (es'.map .table)) = .ok out') :
    (∃ f : Table → Table,
      out = ((links es ++ shapes es).map f).map .table ∧
        out' = ((links es' ++ shapes es').map f).map .table) ∧
      out.Perm out' := by
  have hshapes : (shapes es).Perm (shapes es') := hperm.filter _
  have hnodup' := (hshapes.filterMap idOf?).nodup_iff.mp hnodup
  obtain ⟨env, henv, rfl⟩ := placement_of_resolve rfl hid h
  obtain ⟨env', henv', rfl⟩ :=
    placement_of_resolve rfl (fun t ht => hid t (hshapes.mem_iff.mpr ht)) h'
  have hnamed : named? env = named? env' := by
    apply Extends.antisymm
    · exact extends_of_subset (by rwa [henv'.ids]) (henv.subset henv' hshapes.subset hnodup')
    · exact extends_of_subset (by rwa [henv.ids]) (henv'.subset henv hshapes.symm.subset hnodup)
  rw [henv.arranged_eq hnodup, henv'.arranged_eq hnodup', resolvedAmong_congr hnamed]
  exact ⟨⟨_, rfl, rfl⟩, ((links_append_shapes_perm hperm).map _).map _⟩

/-- A chain of two elements. -/
def chainedPair : List Table :=
  [ofFields [("type", .string "circle"), ("id", .string "a"), ("cx", .int 10), ("cy", .int 20)],
   ofFields [("type", .string "text"), ("id", .string "b"), ("x", .string "a.cx + 2.5"),
     ("y", .string "a.cy")]]

/-- A connection to the end of the chain, and an element apart from it. -/
def linkedPair : List Table :=
  [ofFields [("type", .string "connection"), ("from", .string "b"), ("to", .string "c")],
   ofFields [("type", .string "ellipse"), ("id", .string "c"), ("cx", .float 1.5), ("cy", .int 0)]]

theorem chained_and_linked_alike :
    (∀ t ∈ shapes (chainedPair ++ linkedPair), hasTextId t = true) ∧
      ((shapes (chainedPair ++ linkedPair)).filterMap idOf?).Nodup ∧
        ∃ out out', resolve (.list ((chainedPair ++ linkedPair).map .table)) = .ok out ∧
          resolve (.list ((linkedPair ++ chainedPair).map .table)) = .ok out' ∧ out.Perm out' := by
  have hid : ∀ t ∈ shapes (chainedPair ++ linkedPair), hasTextId t = true := by decide +kernel
  have hnodup : ((shapes (chainedPair ++ linkedPair)).filterMap idOf?).Nodup := by decide +kernel
  have hsome : (resolve (.list ((chainedPair ++ linkedPair).map .table))).toOption.isSome = true := by
    decide +kernel
  have hsome' : (resolve (.list ((linkedPair ++ chainedPair).map .table))).toOption.isSome = true := by
    decide +kernel
  obtain ⟨out, hout⟩ := Option.isSome_iff_exists.mp hsome
  obtain ⟨out', hout'⟩ := Option.isSome_iff_exists.mp hsome'
  have h := Outcome.toOption_eq_some.mp hout
  have h' := Outcome.toOption_eq_some.mp hout'
  have halike := resolve_alike_of_perm List.perm_append_comm hid hnodup h h'
  exact ⟨hid, hnodup, out, out', h, h', halike.2⟩

end Position
end SvgDiagram
