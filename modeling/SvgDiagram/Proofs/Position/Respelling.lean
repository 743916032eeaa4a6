import SvgDiagram.Proofs.Element.Respelling
import SvgDiagram.Proofs.Position.Renaming

/-!
Positions do not depend on how fields are spelled. The pass over a scene looks at fixed names only, so a
scene that is spelled in another way resolves where the scene does, and what comes out differs in the
spelling only. The registries of the two passes hold the same ids, and elements that differ in the spelling
only.
-/

namespace SvgDiagram
namespace Position

/-- Every expression of the element reads a position attribute. -/
def readsPositions (t : Table) : Bool :=
  t.all fun e => !isAttribute e.1 ||
    match e.2 with
    | .string text =>
      (Expression.read? text).all fun x => attributes.contains (String.ofList x.property)
    | _ => true

def RegistryRespelled (R : Value → Value → Prop) : Table → Table → Prop :=
  List.Forall₂ fun e e' => e'.1 = e.1 ∧ ElementRespelled R e.2 e'.2

theorem mem_fixed_of_attribute {name : String} (h : attributes.contains name = true) :
    name ∈ Vocabulary.fixed := by
  have hall : ∀ n ∈ attributes, n ∈ Vocabulary.fixed := by decide +kernel
  exact hall name (List.contains_iff_mem.mp h)

section
variable {R : Value → Value → Prop} {v v' : Value} {registry registry' : Table}

theorem part_respelled (h : ElementRespelled R v v') {name : String}
    (hname : name ∈ Vocabulary.fixed) : v'.part name = v.part name := by
  cases h with
  | same => rfl
  | table type h => simp only [Value.part, (ElementRespelled.table type h).field?_eq hname]

theorem holds_respelled (h : ElementRespelled R v v') {name : String}
    (hname : name ∈ Vocabulary.fixed) : v'.holds name = v.holds name := by
  cases h with
  | same => rfl
  | table type h =>
      simp only [Value.holds, Table.contains_string, (ElementRespelled.table type h).field?_eq hname]

theorem centre_respelled (h : ElementRespelled R v v') : centre v' = centre v := by
  have hpair (x y : String) (hx : x ∈ Vocabulary.fixed) (hy : y ∈ Vocabulary.fixed) :
      pairOf v' x y = pairOf v x y := by
    simp only [pairOf, part_respelled h hx, part_respelled h hy]
  have hrectangle : rectangleCentre v' = rectangleCentre v := by
    simp only [rectangleCentre, hpair "x" "y" (by decide) (by decide),
      hpair "width" "height" (by decide) (by decide)]
  cases v with
  | table t =>
      obtain ⟨t', rfl⟩ := h.exists_table
      have houtline : Outline.centre t' = Outline.centre t := by
        simp only [Outline.centre, h.field?_eq (show "segments" ∈ Vocabulary.fixed by decide),
          h.field?_eq (show "d" ∈ Vocabulary.fixed by decide)]
      simp only [centre, Value.entries, Outcome.ok_bind, hrectangle, houtline,
        h.field?_eq (show "type" ∈ Vocabulary.fixed by decide),
        hpair "cx" "cy" (by decide) (by decide), hpair "x" "y" (by decide) (by decide)]
  | _ =>
      cases h
      rfl

theorem isLink_respelled {t t' : Table} (h : ElementRespelled R (.table t) (.table t')) :
    isLink t' = isLink t := by
  simp only [isLink, h.field?_eq (show "type" ∈ Vocabulary.fixed by decide)]

theorem get?_respelled (h : RegistryRespelled R registry registry') {key : Value}
    (hv : Table.get? registry key = some v) :
    ∃ v', Table.get? registry' key = some v' ∧ ElementRespelled R v v' := by
  induction h with
  | nil => cases hv
  | @cons e e' registry registry' he _ ih =>
      obtain ⟨hkey, hvalue⟩ := he
      simp only [Table.get?, List.find?_cons, hkey] at hv ih ⊢
      cases hsame : e.1.sameKey key with
      | true =>
          simp only [hsame, Option.map_some, Option.some.injEq] at hv
          subst hv
          exact ⟨e'.2, rfl, hvalue⟩
      | false =>
          simp only [hsame] at hv
          exact ih hv

theorem set_respelled (h : RegistryRespelled R registry registry') (key : Value)
    (hv : ElementRespelled R v v') :
    RegistryRespelled R (Table.set key v registry) (Table.set key v' registry') := by
  induction h with
  | nil => exact .cons ⟨rfl, hv⟩ .nil
  | cons he hrest ih =>
      rw [Table.set, Table.set, he.1]
      split
      · exact .cons ⟨rfl, hv⟩ hrest
      · exact .cons he ih

theorem evalText_respelled (h : RegistryRespelled R registry registry') {text : String} {x : Float}
    (hread : ∀ e, Expression.read? text = some e →
      attributes.contains (String.ofList e.property) = true)
    (hx : evalText (.table registry) text = .ok x) : evalText (.table registry') text = .ok x := by
  cases he : Expression.read? text with
  | none => simp [evalText, he] at hx
  | some e =>
      simp only [evalText, he, Expression.eval_iff] at hx ⊢
      obtain ⟨element, v, base, hfound, hholds, hpart, hbase⟩ := hx
      obtain ⟨element', hfound', helement⟩ := get?_respelled h hfound
      have hname := mem_fixed_of_attribute (hread e he)
      refine ⟨element', v, base, hfound', ?_, ?_, hbase⟩
      · rw [holds_respelled helement hname, hholds]
      · rw [part_respelled helement hname, hpart]

/-- A table resolves as before in a registry that is spelled in another way. -/
theorem resolves_registry (h : RegistryRespelled R registry registry') {t u : Table}
    (hresolves : Resolves registry t u) (hreads : readsPositions t = true) :
    Resolves registry' t u := by
  induction hresolves with
  | nil => exact .nil
  | cons he _ ih =>
      simp only [readsPositions, List.all_cons, Bool.and_eq_true] at hreads
      refine .cons ?_ (ih hreads.2)
      cases he with
      | kept hkept => exact .kept hkept
      | evaluated hk hx =>
          refine .evaluated hk (evalText_respelled h ?_ hx)
          intro x hx
          simpa [hk, hx] using hreads.1

theorem not_attribute_of_mem_names {kind name : String}
    (h : name ∈ (Vocabulary.ofKind kind).names) : attributes.contains name = false := by
  rw [Bool.eq_false_iff]
  intro hname
  exact Vocabulary.not_mem_names_of_fixed kind name (mem_fixed_of_attribute hname) h

end

section
variable {voc : Vocabulary} {R : String → Value → Value → Prop} {registry : Table}

theorem entryResolves_respelled (hvoc : ∀ name ∈ voc.names, attributes.contains name = false)
    {e e' u : Value × Value} (he : EntryResolves registry e u) (h : EntryRespelled voc R e e') :
    ∃ u', EntryResolves registry e' u' ∧ EntryRespelled voc R u u' := by
  obtain rfl | ⟨name, name', v, v', hname, hname', rfl, rfl⟩ := h.eq_or
  · exact ⟨u, he, .kept u⟩
  · -- An entry that is spelled in another way is no position.
    refine ⟨_, .kept fun _ _ => hvoc name' hname', ?_⟩
    cases he with
    | kept => exact h
    | evaluated hk => exact absurd hk (by rw [isAttribute_string, hvoc name hname]; simp)

theorem tableResolves_respelled (hvoc : ∀ name ∈ voc.names, attributes.contains name = false)
    {t t' u : Table} (hu : Resolves registry t u) (h : TableRespelled voc R t t') :
    ∃ u', Resolves registry t' u' ∧ TableRespelled voc R u u' := by
  obtain ⟨u', hu', entries⟩ :=
    Outcome.forall₂_square hu h.entries fun _ _ _ => entryResolves_respelled hvoc
  have hkept {t u : Table} (hu : Resolves registry t u) :
      ∀ name ∈ voc.names, Table.field? u name = Table.field? t name :=
    fun name hname => hu.field?_eq (hvoc name hname)
  exact ⟨u', hu', h.once.of_field? (hkept hu), h.once'.of_field? (hkept hu'), entries⟩

end

section
variable {R : Value → Value → Prop} {registry registry' : Table}

/-- An element that is spelled in another way resolves too, and what it becomes is spelled in that way. -/
theorem resolves_respelled {t t' u : Table} (hu : Resolves registry t u)
    (h : ElementRespelled R (.table t) (.table t')) :
    ∃ u', Resolves registry t' u' ∧ ElementRespelled R (.table u) (.table u') := by
  cases h with
  | same => exact ⟨u, hu, .same _⟩
  | table type h =>
      obtain ⟨u', hu', h'⟩ := tableResolves_respelled (fun _ => not_attribute_of_mem_names) hu h
      exact ⟨u', hu', .table ((hu.field?_eq (by decide)).trans type) h'⟩

theorem register_respelled (h : RegistryRespelled R registry registry') {u u' next : Table}
    (hu : ElementRespelled R (.table u) (.table u')) (hnext : register registry u = .ok next) :
    ∃ next', register registry' u' = .ok next' ∧ RegistryRespelled R next next' := by
  simp only [register, hu.field?_eq (show "id" ∈ Vocabulary.fixed by decide)] at hnext ⊢
  split at hnext
  · rename_i hgiven
    cases hnext
    exact ⟨registry', if_pos hgiven, h⟩
  · rename_i hgiven
    split at hnext
    · rename_i hkey
      cases hnext
      refine ⟨_, ?_, set_respelled h _ hu⟩
      rw [if_neg hgiven, if_pos hkey]
    · cases hnext

/-- Tables that are spelled in another way. -/
abbrev TablesRespelled (R : Value → Value → Prop) : List Table → List Table → Prop :=
  List.Forall₂ fun t t' => ElementRespelled R (.table t) (.table t')

theorem pass_respelled {last : Table} {ts us : List Table} (hpass : Pass registry ts us last)
    (hreads : ∀ t ∈ ts, readsPositions t = true) (h : RegistryRespelled R registry registry')
    {ts' : List Table} (hts : TablesRespelled R ts ts') :
    ∃ us' last', Pass registry' ts' us' last' ∧ TablesRespelled R us us' ∧
      RegistryRespelled R last last' := by
  induction hpass generalizing registry' ts' with
  | nil registry =>
      cases hts
      exact ⟨[], registry', .nil _, .nil, h⟩
  | cons resolves registered _ ih =>
      obtain _ | ⟨ht, hrest⟩ := hts
      rw [List.forall_mem_cons] at hreads
      obtain ⟨u', hu', hu⟩ := resolves_respelled (resolves_registry h resolves hreads.1) ht
      obtain ⟨next', hnext', hnext⟩ := register_respelled h hu registered
      obtain ⟨us', last', hpass', hus, hlast⟩ := ih hreads.2 hnext hrest
      exact ⟨u' :: us', last', .cons hu' hnext' hpass', .cons hu hus, hlast⟩

theorem endElement_respelled (h : RegistryRespelled R registry registry') {id element : Value}
    (helement : endElement registry id = .ok element) :
    ∃ element', endElement registry' id = .ok element' ∧ ElementRespelled R element element' := by
  simp only [endElement, Value.lookup?] at helement ⊢
  split at helement
  · rename_i hkey
    cases hfound : Table.get? registry id with
    | none => simp [hfound] at helement
    | some found =>
        simp only [hfound, Outcome.ok_bind, Outcome.pure_eq_ok, Except.ok.injEq] at helement
        subst helement
        obtain ⟨found', hfound', hrespelled⟩ := get?_respelled h hfound
        refine ⟨found', ?_, hrespelled⟩
        simp only [hkey, ite_true, hfound', Outcome.ok_bind, Outcome.pure_eq_ok]
  · cases helement

theorem endCentre_respelled (h : RegistryRespelled R registry registry') {c c' : Table}
    (hc : ElementRespelled R (.table c) (.table c')) {end_ : String} (hend : end_ ∈ Vocabulary.fixed)
    {p : Point} (hp : endCentre registry c end_ = .ok p) : endCentre registry' c' end_ = .ok p := by
  obtain ⟨element, helement, hp⟩ := Outcome.bind_eq_ok.mp hp
  obtain ⟨element', helement', hrespelled⟩ := endElement_respelled h helement
  rw [endCentre, hc.field?_eq hend, helement', Outcome.ok_bind, centre_respelled hrespelled, hp]

theorem linked_respelled {c c' : Table} (hc : ElementRespelled R (.table c) (.table c')) (a b : Point) :
    ElementRespelled R (.table (linked c a b)) (.table (linked c' a b)) := by
  cases hc with
  | same => exact .same _
  | @table _ _ kind type h =>
      have hname {name : String} (hname : name ∈ Vocabulary.fixed) :=
        Vocabulary.not_mem_names_of_fixed kind name hname
      refine .table ((field?_linked c a b (by decide)).trans type) ?_
      simp only [linked, List.foldl_cons, List.foldl_nil]
      exact (((h.setField (hname (by decide)) _).setField (hname (by decide)) _).setField
        (hname (by decide)) _).setField (hname (by decide)) _

theorem connects_respelled (h : RegistryRespelled R registry registry') {c c' l : Table}
    (hl : Connects registry c l) (hc : ElementRespelled R (.table c) (.table c')) :
    ∃ l', Connects registry' c' l' ∧ ElementRespelled R (.table l) (.table l') := by
  obtain ⟨a, b, ha, hb, rfl⟩ := hl
  have hfrom := endCentre_respelled h hc (by decide) ha
  have hto := endCentre_respelled h hc (by decide) hb
  exact ⟨linked c' a b, ⟨a, b, hfrom, hto, rfl⟩, linked_respelled hc a b⟩

/-- A scene that is spelled in another way resolves too, and what comes out is spelled in that way. -/
theorem sceneResolves_respelled {es es' cs ts : List Table} (hscene : SceneResolves es cs ts registry)
    (hreads : ∀ t ∈ shapes es, readsPositions t = true) (hes : TablesRespelled R es es') :
    ∃ cs' ts' registry', SceneResolves es' cs' ts' registry' ∧
      TablesRespelled R (cs ++ ts) (cs' ++ ts') := by
  have hshapes : TablesRespelled R (shapes es) (shapes es') :=
    List.rel_filter (fun t t' h => by simp [isLink_respelled h]) hes
  have hlinks : TablesRespelled R (links es) (links es') :=
    List.rel_filter (fun t t' h => by simp [isLink_respelled h]) hes
  obtain ⟨ts', registry', hpass, hts, hregistry⟩ := pass_respelled hscene.passed hreads .nil hshapes
  obtain ⟨cs', hconnects, hcs⟩ :=
    Outcome.forall₂_square hscene.connected hlinks fun _ _ _ => connects_respelled hregistry
  exact ⟨cs', ts', registry', ⟨hpass, hconnects⟩, List.rel_append hcs hts⟩

theorem exists_tables_respelled {es : List Table} {vs : List Value}
    (h : List.Forall₂ (ElementRespelled R) (es.map .table) vs) :
    ∃ es', vs = es'.map .table ∧ TablesRespelled R es es' := by
  induction es generalizing vs with
  | nil =>
      cases h
      exact ⟨[], rfl, .nil⟩
  | cons t es ih =>
      obtain _ | ⟨ht, hrest⟩ := h
      obtain ⟨t', rfl⟩ := ht.exists_table
      obtain ⟨es', rfl, hes⟩ := ih hrest
      exact ⟨t' :: es', rfl, .cons ht hes⟩

theorem resolve_respelled {vs vs' out : List Value} (hvs : List.Forall₂ (ElementRespelled R) vs vs')
    (hreads : ∀ t, .table t ∈ vs → isLink t = false → readsPositions t = true)
    (h : resolve (.list vs) = .ok out) :
    ∃ out', resolve (.list vs') = .ok out' ∧ List.Forall₂ (ElementRespelled R) out out' := by
  obtain ⟨es, cs, ts, registry, hitems, hscene, rfl⟩ := (resolve_iff _ _).mp h
  obtain rfl : vs = es.map .table := Except.ok.inj hitems
  obtain ⟨es', rfl, hes⟩ := exists_tables_respelled hvs
  have hshapes : ∀ t ∈ shapes es, readsPositions t = true := by
    intro t ht
    obtain ⟨hmem, hlink⟩ := List.mem_filter.mp ht
    exact hreads t (List.mem_map_of_mem hmem) (by simpa using hlink)
  obtain ⟨cs', ts', registry', hscene', hout⟩ := sceneResolves_respelled hscene hshapes hes
  refine ⟨_, (resolve_iff _ _).mpr ⟨es', cs', ts', registry', rfl, hscene', rfl⟩, ?_⟩
  rw [List.forall₂_map_left_iff, List.forall₂_map_right_iff]
  exact hout

end

end Position
end SvgDiagram
