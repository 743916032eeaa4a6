import SvgDiagram.Proofs.Position.Environment

/-!
Resolving positions gives what they mean. The registry that is built up stands for the environment at
every point of the pass; from that, a pass succeeds exactly if every expression has a value, and places
the elements; and the registry of the whole scene answers for the ends of connections.
-/

namespace SvgDiagram
namespace Position

/-- A registry keeps, under every id, the last element that has it, and nothing else. -/
structure Registers (registry : Table) (env : List Table) : Prop where
  keys : ∀ e ∈ registry, ∃ id, e.1 = .string id
  found : ∀ id, Table.field? registry id = (named? env id).map Value.table

theorem offsetValue_eq {text : String} {e : Expression} {o : Offset}
    (h : Expression.read? text = some e) (ho : e.offset = some o) :
    Expression.offsetValue o.numeral = .ok o.amount := by
  obtain ⟨x, hx⟩ := Option.isSome_iff_exists.mp (offset_isSome h ho)
  simp [Expression.offsetValue, Value.toFloat, Offset.amount, hx]

theorem meant_cons {env : List Table} {key v : Value} {t : Table} :
    Meant env ((key, v) :: t) ↔
      (∀ text, v = .string text → isAttribute key = true → (valueAmong? env text).isSome = true) ∧
        Meant env t := by
  constructor
  · intro h
    refine ⟨?_, fun k text hm => h k text (List.mem_cons_of_mem _ hm)⟩
    rintro text rfl
    exact h key text List.mem_cons_self
  · rintro ⟨hv, ht⟩ k text hm
    obtain heq | hm := List.mem_cons.mp hm
    · cases heq
      exact hv text rfl
    · exact ht k text hm

theorem placed_cons (env : List Table) (key v : Value) (t : Table) :
    placed env ((key, v) :: t) =
      (key, if isAttribute key then placedValue env v else v) :: placed env t := rfl

theorem resolveEntries_kept {registry : Table} {key v : Value} (t : Table)
    (hv : ∀ text, v = .string text → isAttribute key = false) :
    resolveEntries registry ((key, v) :: t) =
      (do return (key, v) :: (← resolveEntries registry t)) := by
  cases v with
  | string text => simp [resolveEntries, hv text rfl]
  | _ => simp [resolveEntries]

theorem placed_kept {env : List Table} {key v : Value} (t : Table)
    (hv : ∀ text, v = .string text → isAttribute key = false) :
    placed env ((key, v) :: t) = (key, v) :: placed env t := by
  cases v with
  | string text => simp [placed_cons, hv text rfl]
  | _ => simp [placed_cons, placedValue]

theorem isConnection_table (t : Table) : isConnection (.table t) = .ok (isLink t) := by
  cases h : Table.field? t "type" with
  | none => simp [isConnection, Value.part?, Value.entries, isLink, h]
  | some kind => simp [isConnection, Value.part?, Value.entries, isLink, h]

theorem split_tables (es : List Table) :
    split (es.map .table) = .ok ((links es).map .table, (shapes es).map .table) := by
  induction es with
  | nil => rfl
  | cons t es ih =>
      cases h : isLink t with
      | true => simp [split, isConnection_table, ih, links, shapes, h]
      | false => simp [split, isConnection_table, ih, links, shapes, h]

namespace Registers

variable {registry : Table} {env : List Table}

/-- An expression has the same value in a registry as among the elements that it stands for. -/
theorem evalText_eq_ok (h : Registers registry env) (text : String) (x : Float) :
    evalText (.table registry) text = .ok x ↔ valueAmong? env text = some x := by
  -- The cases follow the evaluation: the element, its attribute, the number it has, the offset.
  cases hr : Expression.read? text with
  | none => simp [evalText, valueAmong?, hr]
  | some e =>
      simp only [evalText, hr, Expression.eval, Value.holds, Table.contains_string, h.found,
        Option.isSome_map, valueAmong?, Option.bind_eq_bind, Option.bind_some, Outcome.ok_bind]
      cases hn : named? env (String.ofList e.target) with
      | none => simp
      | some element =>
          have hpart : (Value.table registry).part (String.ofList e.target) = .ok (.table element) :=
            Value.part_eq_ok.mpr ⟨registry, rfl, by rw [h.found, hn]; rfl⟩
          simp only [hpart, Outcome.ok_bind, Option.bind_some]
          cases hv : Table.field? element (String.ofList e.property) with
          | none => simp
          | some v =>
              have hp : (Value.table element).part (String.ofList e.property) = .ok v :=
                Value.part_eq_ok.mpr ⟨element, rfl, hv⟩
              simp only [hp, Outcome.ok_bind, Option.bind_some, Option.isSome_some, Bool.not_true,
                Bool.false_eq_true, ite_false]
              cases v.toFloat with
              | error fault => simp [Except.toOption]
              | ok base =>
                  cases ho : e.offset with
                  | none => simp [Except.toOption, Expression.valueFrom, ho]
                  | some o =>
                      simp [Except.toOption, Expression.valueFrom, ho, offsetValue_eq hr ho]

/-- The entries of an element resolve exactly if its expressions have values, and it is placed. -/
theorem resolveEntries_eq_ok (h : Registers registry env) (t t' : Table) :
    resolveEntries registry t = .ok t' ↔ Meant env t ∧ t' = placed env t := by
  induction t generalizing t' with
  | nil =>
      simp only [resolveEntries, Except.ok.injEq, Meant, List.not_mem_nil, false_imp_iff,
        implies_true, true_and]
      exact eq_comm
  | cons e t ih =>
      obtain ⟨key, v⟩ := e
      rw [meant_cons]
      -- Only a text under a position attribute is evaluated; every other entry is kept.
      by_cases hexp : ∃ text, v = .string text ∧ isAttribute key = true
      · obtain ⟨text, rfl, hk⟩ := hexp
        simp only [resolveEntries, placed_cons, hk, ite_true, Outcome.bind_eq_ok, h.evalText_eq_ok,
          ih, Outcome.pure_eq_ok, Except.ok.injEq, placedValue]
        constructor
        · rintro ⟨x, hx, _, ⟨hm, rfl⟩, rfl⟩
          refine ⟨⟨?_, hm⟩, by rw [hx]; rfl⟩
          rintro _ ⟨⟩ -
          rw [hx]
          rfl
        · rintro ⟨⟨hv, hm⟩, rfl⟩
          obtain ⟨x, hx⟩ := Option.isSome_iff_exists.mp (hv text rfl trivial)
          exact ⟨x, hx, _, ⟨hm, rfl⟩, by rw [hx]; rfl⟩
      · have hkept : ∀ text, v = .string text → isAttribute key = false := by
          intro text hv
          exact Bool.eq_false_iff.mpr fun hk => hexp ⟨text, hv, hk⟩
        simp only [resolveEntries_kept t hkept, placed_kept t hkept, Outcome.bind_eq_ok, ih,
          Outcome.pure_eq_ok, Except.ok.injEq]
        constructor
        · rintro ⟨_, ⟨hm, rfl⟩, rfl⟩
          exact ⟨⟨fun text hv hk => absurd ⟨text, hv, hk⟩ hexp, hm⟩, rfl⟩
        · rintro ⟨⟨_, hm⟩, rfl⟩
          exact ⟨_, ⟨hm, rfl⟩, rfl⟩

theorem nil : Registers [] [] where
  keys := by simp
  found := fun _ => rfl

/-- An element without an id changes nothing. -/
theorem skip (h : Registers registry env) {t : Table} (ht : idOf? t = none) :
    Registers registry (env ++ [t]) where
  keys := h.keys
  found := by
    intro id
    rw [named?_append, ht, h.found]
    rfl

theorem set (h : Registers registry env) {t : Table} {s : String}
    (ht : idOf? t = some s) :
    Registers (Table.set (.string s) (.table t) registry) (env ++ [t]) where
  keys := by
    intro e he
    obtain hkey | ⟨e', he', hkey⟩ := Table.key_of_mem_set he
    · exact ⟨s, hkey⟩
    · rw [← hkey]
      exact h.keys e' he'
  found := by
    intro id
    rw [Table.field?_set, named?_append, ht, h.found]
    by_cases hs : s = id
    · simp [hs]
    · simp [hs]

/-- Registering the next element keeps the registry in step with the elements. -/
theorem exists_register (h : Registers registry env) {t : Table} (ht : hasTextId t = true) :
    ∃ registry', register registry t = .ok registry' ∧ Registers registry' (env ++ [t]) := by
  cases hid : Table.field? t "id" with
  | none =>
      refine ⟨registry, by simp [register, hid, Value.isGiven], h.skip ?_⟩
      simp [idOf?, hid]
  | some v =>
      cases v with
      | string s =>
          cases hs : s.isEmpty with
          | true =>
              refine ⟨registry, by simp [register, hid, Value.isGiven, hs], h.skip ?_⟩
              simp [idOf?, hid, hs]
          | false =>
              refine ⟨_, by simp [register, hid, Value.isGiven, Value.isKey, hs]; rfl,
                h.set ?_⟩
              simp [idOf?, hid, hs]
      | _ =>
          simp only [hasTextId, hid] at ht
          refine ⟨registry, by simp [register, hid, ht], h.skip ?_⟩
          simp [idOf?, hid]

/-- Elements whose expressions have values resolve to the placed elements. -/
theorem resolveElements_of_meant {ts : List Table} (h : Registers registry env)
    (hid : ∀ t ∈ ts, hasTextId t = true) (hm : MeantFrom env ts) :
    ∃ registry', resolveElements registry (ts.map .table) =
        .ok ((placeFrom env ts).map .table, registry') ∧
      Registers registry' (env ++ placeFrom env ts) := by
  -- The registry stands for what has been placed so far, and grows with it.
  induction ts generalizing registry env with
  | nil => exact ⟨registry, rfl, by simpa [placeFrom] using h⟩
  | cons t ts ih =>
      obtain ⟨ht, hts⟩ := hm
      have hentries := (h.resolveEntries_eq_ok t (placed env t)).mpr ⟨ht, rfl⟩
      have htext : hasTextId (placed env t) = true := by
        rw [hasTextId_placed]
        exact hid t List.mem_cons_self
      obtain ⟨next, hnext, h'⟩ := h.exists_register htext
      obtain ⟨last, hlast, h''⟩ := ih h' (fun u hu => hid u (List.mem_cons_of_mem _ hu)) hts
      refine ⟨last, ?_, by simpa [placeFrom] using h''⟩
      simp [resolveElements, Value.entries, hentries, hnext, hlast, placeFrom]

/-- Elements that resolve have expressions with values only. -/
theorem meant_of_resolveElements {ts : List Table} (h : Registers registry env)
    (hid : ∀ t ∈ ts, hasTextId t = true) {out : List Value × Table}
    (hout : resolveElements registry (ts.map .table) = .ok out) : MeantFrom env ts := by
  induction ts generalizing registry env out with
  | nil => trivial
  | cons t ts ih =>
      simp only [List.map_cons, resolveElements, Value.entries, Outcome.ok_bind,
        Outcome.bind_eq_ok] at hout
      obtain ⟨t', hentries, registry', hregister, rest, hrest, -⟩ := hout
      obtain ⟨ht, rfl⟩ := (h.resolveEntries_eq_ok t t').mp hentries
      have htext : hasTextId (placed env t) = true := by
        rw [hasTextId_placed]
        exact hid t List.mem_cons_self
      obtain ⟨next, hnext, h'⟩ := h.exists_register htext
      cases hregister.symm.trans hnext
      exact ⟨ht, ih h' (fun u hu => hid u (List.mem_cons_of_mem _ hu)) hrest⟩

theorem get?_eq_some (h : Registers registry env) {key v : Value} :
    Table.get? registry key = some v ↔
      ∃ id t, key = .string id ∧ named? env id = some t ∧ v = .table t := by
  constructor
  · intro hget
    obtain ⟨e, he, -⟩ := Option.map_eq_some_iff.mp hget
    -- All keys are texts, so a key that is found is one, whatever it was taken for.
    obtain ⟨id, hid⟩ := h.keys e (List.mem_of_find?_eq_some he)
    have hkey : key = .string id := by
      have hsame := List.find?_some he
      rw [hid] at hsame
      exact (Value.string_sameKey key id).mp hsame
    subst hkey
    obtain ⟨t, ht, hv⟩ := Option.map_eq_some_iff.mp ((h.found id).symm.trans hget)
    exact ⟨id, t, rfl, ht, hv.symm⟩
  · rintro ⟨id, t, rfl, ht, rfl⟩
    exact (h.found id).trans (by rw [ht]; rfl)

theorem endElement_eq_ok (h : Registers registry env) (key v : Value) :
    endElement registry key = .ok v ↔
      ∃ id t, key = .string id ∧ named? env id = some t ∧ v = .table t := by
  cases hk : key.isKey with
  | false =>
      simp only [endElement, Value.lookup?, hk]
      constructor
      · intro hend
        cases hend
      · rintro ⟨id, t, rfl, -⟩
        cases hk
  | true =>
      rw [← h.get?_eq_some]
      cases hget : Table.get? registry key with
      | none => simp [endElement, Value.lookup?, hk, hget]
      | some w => simp [endElement, Value.lookup?, hk, hget]

/-- An end of a connection has a centre exactly if it names an element that has one. -/
theorem centreNamed?_eq_some (h : Registers registry env) (o : Option Value) (a : Point) :
    centreNamed? env o = some a ↔
      ∃ e, endElement registry (o.getD .null) = .ok e ∧ centre e = .ok a := by
  simp only [h.endElement_eq_ok]
  constructor
  · intro hc
    match o, hc with
    | some (.string id), hc =>
        obtain ⟨t, ht, hc⟩ := Option.bind_eq_some_iff.mp hc
        exact ⟨_, ⟨id, t, rfl, ht, rfl⟩, Outcome.toOption_eq_some.mp hc⟩
  · rintro ⟨_, ⟨id, t, hid, ht, rfl⟩, hc⟩
    cases o with
    | none => cases hid
    | some v =>
        cases hid
        exact Option.bind_eq_some_iff.mpr ⟨t, ht, Outcome.toOption_eq_some.mpr hc⟩

/-- A connection resolves exactly if both its ends have centres, and joins them. -/
theorem resolveConnection_eq_ok (h : Registers registry env) (c : Table) (v : Value) :
    resolveConnection registry (.table c) = .ok v ↔
      ∃ a b, centreNamed? env (Table.field? c "from") = some a ∧
        centreNamed? env (Table.field? c "to") = some b ∧ v = .table (linked c a b) := by
  simp only [resolveConnection, Value.entries, Outcome.ok_bind, Outcome.bind_eq_ok,
    Outcome.pure_eq_ok, Except.ok.injEq, h.centreNamed?_eq_some]
  constructor
  · rintro ⟨source, hs, target, ht, a, ha, b, hb, rfl⟩
    exact ⟨a, b, ⟨source, hs, ha⟩, ⟨target, ht, hb⟩, rfl⟩
  · rintro ⟨a, b, ⟨source, hs, ha⟩, ⟨target, ht, hb⟩, rfl⟩
    exact ⟨source, hs, target, ht, a, ha, b, hb, rfl⟩

theorem mapM_resolveConnection (h : Registers registry env) {cs : List Table} {vs : List Value} :
    (cs.map Value.table).mapM (resolveConnection registry) = .ok vs ↔
      (∀ c ∈ cs, Joins env c) ∧ vs = (cs.map (joined env)).map .table := by
  rw [List.mapM_map, List.map_map]
  apply Outcome.mapM_eq_ok
  intro c v
  rw [Function.comp_apply, h.resolveConnection_eq_ok, Joins, Option.isSome_iff_exists,
    Option.isSome_iff_exists, Function.comp_apply, joined]
  constructor
  · rintro ⟨a, b, ha, hb, rfl⟩
    exact ⟨⟨⟨a, ha⟩, ⟨b, hb⟩⟩, by rw [ha, hb]; rfl⟩
  · rintro ⟨⟨⟨a, ha⟩, ⟨b, hb⟩⟩, rfl⟩
    exact ⟨a, b, ha, hb, by rw [ha, hb]; rfl⟩

end Registers

/-- A scene that resolves has a placement, and is arranged by it. -/
theorem placement_of_resolve {elements : Value} {es : List Table}
    (hitems : elements.items = .ok (es.map .table)) (hid : ∀ t ∈ shapes es, hasTextId t = true)
    {out : List Value} (h : resolve elements = .ok out) :
    ∃ env, Placement es env ∧ out = arranged es env := by
  simp only [resolve, hitems, Outcome.ok_bind, split_tables, Outcome.bind_eq_ok] at h
  obtain ⟨⟨others, registry⟩, hothers, lines, hlines, hout⟩ := h
  have hmeant := Registers.nil.meant_of_resolveElements hid hothers
  obtain ⟨registry', hresolved, hregisters⟩ := Registers.nil.resolveElements_of_meant hid hmeant
  cases hothers.symm.trans hresolved
  obtain ⟨hjoins, rfl⟩ := hregisters.mapM_resolveConnection.mp hlines
  cases hout
  refine ⟨placeFrom [] (shapes es), ⟨getElem?_placeFrom [] _, ?_, hjoins⟩, by simp [arranged]⟩
  exact (meantFrom_iff [] _).mp hmeant

/-- A scene that has a placement resolves to it. -/
theorem resolve_of_placement {es env : List Table} (hid : ∀ t ∈ shapes es, hasTextId t = true)
    (h : Placement es env) : resolve (.list (es.map .table)) = .ok (arranged es env) := by
  have henv := h.eq_placeFrom
  have hmeant : MeantFrom [] (shapes es) := by
    rw [meantFrom_iff, ← henv]
    exact h.meant
  obtain ⟨registry, hresolved, hregisters⟩ := Registers.nil.resolveElements_of_meant hid hmeant
  rw [← henv] at hresolved hregisters
  have hlines := hregisters.mapM_resolveConnection.mpr ⟨h.joins, rfl⟩
  simp only [resolve, Value.items, Outcome.ok_bind, split_tables, hresolved, hlines,
    Outcome.pure_eq_ok, arranged, List.map_append, List.nil_append]

/-- A scene resolves exactly if it has a placement: every expression names an element before it, of
several with one id the last, and has the value of that one's attribute in its place; every connection
names elements with centres, of several with one id the last of all. The connections come first. -/
theorem resolve_eq_ok_iff_placement (es : List Table) (hid : ∀ t ∈ shapes es, hasTextId t = true)
    (out : List Value) :
    resolve (.list (es.map .table)) = .ok out ↔ ∃ env, Placement es env ∧ out = arranged es env := by
  constructor
  · exact placement_of_resolve rfl hid
  · rintro ⟨env, henv, rfl⟩
    exact resolve_of_placement hid henv

/-- A table with text keys. -/
def ofFields (fields : List (String × Value)) : Table := fields.map fun e => (.string e.1, e.2)

/-- Two elements of one id, the second placed by the first, a third placed by the second, and a
connection before them all. -/
def shadowedScene : List Table :=
  [ofFields [("type", .string "connection"), ("from", .string "a"), ("to", .string "b")],
   ofFields [("type", .string "circle"), ("id", .string "a"), ("cx", .int 10), ("cy", .int 20)],
   ofFields [("type", .string "circle"), ("id", .string "a"), ("cx", .string "a.cx + 2.5"),
     ("cy", .string "a.cy")],
   ofFields [("type", .string "rectangle"), ("id", .string "b"), ("x", .string "a.cx - 1"), ("y", .int 0),
     ("width", .int 8), ("height", .int 6)]]

theorem shadowedScene_resolves :
    (∀ t ∈ shapes shadowedScene, hasTextId t = true) ∧
      ∃ out env, resolve (.list (shadowedScene.map .table)) = .ok out ∧
        Placement shadowedScene env ∧ out = arranged shadowedScene env := by
  have hid : ∀ t ∈ shapes shadowedScene, hasTextId t = true := by decide +kernel
  have hsome : (resolve (.list (shadowedScene.map .table))).toOption.isSome = true := by
    decide +kernel
  obtain ⟨out, hout⟩ := Option.isSome_iff_exists.mp hsome
  have hok := Outcome.toOption_eq_some.mp hout
  obtain ⟨env, henv⟩ := (resolve_eq_ok_iff_placement shadowedScene hid out).mp hok
  exact ⟨hid, out, env, hok, henv⟩

end Position
end SvgDiagram
