import Mathlib.Data.List.Forall2
import Mathlib.Logic.Equiv.Basic
import SvgDiagram.Proofs.Position.Pass
import SvgDiagram.Proofs.Text.Strip

/-!
Ids are only names. A scene whose ids are changed, and with them the ends of its connections and the
elements that its expressions name, resolves as before. The text of an expression is changed in place:
it is read with the new name where it was read with the old one. The registry of the changed scene is the
old one with its keys changed, at every point of the pass.
-/

namespace SvgDiagram
namespace Position

/-- A text is an expression if, blanks at its ends aside, it is a word, a point, and a property with what
may follow it. -/
theorem read?_iff (text : String) (e : Expression) :
    Expression.read? text = some e ↔ ∃ rest, Text.strip text.toList = e.target ++ '.' :: rest ∧
      e.target ≠ [] ∧ (∀ c ∈ e.target, Text.isWord c = true) ∧
      e.property = rest.takeWhile Text.isWord ∧ e.property ≠ [] ∧
      readOffset? (rest.dropWhile Text.isWord) = some e.offset := by
  simp only [Expression.read?]
  constructor
  · intro h
    split at h
    · rename_i rest hrest
      split at h
      · cases h
      · rename_i hne
        simp only [Bool.or_eq_true, List.isEmpty_iff, not_or] at hne
        obtain ⟨offset, hoffset, rfl⟩ := Option.map_eq_some_iff.mp h
        refine ⟨rest, ?_, hne.1, fun c hc => List.mem_takeWhile_imp hc, rfl, hne.2, hoffset⟩
        rw [← hrest, List.takeWhile_append_dropWhile]
    · cases h
  · rintro ⟨rest, hstrip, hne, hwords, hproperty, hnonempty, hoffset⟩
    have hpoint : ∀ c, ('.' :: rest).head? = some c → Text.isWord c = false := by
      rintro c ⟨⟩
      decide
    rw [hstrip, Text.takeWhile_run hwords hpoint, Text.dropWhile_run hwords hpoint]
    simp only [List.isEmpty_eq_false_iff.mpr hne, List.isEmpty_eq_false_iff.mpr hnonempty,
      Bool.or_self, Bool.false_eq_true, ite_false, hoffset, Option.map_some, ← hproperty]

/-- What an expression makes of the number that it reads. -/
def Expression.shifted (e : Expression) (base : Float) : Except Fault Float :=
  match e.offset with
  | none => .ok base
  | some o => do
    let amount ← Expression.offsetValue o.numeral
    return if o.negative then base - amount else base + amount

theorem Expression.eval_iff (registry : Table) (e : Expression) (x : Float) :
    e.eval (.table registry) = .ok x ↔ ∃ element v base,
      Table.field? registry (String.ofList e.target) = some element ∧
      element.holds (String.ofList e.property) = .ok true ∧
      element.part (String.ofList e.property) = .ok v ∧ v.toFloat = .ok base ∧
      e.shifted base = .ok x := by
  have hholds : (Value.table registry).holds (String.ofList e.target) =
      .ok (Table.field? registry (String.ofList e.target)).isSome := by
    rw [Value.holds, Table.contains_string]
  simp only [Expression.eval, hholds, Outcome.ok_bind]
  cases hfound : Table.field? registry (String.ofList e.target) with
  | none => simp
  | some element =>
      have hpart := Value.part_eq_ok.mpr ⟨registry, rfl, hfound⟩
      simp only [hpart, Option.isSome_some, Bool.not_true, Bool.false_eq_true, ite_false,
        Outcome.ok_bind, Outcome.pure_eq_ok, Option.some.injEq, exists_eq_left', exists_and_left]
      cases element.holds (String.ofList e.property) with
      | error fault => simp
      | ok held =>
          cases held with
          | false => simp
          | true =>
              simp only [Outcome.ok_bind, Bool.not_true, Bool.false_eq_true, ite_false,
                Outcome.bind_eq_ok, true_and]
              obtain ⟨target, property, _ | o⟩ := e <;> rfl

/-- An expression of the element reads its id. -/
def readsId (t : Table) : Bool :=
  t.any fun e => isAttribute e.1 &&
    match e.2 with
    | .string text => (Expression.read? text).any fun x => x.property == "id".toList
    | _ => false

/-- New names for old ones. Different names stay different, no name stays none, and a name that can stand
in an expression becomes one that can. -/
structure Renaming where
  map : String → String
  injective : Function.Injective map
  map_empty : map "" = ""
  isWord_map : ∀ s, (∀ c ∈ s.toList, Text.isWord c = true) →
    ∀ c ∈ (map s).toList, Text.isWord c = true

namespace Renaming

variable (R : Renaming)

def name : Value → Value
  | .string s => .string (R.map s)
  | v => v

def under (keys : List String) (t : Table) : Table :=
  t.map fun e => (e.1, if keys.any e.1.isText then R.name e.2 else e.2)

/-- An element with its id changed; a connection with its two ends changed as well. -/
def named (t : Table) : Table :=
  R.under (if isLink t then ["id", "from", "to"] else ["id"]) t

/-- The first word of a text is changed. Blanks before it, and all that follows it, stay. -/
def expression (text : String) : String :=
  let body := text.toList.dropWhile Text.isBlank
  String.ofList (text.toList.takeWhile Text.isBlank) ++
    R.map (String.ofList (body.takeWhile Text.isWord)) ++ String.ofList (body.dropWhile Text.isWord)

def expressionValue : Value → Value
  | .string text => .string (R.expression text)
  | v => v

def expressions (t : Table) : Table :=
  t.map fun e => (e.1, if isAttribute e.1 then R.expressionValue e.2 else e.2)

/-- An element of a scene with all its names changed. The attributes of a connection are no
expressions. -/
def rewritten (t : Table) : Table := if isLink t then R.named t else R.expressions (R.named t)

def namedElement : Value → Value
  | .table t => .table (R.named t)
  | v => v

theorem map_ne_empty {s : String} (h : s ≠ "") : R.map s ≠ "" := by
  intro hs
  exact h (R.injective (hs.trans R.map_empty.symm))

theorem isEmpty_map (s : String) : (R.map s).isEmpty = s.isEmpty := by
  by_cases h : s = ""
  · rw [h, R.map_empty]
  · rw [Bool.eq_iff_iff, String.isEmpty_iff, String.isEmpty_iff]
    exact ⟨fun hs => absurd hs (R.map_ne_empty h), fun hs => absurd hs h⟩

theorem read?_expression {text : String} {e : Expression} (h : Expression.read? text = some e) :
    Expression.read? (R.expression text) =
      some { e with target := (R.map (String.ofList e.target)).toList } := by
  obtain ⟨rest, hstrip, hne, hwords, hproperty, hnonempty, hoffset⟩ := (read?_iff text e).mp h
  obtain ⟨trail, htrail, hbody⟩ := Text.exists_strip_append text.toList
  rw [hstrip, List.append_assoc, List.cons_append] at hbody
  -- The text is blanks, the old name, a point, the rest, and blanks; only the old name is changed.
  have hpoint : ∀ c, ('.' :: (rest ++ trail)).head? = some c → Text.isWord c = false := by
    rintro c ⟨⟩
    decide
  have hnew : (R.expression text).toList = text.toList.takeWhile Text.isBlank ++
      (((R.map (String.ofList e.target)).toList ++ '.' :: rest) ++ trail) := by
    simp only [expression, hbody, Text.takeWhile_run hwords hpoint, Text.dropWhile_run hwords hpoint,
      String.toList_append, String.toList_ofList, List.append_assoc, List.cons_append]
  have hfirst : (R.map (String.ofList e.target)).toList ≠ [] := by
    have hold : String.ofList e.target ≠ "" := by simpa using hne
    simpa using R.map_ne_empty hold
  have hfirstWords := R.isWord_map (String.ofList e.target) (by simpa using hwords)
  refine (read?_iff _ _).mpr ⟨rest, ?_, hfirst, hfirstWords, hproperty, hnonempty, hoffset⟩
  rw [hnew]
  apply Text.strip_between
  · exact fun c hc => List.mem_takeWhile_imp hc
  · exact htrail
  · simp
  · intro c hc
    rw [List.head?_append_of_ne_nil _ hfirst] at hc
    exact Text.isBlank_of_isWord (hfirstWords c (List.mem_of_head? hc))
  · intro c hc
    have hlast : (Text.strip text.toList).getLast? = some c := by
      rw [hstrip]
      simpa using hc
    exact Text.isBlank_of_getLast?_strip hlast

theorem field?_under (keys : List String) (t : Table) (key : String) :
    Table.field? (R.under keys t) key =
      (Table.field? t key).map fun v => if keys.contains key then R.name v else v := by
  have hkeys : keys.any (Value.string key).isText = keys.contains key :=
    List.contains_eq_any_beq.symm
  rw [under, Table.field?_map fun k v => if keys.any k.isText then R.name v else v, hkeys]

theorem field?_under_eq {keys : List String} {key : String} (h : keys.contains key = false)
    (t : Table) : Table.field? (R.under keys t) key = Table.field? t key := by
  simp only [field?_under, h, Bool.false_eq_true, ite_false, Option.map_id']

/-- What is registered for an element: the element with its id changed. -/
def value : Value → Value
  | .table t => .table (R.under ["id"] t)
  | v => v

def registry (registry : Table) : Table := registry.map fun e => (R.name e.1, R.value e.2)

theorem sameKey_name (v w : Value) : (R.name v).sameKey (R.name w) = v.sameKey w := by
  cases v with
  | string s =>
      cases w with
      | string t =>
          rw [Bool.eq_iff_iff]
          simp only [name, Value.sameKey, beq_iff_eq, R.injective.eq_iff]
      | _ => rfl
  | _ =>
      cases w <;> rfl

theorem get?_registry (registry : Table) (key : Value) :
    Table.get? (R.registry registry) (R.name key) = (Table.get? registry key).map R.value := by
  simp only [Table.get?, Renaming.registry, List.find?_map, Option.map_map, Function.comp_def,
    sameKey_name]

theorem set_registry (registry : Table) (key v : Value) :
    Table.set (R.name key) (R.value v) (R.registry registry) = R.registry (Table.set key v registry) := by
  induction registry with
  | nil => rfl
  | cons e registry ih =>
      simp only [Renaming.registry, List.map_cons, Table.set, sameKey_name] at ih ⊢
      split
      · rfl
      · rw [ih]
        rfl

theorem isGiven_name (v : Value) : (R.name v).isGiven = v.isGiven := by
  cases v with
  | string s => simp only [name, Value.isGiven, isEmpty_map]
  | _ => rfl

theorem isKey_name (v : Value) : (R.name v).isKey = v.isKey := by
  cases v <;> rfl

theorem getD_map_name (o : Option Value) : (o.map R.name).getD .null = R.name (o.getD .null) := by
  cases o <;> rfl

theorem register_registry {registry next t : Table} (h : register registry t = .ok next) :
    register (R.registry registry) (R.under ["id"] t) = .ok (R.registry next) := by
  have hid : (Table.field? (R.under ["id"] t) "id").getD .null =
      R.name ((Table.field? t "id").getD .null) := by
    rw [field?_under, ← getD_map_name]
    rfl
  simp only [register, hid, isGiven_name, isKey_name] at h ⊢
  split at h
  · rename_i hgiven
    cases h
    rw [if_pos hgiven]
  · rename_i hgiven
    split at h
    · rename_i hkey
      cases h
      rw [if_neg hgiven, if_pos hkey]
      exact congrArg Except.ok (R.set_registry registry _ (.table t))
    · cases h

theorem part_value {key : String} (h : key ≠ "id") (v : Value) :
    (R.value v).part key = v.part key := by
  cases v with
  | table t =>
      have hkey : ["id"].contains key = false := by simpa using h
      simp only [value, Value.part, R.field?_under_eq hkey]
  | _ => rfl

theorem holds_value (key : String) (v : Value) : (R.value v).holds key = v.holds key := by
  cases v with
  | table t => simp only [value, Value.holds, Table.contains_string, field?_under, Option.isSome_map]
  | _ => rfl

theorem centre_value (v : Value) : centre (R.value v) = centre v := by
  cases v with
  | table t =>
      have htype := R.field?_under_eq (show ["id"].contains "type" = false by decide) t
      have hpair (x y : String) (hx : x ≠ "id") (hy : y ≠ "id") :
          pairOf (.table (R.under ["id"] t)) x y = pairOf (.table t) x y := by
        simp only [pairOf, ← R.part_value hx (.table t), ← R.part_value hy (.table t), value]
      have hrectangle : rectangleCentre (.table (R.under ["id"] t)) = rectangleCentre (.table t) := by
        simp only [rectangleCentre, hpair "x" "y" (by decide) (by decide),
          hpair "width" "height" (by decide) (by decide)]
      have houtline : Outline.centre (R.under ["id"] t) = Outline.centre t := by
        simp only [Outline.centre, R.field?_under_eq (show ["id"].contains "segments" = false by decide),
          R.field?_under_eq (show ["id"].contains "d" = false by decide)]
      simp only [value, centre, Value.entries, Outcome.ok_bind, htype, hrectangle, houtline,
        hpair "cx" "cy" (by decide) (by decide), hpair "x" "y" (by decide) (by decide)]
  | _ => rfl

theorem evalText_expression {registry : Table} {text : String} {x : Float}
    (hid : ∀ e, Expression.read? text = some e → String.ofList e.property ≠ "id")
    (h : evalText (.table registry) text = .ok x) :
    evalText (.table (R.registry registry)) (R.expression text) = .ok x := by
  cases hread : Expression.read? text with
  | none => simp [evalText, hread] at h
  | some e =>
      simp only [evalText, hread, Expression.eval_iff] at h
      obtain ⟨element, v, base, hfound, hholds, hpart, hbase, hx⟩ := h
      simp only [evalText, R.read?_expression hread, Expression.eval_iff]
      refine ⟨R.value element, v, base, ?_, ?_, ?_, hbase, hx⟩
      · rw [String.ofList_toList]
        exact (R.get?_registry registry (.string (String.ofList e.target))).trans (by
          rw [← Table.field?, hfound]
          rfl)
      · rw [holds_value]
        exact hholds
      · rw [R.part_value (hid e hread)]
        exact hpart

theorem isId_of_isAttribute {key : Value} (h : isAttribute key = true) :
    ["id"].any key.isText = false := by
  cases key with
  | string s =>
      rw [Bool.eq_false_iff]
      intro hs
      simp only [List.any_cons, List.any_nil, Value.isText, Bool.or_false, beq_iff_eq] at hs
      subst hs
      exact absurd h (by decide)
  | _ => cases h

theorem resolves_rewritten {registry t t' : Table} (h : Resolves registry t t')
    (hid : readsId t = false) :
    Resolves (R.registry registry) (R.expressions (R.under ["id"] t)) (R.under ["id"] t') := by
  induction h with
  | nil => exact .nil
  | cons he _ ih =>
      simp only [readsId, List.any_cons, Bool.or_eq_false_iff] at hid
      refine .cons ?_ (ih hid.2)
      cases he with
      | kept hkept =>
          rename_i key v
          cases hk : isAttribute key with
          | false =>
              simp only [hk, Bool.false_eq_true, ite_false]
              exact .kept fun _ _ => hk
          | true =>
              have hv : R.expressionValue v = v := by
                cases v with
                | string text => exact absurd (hkept text rfl) (by simp [hk])
                | _ => rfl
              simp only [hk, isId_of_isAttribute hk, Bool.false_eq_true, ite_false, ite_true, hv]
              exact .kept hkept
      | evaluated hk hx =>
          rename_i key text x
          have hreads : ∀ e, Expression.read? text = some e → String.ofList e.property ≠ "id" := by
            intro e hread hproperty
            simp [hk, hread, ← hproperty] at hid
          simp only [hk, isId_of_isAttribute hk, Bool.false_eq_true, ite_false, ite_true]
          exact .evaluated hk (R.evalText_expression hreads hx)

theorem pass_rewritten {registry last : Table} {ts ts' : List Table}
    (h : Pass registry ts ts' last) (hid : ∀ t ∈ ts, readsId t = false) :
    Pass (R.registry registry) (ts.map fun t => R.expressions (R.under ["id"] t))
      (ts'.map (R.under ["id"])) (R.registry last) := by
  induction h with
  | nil registry => exact .nil _
  | cons resolves registered _ ih =>
      rw [List.forall_mem_cons] at hid
      exact .cons (R.resolves_rewritten resolves hid.1) (R.register_registry registered) (ih hid.2)

theorem endElement_registry {registry : Table} {id element : Value}
    (h : endElement registry id = .ok element) :
    endElement (R.registry registry) (R.name id) = .ok (R.value element) := by
  simp only [endElement, Value.lookup?, isKey_name, get?_registry] at h ⊢
  split at h
  · rename_i hkey
    rw [if_pos hkey]
    cases hfound : Table.get? registry id with
    | none => simp [hfound] at h
    | some found =>
        simp only [hfound, Outcome.ok_bind, Outcome.pure_eq_ok, Except.ok.injEq] at h
        simp [h]
  · cases h

theorem endCentre_registry {registry c : Table} {keys : List String} {end_ : String} {p : Point}
    (hkeys : keys.contains end_ = true) (h : endCentre registry c end_ = .ok p) :
    endCentre (R.registry registry) (R.under keys c) end_ = .ok p := by
  obtain ⟨element, helement, hp⟩ := Outcome.bind_eq_ok.mp h
  have hend : (Table.field? (R.under keys c) end_).getD .null =
      R.name ((Table.field? c end_).getD .null) := by
    simp only [field?_under, hkeys, ite_true, getD_map_name]
  rw [endCentre, hend, R.endElement_registry helement, Outcome.ok_bind, centre_value, hp]

theorem setField_under (keys : List String) (t : Table) (key : String) (x : Float) :
    Table.setField (R.under keys t) key (.float x) = R.under keys (Table.setField t key (.float x)) := by
  induction t with
  | nil => simp [Table.setField, Table.set, under, name]
  | cons e t ih =>
      simp only [Table.setField, under, List.map_cons, Table.set] at ih ⊢
      split
      · simp [name]
      · rw [ih]
        rfl

theorem linked_under (keys : List String) (c : Table) (a b : Point) :
    linked (R.under keys c) a b = R.under keys (linked c a b) := by
  simp only [linked, List.foldl_cons, List.foldl_nil, setField_under]

theorem connects_under {registry c c' : Table} (h : Connects registry c c') :
    Connects (R.registry registry) (R.under ["id", "from", "to"] c)
      (R.under ["id", "from", "to"] c') := by
  obtain ⟨a, b, ha, hb, rfl⟩ := h
  exact ⟨a, b, R.endCentre_registry (by decide) ha, R.endCentre_registry (by decide) hb,
    (R.linked_under _ c a b).symm⟩

theorem isLink_under {keys : List String} (h : keys.contains "type" = false) (t : Table) :
    isLink (R.under keys t) = isLink t := by
  simp only [isLink, R.field?_under_eq h]

theorem isLink_expressions (t : Table) : isLink (R.expressions t) = isLink t := by
  have htype : Table.field? (R.expressions t) "type" = Table.field? t "type" := by
    rw [expressions, Table.field?_map fun k v => if isAttribute k then R.expressionValue v else v]
    simp only [show isAttribute (.string "type") = false by decide, Bool.false_eq_true, ite_false,
      Option.map_id']
  simp only [isLink, htype]

theorem named_link {t : Table} (h : isLink t = true) : R.named t = R.under ["id", "from", "to"] t := by
  rw [named, if_pos h]

theorem named_shape {t : Table} (h : isLink t = false) : R.named t = R.under ["id"] t := by
  rw [named, h]
  rfl

theorem isLink_rewritten (t : Table) : isLink (R.rewritten t) = isLink t := by
  cases h : isLink t with
  | true => rw [rewritten, if_pos h, R.named_link h, R.isLink_under (by decide), h]
  | false =>
      rw [rewritten, if_neg (by simp [h]), isLink_expressions, R.named_shape h,
        R.isLink_under (by decide), h]

theorem links_rewritten (es : List Table) :
    links (es.map R.rewritten) = (links es).map (R.under ["id", "from", "to"]) := by
  simp only [links, List.filter_map, Function.comp_def, isLink_rewritten]
  apply List.map_congr_left
  intro t ht
  have hlink := (List.mem_filter.mp ht).2
  rw [rewritten, if_pos hlink, R.named_link hlink]

theorem shapes_rewritten (es : List Table) :
    shapes (es.map R.rewritten) = (shapes es).map fun t => R.expressions (R.under ["id"] t) := by
  simp only [shapes, List.filter_map, Function.comp_def, isLink_rewritten]
  apply List.map_congr_left
  intro t ht
  have hshape : isLink t = false := by simpa using (List.mem_filter.mp ht).2
  rw [rewritten, if_neg (by simp [hshape]), R.named_shape hshape]

/-- A scene with all its names changed resolves to the tables that it resolved to, with only their names
changed. -/
theorem sceneResolves_rewritten {es cs ts : List Table} {registry : Table}
    (h : SceneResolves es cs ts registry) (hid : ∀ t ∈ shapes es, readsId t = false) :
    SceneResolves (es.map R.rewritten) (cs.map R.named) (ts.map R.named) (R.registry registry) := by
  have hts : ts.map R.named = ts.map (R.under ["id"]) :=
    List.map_congr_left fun t ht => R.named_shape (h.isLink_of_mem_shapes t ht)
  have hcs : cs.map R.named = cs.map (R.under ["id", "from", "to"]) :=
    List.map_congr_left fun c hc => R.named_link (h.isLink_of_mem_links c hc)
  constructor
  · rw [shapes_rewritten, hts]
    exact R.pass_rewritten h.passed hid
  · rw [links_rewritten, hcs, List.forall₂_map_left_iff, List.forall₂_map_right_iff]
    exact h.connected.imp fun _ _ => R.connects_under

end Renaming

/-- Ids are only names: if a scene resolves, then so does the scene with other names, and to the same
elements with other names, whatever the names are. -/
theorem resolve_rewritten (R : Renaming) {es : List Table} {out : List Value}
    (hid : ∀ t ∈ shapes es, readsId t = false)
    (h : resolve (.list (es.map .table)) = .ok out) :
    resolve (.list ((es.map R.rewritten).map .table)) = .ok (out.map R.namedElement) := by
  obtain ⟨es', cs, ts, registry, hitems, hscene, rfl⟩ := (resolve_iff _ _).mp h
  have hes : es.map Value.table = es'.map Value.table := Except.ok.inj hitems
  obtain rfl := List.map_injective_iff.mpr (fun _ _ => Value.table.inj) hes
  refine (resolve_iff _ _).mpr
    ⟨es.map R.rewritten, cs.map R.named, ts.map R.named, R.registry registry, rfl,
      R.sceneResolves_rewritten hscene hid, ?_⟩
  simp only [List.map_append, List.map_map, Function.comp_def, Renaming.namedElement]

/-- The ids `1` and `10` change places. -/
def oneAndTen : Renaming where
  map := Equiv.swap "1" "10"
  injective := Equiv.injective _
  map_empty := by decide
  isWord_map s hs := by
    by_cases hone : s = "1"
    · rw [hone, Equiv.swap_apply_left]
      exact List.all_eq_true.mp (show "10".toList.all Text.isWord = true by decide +kernel)
    · by_cases hten : s = "10"
      · rw [hten, Equiv.swap_apply_right]
        exact List.all_eq_true.mp (show "1".toList.all Text.isWord = true by decide +kernel)
      · rwa [Equiv.swap_apply_of_ne_of_ne hone hten]

/-- Ids of digits, one the beginning of another and one given twice, in expressions with and without
blanks, and a connection that names both. -/
def digitScene : List Table :=
  [ofFields [("type", .string "circle"), ("id", .string "1"), ("cx", .int 3), ("cy", .int 4)],
   ofFields [("type", .string "circle"), ("id", .string "10"), ("cx", .string "  1.cx + 2.5 "),
     ("cy", .string "1.cy")],
   ofFields [("type", .string "connection"), ("from", .string "10"), ("to", .string "1")],
   ofFields [("type", .string "circle"), ("id", .string "1"), ("cx", .string "10.cx"),
     ("cy", .string "1.cy-1")]]

theorem digitScene_rewritten_resolves :
    (∀ t ∈ shapes digitScene, readsId t = false) ∧
      ∃ out, resolve (.list (digitScene.map .table)) = .ok out ∧
        resolve (.list ((digitScene.map oneAndTen.rewritten).map .table)) =
          .ok (out.map oneAndTen.namedElement) := by
  have hid : ∀ t ∈ shapes digitScene, readsId t = false := by decide +kernel
  have hsome : (resolve (.list (digitScene.map .table))).toOption.isSome = true := by
    decide +kernel
  obtain ⟨out, hok⟩ := Outcome.exists_ok_of_isSome hsome
  exact ⟨hid, out, hok, resolve_rewritten oneAndTen hid hok⟩

end Position
end SvgDiagram
