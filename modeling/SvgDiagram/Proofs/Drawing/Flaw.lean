import SvgDiagram.Proofs.Drawing.Connection
import SvgDiagram.Proofs.Drawing.Mirror
import SvgDiagram.Proofs.Element.Typing

/-!
What keeps a scene from being drawn. A walk visits the resolved elements in order, each group before what
is in it. The drawing fails exactly if a visited element breaks a rule of its type or is flawed, with the
fault of the first one; so among well-typed elements it fails with the first flaw.
-/

namespace SvgDiagram

namespace Drawing

open Outcome (FailsWith)
open Element (typed)
open SvgDiagram.Field (Checks checks_text checks_text? checks_words? checks_tables fits fits_cons
  fits_append find?_single)
open Position (isLink)

/-- An element that a walk meets, and whether it is in a group. -/
structure Visit where
  nested : Bool
  entries : Table

def isGroup (t : Table) : Bool := ((Table.field? t "type").getD .null).isText "group"

mutual

/-- The walk from an element: the element and, for a group, all that is in it. -/
def visits (nested : Bool) : Value → List Visit
  | .table entries => ⟨nested, entries⟩ :: if isGroup entries then visitsInside entries else []
  | _ => []

/-- The walk through the elements in a group. -/
def visitsInside : List (Value × Value) → List Visit
  | [] => []
  | (key, v) :: rest => if key.isText "elements" then visitsItems v else visitsInside rest

def visitsItems : Value → List Visit
  | .list vs | .set vs => visitsAll true vs
  | .pair a b => visits true a ++ visits true b
  | _ => []

/-- The walk from elements in order. -/
def visitsAll (nested : Bool) : List Value → List Visit
  | [] => []
  | v :: rest => visits nested v ++ visitsAll nested rest

end

def elementTypes : List String :=
  ["circle", "ellipse", "rectangle", "line", "text", "path", "connection", "group"]

/-- Whether a path has neither data nor a segment. -/
def lacksData (t : Table) : Bool :=
  match Table.field? t "d" with
  | none | some .null => (listed t "segments").isEmpty
  | some _ => false

/-- The first of its end coordinates that a connection lacks. -/
def missingEnd? (t : Table) : Option String :=
  ["x1", "y1", "x2", "y2"].find? fun name => (Table.field? t name).isNone

/-- What is wrong with an element that keeps the rules of its type. The ends of a connection that is in no
group are there after resolving. -/
def Visit.flaw? (v : Visit) : Option Fault :=
  match Table.field? v.entries "type" with
  | none | some .null => some .missingType
  | some (.string kind) =>
    if !elementTypes.contains kind then some (.unknownType kind)
    else if kind == "path" && lacksData v.entries then some .outlineWithoutData
    else if kind == "connection" && v.nested then (missingEnd? v.entries).map .missingKey
    else none
  | some kind => some (if kind.isKey then .unknownType kind.text else .wrongShape)

/-- What is wrong with an element of any kind. -/
def Visit.fault? (v : Visit) : Option Fault :=
  if typed v.entries then v.flaw? else some .invalidField

section

variable {t : Table}

theorem failsWith_segments {segments : List Outline.Segment} {vs : List Value}
    (h : vs.length = segments.length) :
    FailsWith (ε := Fault)
      (if segments.isEmpty then throw .outlineWithoutData else return Outline.data segments)
      (if vs.isEmpty then some .outlineWithoutData else none) := by
  cases segments with
  | nil =>
      obtain rfl := List.eq_nil_of_length_eq_zero h
      rfl
  | cons s segments =>
      have hvs : vs.isEmpty = false := by
        cases vs with
        | nil => cases h
        | cons v vs => rfl
      simp only [hvs]
      exact ⟨_, rfl⟩

/-- The choice between data and segments, after both are read. -/
theorem failsWith_source {given : Option String} {segments : List Outline.Segment}
    (hgiven : Field.text? t ["d"] = .ok given)
    (hsegments : Field.tables t ["segments"] Outline.Segment.ofTable = .ok segments) :
    FailsWith (ε := Fault)
      (match given with
      | some d => return d
      | none =>
        if segments.isEmpty then throw .outlineWithoutData else return Outline.data segments)
      (if lacksData t then some .outlineWithoutData else none) := by
  have hlength := (forall₂_of_tables hsegments).length_eq
  have hcases := Field.get?_cases hgiven
  rw [find?_single] at hcases
  obtain ⟨rfl, hd | hd⟩ | ⟨v, d, hd, htext, rfl⟩ := hcases
  · simp only [lacksData, hd]
    exact failsWith_segments hlength
  · simp only [lacksData, hd]
    exact failsWith_segments hlength
  · simp only [lacksData, hd]
    cases v with
    | null => cases htext
    | _ => exact ⟨d, rfl⟩

theorem checks_outlineOf :
    Checks (Element.checkId t >>= fun _ => Element.outlineOf t) (fits (Element.rules "path") t)
      (if lacksData t then some .outlineWithoutData else none) := by
  simp only [Element.outlineOf, Outline.drawnData, Element.rules, fits_cons, fits_append, bind_assoc]
  refine Element.checks_checkId.bind fun _ _ => (Style.checks_ofTable _).bind fun style _ => ?_
  refine Element.checks_animationsOf.bind fun animations _ => checks_text?.bind fun given hgiven => ?_
  refine (checks_tables fun _ => Outline.Segment.checks_ofTable).bind fun segments hsegments => ?_
  exact (failsWith_source hgiven hsegments).bind_ok fun _ => ⟨_, rfl⟩

theorem failsWith_part (name : String) :
    FailsWith ((Value.table t).part name)
      (if (Table.field? t name).isNone then some (.missingKey name) else none) := by
  rw [Value.part]
  cases Table.field? t name with
  | none => rfl
  | some v => exact ⟨v, rfl⟩

theorem missingKey_missingEnd? : (missingEnd? t).map Fault.missingKey =
    (if (Table.field? t "x1").isNone then some (Fault.missingKey "x1") else none).or
      ((if (Table.field? t "y1").isNone then some (Fault.missingKey "y1") else none).or
        ((if (Table.field? t "x2").isNone then some (Fault.missingKey "x2") else none).or
          (if (Table.field? t "y2").isNone then some (Fault.missingKey "y2") else none))) := by
  simp only [missingEnd?, List.find?_cons, List.find?_nil]
  cases (Table.field? t "x1").isNone <;> cases (Table.field? t "y1").isNone <;>
    cases (Table.field? t "x2").isNone <;> cases (Table.field? t "y2").isNone <;> rfl

theorem checks_connectionOf :
    Checks (Element.checkId t >>= fun _ => Element.connectionOf t) (fits (Element.rules "connection") t)
      ((missingEnd? t).map .missingKey) := by
  simp only [Element.connectionOf, Element.rules, fits_cons, fits_append]
  refine Element.checks_checkId.bind fun _ _ => checks_text.bind fun _ _ => ?_
  refine checks_text.bind fun _ _ => (Style.checks_ofTable _).bind fun _ _ => ?_
  refine Element.checks_endsInArrow.bind fun _ _ => Element.checks_animationsOf.bind fun _ _ => ?_
  rw [missingKey_missingEnd?]
  refine (failsWith_part "x1").bind fun _ => (failsWith_part "y1").bind fun _ => ?_
  exact (failsWith_part "x2").bind fun _ => (failsWith_part "y2").bind_ok fun _ => ⟨_, rfl⟩

theorem leafOf?_eq_none {kind : String} (h : elementTypes.contains kind = false) :
    Element.leafOf? kind = none := by
  unfold Element.leafOf?
  split
  case h_8 => rfl
  all_goals cases h

theorem rules_eq_nil {kind : String} (h : elementTypes.contains kind = false) :
    Element.rules kind = [] := by
  unfold Element.rules
  split
  case h_9 => rfl
  all_goals cases h

/-- An element that is no group fails with what is wrong with it. -/
theorem failsWith_leaf {nested : Bool} (hgroup : isGroup t = false)
    (hends : nested = false → isLink t = true → missingEnd? t = none) :
    FailsWith (Element.leaf ((Table.field? t "type").getD .null) t) (Visit.fault? ⟨nested, t⟩) := by
  simp only [Visit.fault?, Visit.flaw?, typed]
  cases htype : Table.field? t "type" with
  | none => rfl
  | some type =>
      cases type with
      | null => rfl
      | string kind =>
          simp only [Option.getD_some, Element.leaf]
          by_cases hkind : elementTypes.contains kind = true
          · have hmem : kind ∈ elementTypes := by simpa using hkind
            simp only [elementTypes, List.mem_cons, List.not_mem_nil, or_false] at hmem
            obtain rfl | rfl | rfl | rfl | rfl | rfl | rfl | rfl := hmem
            · exact Element.checks_circleOf
            · exact Element.checks_ellipseOf
            · exact Element.checks_rectangleOf
            · exact Element.checks_lineOf
            · exact Element.checks_labelOf
            · simpa [elementTypes, Element.leafOf?, Checks] using checks_outlineOf
            · have hconnection := checks_connectionOf (t := t)
              cases nested with
              | true => simpa [elementTypes, Element.leafOf?, Checks] using hconnection
              | false =>
                  rw [hends rfl ((isLink_iff t).mpr htype)] at hconnection
                  simpa [elementTypes, Element.leafOf?, Checks] using hconnection
            · simp [isGroup, htype, Value.isText] at hgroup
          · rw [Bool.not_eq_true] at hkind
            simp only [leafOf?_eq_none hkind, rules_eq_nil hkind, hkind]
            rfl
      | _ =>
          simp only [Option.getD_some, Element.leaf]
          split <;> rfl

/-- What a group gives as its elements is a sequence of tables. -/
def givesTables (t : Table) : Bool :=
  (Field.free ["elements"] (Field.eachTable fun _ => true)).holds t

/-- A group fails with the first fault inside, if it keeps its own rules. -/
theorem checks_groupOf {children : Except Fault (List Element)} {fault? : Option Fault}
    (hchildren : givesTables t = true → FailsWith children fault?) :
    Checks (Element.groupOf t children) (fits (Element.rules "group") t) fault? := by
  simp only [Element.groupOf, Element.rules, fits_cons]
  refine Element.checks_checkId.bind fun _ _ => checks_words?.bind fun _ _ => ?_
  refine (checks_tables fun _ => TransformAnimation.checks_ofTable).bind fun _ _ => ?_
  have helements : Checks (Field.tables t ["elements"] fun _ => .ok ()) (givesTables t) none :=
    checks_tables fun _ => Checks.pure ()
  refine helements.bind fun _ hread => ?_
  exact (hchildren (helements.holds hread)).bind_ok fun _ => ⟨_, rfl⟩

/-- An element fails with what is wrong with it or, for a group, with the first fault inside. -/
theorem failsWith_table {nested : Bool}
    (hends : nested = false → isLink t = true → missingEnd? t = none)
    (hinside : givesTables t = true →
      FailsWith (Element.children t) ((visitsInside t).findSome? Visit.fault?)) :
    FailsWith (Element.ofValue (.table t)) ((visits nested (.table t)).findSome? Visit.fault?) := by
  simp only [Element.ofValue, visits, List.findSome?_cons]
  -- `isGroup` is the test that reading makes.
  rw [show ((Table.field? t "type").getD .null).isText "group" = isGroup t from rfl]
  by_cases hgroup : isGroup t = true
  · have htype := Element.field?_type_of_isText hgroup
    have hfault : Visit.fault? ⟨nested, t⟩ =
        if fits (Element.rules "group") t then none else some .invalidField := by
      simp [Visit.fault?, Visit.flaw?, typed, htype, elementTypes]
    have hchecks := checks_groupOf hinside
    rw [Checks] at hchecks
    simp only [hgroup, ite_true, hfault]
    cases hfits : fits (Element.rules "group") t with
    | true => rwa [hfits] at hchecks
    | false => rwa [hfits] at hchecks
  · have hleaf := failsWith_leaf (Bool.not_eq_true _ ▸ hgroup) hends
    simp only [hgroup]
    cases hfault : Visit.fault? ⟨nested, t⟩ with
    | none => rwa [hfault] at hleaf
    | some f => rwa [hfault] at hleaf

end

theorem givesTables_cons {key v : Value} {t : Table} :
    givesTables ((key, v) :: t) = if key.isText "elements" then Field.eachTable (fun _ => true) v
      else givesTables t := by
  have hsame : key.sameKey (.string "elements") = key.isText "elements" := by
    rw [Bool.eq_iff_iff, Value.sameKey_string, Value.isText_iff]
  simp only [givesTables, Field.Rule.holds, Field.free, find?_single, Table.field?_cons, hsame]
  cases key.isText "elements" <;> rfl

theorem forall_table_of_eachTable {v : Value} {vs : List Value} (hitems : Field.asItems? v = some vs)
    (h : Field.eachTable (fun _ => true) v = true) : ∀ item ∈ vs, ∃ t, item = .table t := by
  intro item hitem
  rw [Field.eachTable, hitems, Option.any_some, List.all_eq_true] at h
  have htable := h item hitem
  cases ht : Field.asTable? item with
  | none => simp [ht] at htable
  | some t => exact ⟨t, Field.asTable?_eq_some ht⟩

mutual

theorem failsWith_ofValue : ∀ (v : Value), (∃ t, v = .table t) →
    FailsWith (Element.ofValue v) ((visits true v).findSome? Visit.fault?)
  | .table t, _ => failsWith_table (by simp) (failsWith_children t)
  | .null, h | .bool _, h | .int _, h | .float _, h | .string _, h | .bytes _, h | .moment _, h
  | .list _, h | .pair _ _, h | .set _, h => by
      obtain ⟨_, ⟨⟩⟩ := h

theorem failsWith_children : ∀ (t : List (Value × Value)), givesTables t = true →
    FailsWith (Element.children t) ((visitsInside t).findSome? Visit.fault?)
  | [], _ => ⟨[], rfl⟩
  | (key, v) :: t, h => by
      rw [givesTables_cons] at h
      rw [visitsInside, Element.children]
      by_cases hkey : key.isText "elements" = true
      · simp only [hkey, ite_true] at h ⊢
        exact failsWith_childItems v h
      · simp only [hkey] at h ⊢
        exact failsWith_children t h

theorem failsWith_childItems : ∀ (v : Value), Field.eachTable (fun _ => true) v = true →
    FailsWith (Element.childItems v) ((visitsItems v).findSome? Visit.fault?)
  | .list vs, h | .set vs, h => failsWith_ofList vs (forall_table_of_eachTable rfl h)
  | .pair a b, h => by
      have htables := forall_table_of_eachTable rfl h
      rw [Element.childItems, visitsItems, List.findSome?_append]
      refine (failsWith_ofValue a (htables a (by simp))).bind fun _ => ?_
      exact (failsWith_ofValue b (htables b (by simp))).bind_ok fun _ => ⟨_, rfl⟩
  | .null, h | .bool _, h | .int _, h | .float _, h | .string _, h | .bytes _, h | .moment _, h
  | .table _, h => by
      cases h

theorem failsWith_ofList : ∀ (vs : List Value), (∀ v ∈ vs, ∃ t, v = .table t) →
    FailsWith (Element.ofList vs) ((visitsAll true vs).findSome? Visit.fault?)
  | [], _ => ⟨[], rfl⟩
  | v :: vs, h => by
      obtain ⟨hv, hvs⟩ := List.forall_mem_cons.mp h
      rw [visitsAll, Element.ofList, List.findSome?_append]
      exact (failsWith_ofValue v hv).bind fun _ => (failsWith_ofList vs hvs).bind_ok fun _ => ⟨_, rfl⟩

end

/-- Elements that are in no group: their connections have both ends. -/
theorem failsWith_ofList_tables {ts : List Table}
    (hends : ∀ t ∈ ts, isLink t = true → missingEnd? t = none) :
    FailsWith (Element.ofList (ts.map .table))
      ((visitsAll false (ts.map .table)).findSome? Visit.fault?) := by
  induction ts with
  | nil => exact ⟨[], rfl⟩
  | cons t ts ih =>
      obtain ⟨ht, hts⟩ := List.forall_mem_cons.mp hends
      rw [List.map_cons, visitsAll, Element.ofList, List.findSome?_append]
      refine FailsWith.bind ?_ fun _ => (ih hts).bind_ok fun _ => ⟨_, rfl⟩
      exact failsWith_table (fun _ => ht) (failsWith_children t)

theorem missingEnd?_linked (c : Table) (a b : Point) : missingEnd? (Position.linked c a b) = none := by
  simp [missingEnd?, Position.linked, Table.field?_setField]

/-- After resolving, every connection that is in no group has its ends. -/
theorem exists_tables_of_resolve {elements : Value} {resolved : List Value}
    (h : Position.resolve elements = .ok resolved) :
    ∃ ts : List Table, resolved = ts.map .table ∧ ∀ t ∈ ts, isLink t = true → missingEnd? t = none := by
  obtain ⟨es, cs, ts, registry, -, hscene, rfl⟩ := (Position.resolve_iff elements resolved).mp h
  refine ⟨cs ++ ts, rfl, fun t ht hlink => ?_⟩
  obtain ht | ht := List.mem_append.mp ht
  · obtain ⟨c, -, a, b, -, -, rfl⟩ := Outcome.exists_source hscene.connected ht
    exact missingEnd?_linked c a b
  · rw [hscene.isLink_of_mem_shapes t ht] at hlink
    cases hlink

/-- The drawing of a scene fails with the first fault that its walk meets. -/
theorem failsWith_ofScene {scene : Table} {resolved : List Value}
    (hresolve : Position.resolve ((Table.field? scene "elements").getD (.list [])) = .ok resolved) :
    FailsWith (ofScene (.table scene)) ((visitsAll false resolved).findSome? Visit.fault?) := by
  obtain ⟨ts, rfl, hends⟩ := exists_tables_of_resolve hresolve
  simp only [ofScene, Value.entries, Outcome.ok_bind, hresolve]
  exact (failsWith_ofList_tables hends).bind_ok fun _ => ⟨_, rfl⟩

theorem findSome?_fault?_of_typed {walk : List Visit}
    (htyped : ∀ visit ∈ walk, typed visit.entries = true) :
    walk.findSome? Visit.fault? = walk.findSome? Visit.flaw? := by
  induction walk with
  | nil => rfl
  | cons visit walk ih =>
      obtain ⟨hvisit, hwalk⟩ := List.forall_mem_cons.mp htyped
      rw [List.findSome?_cons, List.findSome?_cons, ih hwalk, Visit.fault?, if_pos hvisit]

/-- Among well-typed elements, the drawing of a scene fails exactly if its walk meets a flawed element, and
with the fault of the first one. -/
theorem ofScene_eq_error_iff {scene : Table} {resolved : List Value}
    (hresolve : Position.resolve ((Table.field? scene "elements").getD (.list [])) = .ok resolved)
    (htyped : ∀ visit ∈ visitsAll false resolved, typed visit.entries = true) (f : Fault) :
    ofScene (.table scene) = .error f ↔ (visitsAll false resolved).findSome? Visit.flaw? = some f := by
  rw [← findSome?_fault?_of_typed htyped]
  exact (failsWith_ofScene hresolve).eq_error_iff f

/-- A connection in a group in a group that has no ends but one. After it come an element of an unknown
type, a path without data and an element without a type; a sound connection and a sound path come before,
with numbers and flags that are written as texts or stand for each other. -/
def flawedScene : Table :=
  Position.ofFields [("elements", .list [
    .table (Position.ofFields [("type", .string "ellipse"), ("id", .string "a"), ("cx", .int 1),
      ("cy", .int 2), ("opacity", .string " 0.5"), ("stroke-width", .bool true)]),
    .table (Position.ofFields [("type", .string "group"), ("elements", .list [
      .table (Position.ofFields [("type", .string "path"), ("d", .null), ("segments", .list [
        .table (Position.ofFields [("type", .string "arc"), ("rx", .string "1e2"), ("ry", .int 1),
          ("large_arc", .int 1), ("sweep", .string "Off"), ("x", .int 1), ("y", .int 2)]),
        .table (Position.ofFields [("type", .string "close")])])]),
      .table (Position.ofFields [("type", .string "group"), ("elements", .list [
        .table (Position.ofFields [("type", .string "connection"), ("from", .string "a"),
          ("to", .string "a"), ("x1", .int 3)])])]),
      .table (Position.ofFields [("type", .string "star")])])]),
    .table (Position.ofFields [("type", .string "path"), ("segments", .list [])]),
    .table (Position.ofFields [("type", .null)]),
    .table (Position.ofFields [("type", .string "connection"), ("from", .string "a"),
      ("to", .string "a")])])]

theorem flawedScene_fails_inside :
    ∃ resolved, Position.resolve ((Table.field? flawedScene "elements").getD (.list [])) = .ok resolved ∧
      (∀ visit ∈ visitsAll false resolved, typed visit.entries = true) ∧
      ofScene (.table flawedScene) = .error (.missingKey "y1") := by
  have hwalk : ((Position.resolve ((Table.field? flawedScene "elements").getD (.list []))).toOption.map
      fun resolved => ((visitsAll false resolved).all fun visit => typed visit.entries,
        (visitsAll false resolved).findSome? Visit.flaw?)) = some (true, some (.missingKey "y1")) := by
    decide +kernel
  obtain ⟨resolved, hresolved, hpair⟩ := Option.map_eq_some_iff.mp hwalk
  obtain ⟨hall, hfirst⟩ := Prod.mk.inj hpair
  have hresolve := Outcome.toOption_eq_some.mp hresolved
  have htyped := List.all_eq_true.mp hall
  exact ⟨resolved, hresolve, htyped, (ofScene_eq_error_iff hresolve htyped _).mpr hfirst⟩

end Drawing
end SvgDiagram
