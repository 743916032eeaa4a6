import Mathlib.Data.List.Forall2
import SvgDiagram.Drawing.Draw
import SvgDiagram.Proofs.Element.Reading
import SvgDiagram.Proofs.Position.Pass

/-!
A drawing mirrors the elements of its scene. Every element has its node, the node of a group contains the
nodes of its children and then its transform animations, and every other node carries the animations that
its element lists. There is no other animation in the drawing, at any depth.
-/

namespace SvgDiagram
namespace Drawing

open Position (links shapes)

/-- The items of the sequence under a name. -/
def listed (t : Table) (name : String) : List Value :=
  ((Table.field? t name).bind Field.asItems?).getD []

/-- An attribute is set to a text, or left out with it. -/
inductive Sets : Option Value → Setting → Prop
  | absent : Sets none .unset
  | null : Sets (some .null) .unset
  | text {v : Value} {s : String} (h : Field.asText? v = some s) : Sets (some v) (.text s)

/-- A node animates as an entry says: what changes, for how long, from where and to where, and how
often. -/
inductive Animates : Value → Node → Prop
  | intro {t : Table} {property duration : String} {source target repetition : Setting}
      (changes : (Table.field? t "attribute").bind Field.asText? = some property)
      (lasts : (Table.field? t "dur").bind Field.asText? = some duration)
      (starts : Sets (Table.field? t "from_value") source)
      (stops : Sets (Table.field? t "to_value") target)
      (repeats : Sets ((Table.field? t "repeatCount").or (Table.field? t "repeat_count")) repetition) :
      Animates (.table t) (.leaf (.animate property duration)
        [("from_or_values", source), ("to", target), ("repeatCount", repetition)])

/-- A node is the transform animation that an entry describes. -/
def Turns (v : Value) (n : Node) : Prop :=
  ∃ t a, v = .table t ∧ TransformAnimation.ofTable t = .ok a ∧ n = .leaf (.raw a.markup) []

/-- The shape that elements of a type have, groups and texts with a panel aside. -/
def Shape.depicts : Shape → String → Bool
  | .circle .., "circle" | .ellipse .., "ellipse" | .rectangle .., "rectangle" | .path, "path"
  | .text .., "text" | .line .., "line" | .line .., "connection" => true
  | _, _ => false

def hasPanel (t : Table) : Bool :=
  ((Table.field? t "background").bind Field.asText?).any fun colour => !colour.isEmpty

/-- The node of an element. -/
inductive Mirrors : Value → Node → Prop
  | group {t : Table} {attributes : Attributes} {children turns : List Node}
      (type : Table.field? t "type" = some (.string "group"))
      (mirrored : List.Forall₂ Mirrors (listed t "elements") children)
      (turned : List.Forall₂ Turns (listed t "transform_animations") turns) :
      Mirrors (.table t) (.mk .group attributes none (children ++ turns) [])
  | panelled {t : Table} {left top width height size x y : Float} {content : String}
      {behind front : Attributes} {animations : List Node}
      (type : Table.field? t "type" = some (.string "text")) (panel : hasPanel t = true)
      (animated : List.Forall₂ Animates (listed t "animations") animations) :
      Mirrors (.table t) (.mk .group [] none
        [.leaf (.rectangle left top width height) behind, .leaf (.text content size x y) front]
        animations)
  | plain {t : Table} {kind : String} {shape : Shape} {attributes : Attributes}
      {arrow : Option String} {animations : List Node}
      (type : Table.field? t "type" = some (.string kind)) (depicts : shape.depicts kind = true)
      (bare : kind = "text" → hasPanel t = false)
      (animated : List.Forall₂ Animates (listed t "animations") animations) :
      Mirrors (.table t) (.mk shape attributes arrow [] animations)

theorem sets_of_text? {t : Table} {names : List String} {o : Option String}
    (h : Field.text? t names = .ok o) : Sets (Field.find? t names) (optionalSetting o) := by
  obtain ⟨rfl, hfound | hfound⟩ | ⟨v, s, hfound, hs, rfl⟩ := Field.get?_cases h
  · rw [hfound]
    exact .absent
  · rw [hfound]
    exact .null
  · rw [hfound]
    exact .text hs

theorem forall₂_of_tables {α : Type} {t : Table} {name : String} {read : Table → Except Fault α}
    {as : List α} (h : Field.tables t [name] read = .ok as) :
    List.Forall₂ (fun v a => ∃ u, v = .table u ∧ read u = .ok a) (listed t name) as := by
  obtain ⟨items, hitems, hread⟩ := Outcome.bind_eq_ok.mp h
  have hlisted : listed t name = items := by
    rw [Field.getOr_eq_ok, Field.find?_single] at hitems
    obtain ⟨hnone, rfl⟩ | ⟨v, hv, hitems⟩ := hitems
    · rw [listed, hnone]
      rfl
    · rw [listed, hv, Option.bind_some, hitems, Option.getD_some]
  rw [hlisted]
  refine (Outcome.forall₂_of_mapM hread).imp fun v a hv => ?_
  obtain ⟨u, hu, ha⟩ := Outcome.bind_eq_ok.mp hv
  exact ⟨u, Field.asTable?_eq_some (Field.accepted_eq_ok.mp hu), ha⟩

theorem animates_of_table {t : Table} {a : Animation} (h : Animation.ofTable t = .ok a) :
    Animates (.table t) (animate a) := by
  simp only [Animation.ofTable, Outcome.bind_eq_ok, Outcome.pure_eq_ok] at h
  obtain ⟨property, hproperty, duration, hduration, source, hsource, target, htarget, repetition,
    hrepetition, ⟨⟩⟩ := h
  have hstarts := sets_of_text? hsource
  have hstops := sets_of_text? htarget
  have hrepeats := sets_of_text? hrepetition
  rw [Field.text, Field.need_eq_ok, Field.find?_single] at hproperty hduration
  rw [Field.find?_single] at hstarts hstops
  rw [Field.find?_pair] at hrepeats
  exact .intro hproperty hduration hstarts hstops hrepeats

theorem forall₂_animates {t : Table} {as : List Animation} (h : Element.animationsOf t = .ok as) :
    List.Forall₂ Animates (listed t "animations") (as.map animate) := by
  rw [List.forall₂_map_right_iff]
  refine (forall₂_of_tables h).imp fun v a hv => ?_
  obtain ⟨u, rfl, ha⟩ := hv
  exact animates_of_table ha

theorem forall₂_turns {t : Table} {as : List TransformAnimation}
    (h : Field.tables t ["transform_animations"] TransformAnimation.ofTable = .ok as) :
    List.Forall₂ Turns (listed t "transform_animations")
      (as.map fun a => Node.leaf (.raw a.markup) []) := by
  rw [List.forall₂_map_right_iff]
  refine (forall₂_of_tables h).imp fun v a hv => ?_
  obtain ⟨u, rfl, ha⟩ := hv
  exact ⟨u, a, rfl, ha, rfl⟩

theorem isSome_panel {t : Table} {l : Label} (h : Label.ofTable t = .ok l) :
    l.panel.isSome = hasPanel t := by
  obtain ⟨o, ho, hpanel⟩ := Outcome.bind_eq_ok.mp (Label.panel_of_ofTable h)
  rw [← Except.ok.inj hpanel, hasPanel]
  have hcases := Field.get?_cases ho
  rw [Field.find?_single] at hcases
  obtain ⟨rfl, hnone | hnull⟩ | ⟨v, colour, hv, hcolour, rfl⟩ := hcases
  · rw [hnone]
    rfl
  · rw [hnull]
    rfl
  · rw [hv, Option.bind_some, hcolour, Option.any_some]
    cases hempty : colour.isEmpty <;> simp [Option.filter, hempty]

theorem mirrors_label {t : Table} (ht : Table.field? t "type" = some (.string "text")) {l : Label}
    (hl : Label.ofTable t = .ok l) {animations : List Node}
    (hanimations : List.Forall₂ Animates (listed t "animations") animations) :
    Mirrors (.table t) (label l animations) := by
  have hpanel := isSome_panel hl
  rw [label]
  cases hcolour : l.panel with
  | none => exact .plain ht rfl (fun _ => by rw [← hpanel, hcolour]; rfl) hanimations
  | some colour => exact .panelled ht (by rw [← hpanel, hcolour]; rfl) hanimations

/-- An element that is no group carries the animations that it lists. -/
theorem mirrors_leaf {t : Table} {e : Element}
    (h : Element.leaf ((Table.field? t "type").getD .null) t = .ok e) :
    Mirrors (.table t) (draw e) := by
  obtain ⟨name, read, htype, hread, he⟩ := Element.exists_reader_of_leaf h
  have hanimations := forall₂_animates (Element.animationsOf_of_reader hread he)
  obtain rfl := Element.kind_of_reader hread he
  cases e with
  | label l as =>
      cases hread
      simp only [Element.labelOf, Outcome.bind_eq_ok, Outcome.pure_eq_ok] at he
      obtain ⟨_, hl, _, -, ⟨⟩⟩ := he
      rw [draw]
      exact mirrors_label htype hl hanimations
  | group transform children as => cases hread
  | _ =>
      rw [draw]
      exact .plain htype rfl (by simp [Element.kind]) hanimations

mutual

theorem mirrors_ofValue : ∀ (v : Value) {e : Element}, Element.ofValue v = .ok e → Mirrors v (draw e)
  | .table t, e, h => by
      simp only [Element.ofValue] at h
      split at h
      · rename_i hgroup
        have htype := Element.field?_type_of_isText hgroup
        simp only [Element.groupOf, Outcome.bind_eq_ok, Outcome.pure_eq_ok] at h
        obtain ⟨-, -, transform, -, as, has, -, -, children, hchildren, ⟨⟩⟩ := h
        rw [draw]
        exact .group htype (mirrors_children t hchildren) (forall₂_turns has)
      · exact mirrors_leaf h
  | .null, _, h | .bool _, _, h | .int _, _, h | .float _, _, h | .string _, _, h | .bytes _, _, h
  | .moment _, _, h | .list _, _, h | .pair _ _, _, h | .set _, _, h => by
      simp [Element.ofValue] at h

theorem mirrors_children : ∀ (t : List (Value × Value)) {es : List Element},
    Element.children t = .ok es → List.Forall₂ Mirrors (listed t "elements") (drawAll es)
  | [], es, h => by
      cases h
      exact .nil
  | (key, v) :: t, es, h => by
      simp only [Element.children] at h
      split at h
      · rename_i hkey
        obtain rfl := (Value.isText_iff key "elements").mp hkey
        obtain ⟨vs, hitems, hvs⟩ := mirrors_childItems v h
        have hlisted : listed ((.string "elements", v) :: t) "elements" = vs := by
          simp [listed, Table.field?_cons, Value.sameKey, hitems]
        rw [hlisted]
        exact hvs
      · rename_i hkey
        have hother : key.sameKey (.string "elements") = false := by
          rw [Bool.eq_false_iff]
          intro hsame
          exact hkey ((Value.isText_iff key _).mpr ((Value.sameKey_string key _).mp hsame))
        have hlisted : listed ((key, v) :: t) "elements" = listed t "elements" := by
          simp only [listed, Table.field?_cons, hother, Bool.false_eq_true, ite_false]
        rw [hlisted]
        exact mirrors_children t h

theorem mirrors_childItems : ∀ (v : Value) {es : List Element}, Element.childItems v = .ok es →
    ∃ vs, Field.asItems? v = some vs ∧ List.Forall₂ Mirrors vs (drawAll es)
  | .list vs, es, h | .set vs, es, h => ⟨vs, rfl, mirrors_ofList vs h⟩
  | .pair a b, es, h => by
      simp only [Element.childItems, Outcome.bind_eq_ok, Outcome.pure_eq_ok] at h
      obtain ⟨first, hfirst, second, hsecond, ⟨⟩⟩ := h
      exact ⟨[a, b], rfl, .cons (mirrors_ofValue a hfirst) (.cons (mirrors_ofValue b hsecond) .nil)⟩
  | .null, _, h | .bool _, _, h | .int _, _, h | .float _, _, h | .string _, _, h | .bytes _, _, h
  | .moment _, _, h | .table _, _, h => by
      simp [Element.childItems] at h

theorem mirrors_ofList : ∀ (vs : List Value) {es : List Element}, Element.ofList vs = .ok es →
    List.Forall₂ Mirrors vs (drawAll es)
  | [], es, h => by
      cases h
      exact .nil
  | v :: vs, es, h => by
      simp only [Element.ofList, Outcome.bind_eq_ok, Outcome.pure_eq_ok] at h
      obtain ⟨e, he, es, hes, ⟨⟩⟩ := h
      rw [drawAll]
      exact .cons (mirrors_ofValue v he) (mirrors_ofList vs hes)

end

end Drawing
end SvgDiagram
