import SvgDiagram.Element.Basic
import SvgDiagram.Proofs.Element.Field

/-!
What is read into an element: which reader a type has, and what becomes of the fields that drawings and
connections depend on.
-/

namespace SvgDiagram

/-! ## Texts -/

section
variable {t : Table} {l : Label}

theorem Label.x_of_ofTable (h : ofTable t = .ok l) : Field.realOr t ["x"] 0 = .ok l.x := by
  simp only [ofTable, Outcome.bind_eq_ok, Outcome.pure_eq_ok, Except.ok.injEq] at h
  grind

theorem Label.y_of_ofTable (h : ofTable t = .ok l) : Field.realOr t ["y"] 0 = .ok l.y := by
  simp only [ofTable, Outcome.bind_eq_ok, Outcome.pure_eq_ok, Except.ok.injEq] at h
  grind

theorem Label.panel_of_ofTable (h : ofTable t = .ok l) :
    Field.words? t ["background"] = .ok l.panel := by
  simp only [ofTable, Outcome.bind_eq_ok, Outcome.pure_eq_ok, Except.ok.injEq] at h
  grind

end

namespace Element

/-! ## Elements without children -/

/-- The name of the type of an element. -/
def kind : Element → String
  | .circle .. => "circle"
  | .ellipse .. => "ellipse"
  | .rectangle .. => "rectangle"
  | .line .. => "line"
  | .label .. => "text"
  | .outline .. => "path"
  | .connection .. => "connection"
  | .group .. => "group"

/-- The animations that an element has of its own. A group is animated by its transform only. -/
def animations : Element → List Animation
  | .circle _ _ _ _ as | .ellipse _ _ _ _ _ as | .rectangle _ _ _ _ _ _ _ as
  | .line _ _ _ _ _ _ as | .label _ as | .outline _ _ as | .connection _ _ _ _ _ _ as => as
  | .group .. => []

section
variable {t : Table} {e : Element}

theorem field?_type_of_isText {name : String}
    (h : ((Table.field? t "type").getD .null).isText name = true) :
    Table.field? t "type" = some (.string name) := by
  cases htype : Table.field? t "type" with
  | none => simp [htype, Value.isText] at h
  | some kind =>
      rw [htype, Option.getD_some, Value.isText_iff] at h
      rw [h]

/-- A leaf is read by the reader that its type has. -/
theorem exists_reader_of_leaf (h : leaf ((Table.field? t "type").getD .null) t = .ok e) :
    ∃ name read, Table.field? t "type" = some (.string name) ∧ leafOf? name = some read ∧
      read t = .ok e := by
  cases htype : Table.field? t "type" with
  | none =>
      rw [htype] at h
      cases h
  | some kind =>
      rw [htype, Option.getD_some] at h
      cases kind with
      | string name =>
          simp only [leaf] at h
          cases hread : leafOf? name with
          | none => simp [hread] at h
          | some read =>
              rw [hread] at h
              obtain ⟨-, -, he⟩ := Outcome.bind_eq_ok.mp h
              exact ⟨name, read, rfl, hread, he⟩
      | null => cases h
      | _ =>
          simp only [leaf] at h
          split at h <;> cases h

theorem exists_reader_of_ofValue (hgroup : Table.field? t "type" ≠ some (.string "group"))
    (h : ofValue (.table t) = .ok e) :
    ∃ name read, Table.field? t "type" = some (.string name) ∧ leafOf? name = some read ∧
      read t = .ok e := by
  rw [ofValue, if_neg fun htype => hgroup (field?_type_of_isText htype)] at h
  exact exists_reader_of_leaf h

theorem kind_of_reader {name : String} {read : Table → Except Fault Element}
    (hread : leafOf? name = some read) (h : read t = .ok e) : e.kind = name := by
  simp only [leafOf?] at hread
  split at hread <;> cases hread
  all_goals
    simp only [circleOf, ellipseOf, rectangleOf, lineOf, labelOf, outlineOf, connectionOf,
      Outcome.bind_eq_ok, Outcome.pure_eq_ok, Except.ok.injEq] at h
    grind [kind]

theorem animationsOf_of_reader {name : String} {read : Table → Except Fault Element}
    (hread : leafOf? name = some read) (h : read t = .ok e) : animationsOf t = .ok e.animations := by
  simp only [leafOf?] at hread
  split at hread <;> cases hread
  all_goals
    simp only [circleOf, ellipseOf, rectangleOf, lineOf, labelOf, outlineOf, connectionOf,
      Outcome.bind_eq_ok, Outcome.pure_eq_ok, Except.ok.injEq] at h
    grind [animations]

end

end Element
end SvgDiagram
