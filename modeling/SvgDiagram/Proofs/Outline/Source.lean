import SvgDiagram.Element.Source
import SvgDiagram.Position.Centre
import SvgDiagram.Proofs.Element.Field

/-!
What a path element is drawn with, and what it is measured by. It is drawn with its data, and with its
segments only where no data is given; it is measured by its segments, and by its data only where no
segments are given. So an element with both is drawn with one and measured by the other.
-/

namespace SvgDiagram
namespace Outline

inductive Source where
  | data (text : String)
  | segments (items : List Value)

def Source.centre : Source → Except Fault Point
  | .data text => centreOfData text
  | .segments items => centreOfSegments (.list items)

/-- The element is drawn with the text, which is or comes from the source. -/
inductive DrawnWith (t : Table) (text : String) : Source → Prop
  | data {d : Value} (hdata : Table.field? t "d" = some d) (htext : Field.asText? d = some text) :
      DrawnWith t text (.data text)
  | segments {segments : Value} {items : List Value} {ss : List Segment}
      (hdata : Table.field? t "d" = none ∨ Table.field? t "d" = some .null)
      (hsegments : Table.field? t "segments" = some segments)
      (hitems : Field.asItems? segments = some items) (hne : items ≠ [])
      (hread : (items.mapM fun v => do Segment.ofTable (← Field.accepted (Field.asTable? v))) = .ok ss)
      (htext : text = Outline.data ss) : DrawnWith t text (.segments items)

/-- Segments that are read, and are some, come from a sequence of items. -/
theorem exists_items_of_tables {t : Table} {ss : List Segment}
    (h : Field.tables t ["segments"] Segment.ofTable = .ok ss) (hne : ss ≠ []) :
    ∃ segments items, Table.field? t "segments" = some segments ∧
      Field.asItems? segments = some items ∧ items ≠ [] ∧
      (items.mapM fun v => do Segment.ofTable (← Field.accepted (Field.asTable? v))) = .ok ss := by
  obtain ⟨items, hitems, hread⟩ := Outcome.bind_eq_ok.mp h
  have hsome : items ≠ [] := by
    rintro rfl
    cases hread
    exact absurd rfl hne
  rw [Field.getOr_eq_ok, Field.find?_single] at hitems
  obtain ⟨-, rfl⟩ | ⟨segments, hsegments, hitems⟩ := hitems
  · exact absurd rfl hsome
  · exact ⟨segments, items, hsegments, hitems, hsome, hread⟩

theorem exists_drawnWith {t : Table} {text : String} (h : drawnData t = .ok text) :
    ∃ source, DrawnWith t text source := by
  simp only [drawnData, Outcome.bind_eq_ok] at h
  obtain ⟨given, hgiven, ss, hss, h⟩ := h
  have hcases := Field.get?_cases hgiven
  rw [Field.find?_single] at hcases
  obtain ⟨rfl, hdata⟩ | ⟨d, s, hd, hs, rfl⟩ := hcases
  · simp only at h
    split at h
    · cases h
    · rename_i hempty
      cases h
      obtain ⟨segments, items, hsegments, hitems, hne, hread⟩ :=
        exists_items_of_tables hss (by simpa using hempty)
      exact ⟨_, .segments hdata hsegments hitems hne hread rfl⟩
  · cases h
    exact ⟨_, .data hd hs⟩

/-- What an element is measured by. -/
theorem centre_path {t : Table} (htype : Table.field? t "type" = some (.string "path")) :
    Position.centre (.table t) = Outline.centre t := by
  simp [Position.centre, Value.entries, htype]

theorem centre_of_segments {t : Table} {segments : Value}
    (hsegments : Table.field? t "segments" = some segments) (hgiven : segments.isGiven = true) :
    Outline.centre t = centreOfSegments segments := by
  simp [Outline.centre, hsegments, hgiven]

/-- Data that has a centre is a text. -/
theorem centre_of_data {t : Table} {d : Value} {text : String} {p : Point}
    (hsegments : ∀ segments, Table.field? t "segments" = some segments → segments.isGiven = false)
    (hdata : Table.field? t "d" = some d) (htext : Field.asText? d = some text)
    (h : Outline.centre t = .ok p) : centreOfData text = .ok p := by
  have hnone : ((Table.field? t "segments").getD .null).isGiven = false := by
    cases hs : Table.field? t "segments" with
    | none => rfl
    | some segments => exact hsegments segments hs
  simp only [Outline.centre, hnone, hdata, Option.getD_some, Bool.false_eq_true, ite_false] at h
  split at h
  · cases d with
    | string s =>
        cases htext
        exact h
    | bytes data => cases h
    | _ => cases htext
  · cases h

/-- A path element that is drawn and has a centre has the centre of what it is drawn with exactly if, where
data is drawn although segments are given, these have the centre of the data. -/
theorem measured_as_drawn_iff {t : Table} (htype : Table.field? t "type" = some (.string "path"))
    {text : String} {p : Point} (hdrawn : drawnData t = .ok text)
    (hcentre : Position.centre (.table t) = .ok p) :
    ∃ source, DrawnWith t text source ∧
      (source.centre = .ok p ↔
        ∀ d segments, source = .data d → Table.field? t "segments" = some segments →
          segments.isGiven = true → centreOfSegments segments = centreOfData d) := by
  obtain ⟨source, hsource⟩ := exists_drawnWith hdrawn
  rw [centre_path htype] at hcentre
  refine ⟨source, hsource, ?_⟩
  cases hsource with
  | @segments segments items ss hdata hsegments hitems hne hread htext =>
      have hgiven : segments.isGiven = true := by simpa [Field.isGiven_of_asItems? hitems] using hne
      constructor
      · rintro - d segments ⟨⟩
      · intro _
        rw [← hcentre, centre_of_segments hsegments hgiven, Source.centre, centreOfSegments,
          centreOfSegments, Field.items_of_asItems? hitems]
        rfl
  | data hdata htext =>
      constructor
      · rintro hmeasured d segments ⟨⟩ hsegments hgiven
        rw [← centre_of_segments hsegments hgiven, hcentre]
        exact hmeasured.symm
      · intro hagree
        by_cases hboth : ∃ segments, Table.field? t "segments" = some segments ∧ segments.isGiven = true
        · obtain ⟨segments, hsegments, hgiven⟩ := hboth
          change centreOfData text = .ok p
          rw [← hagree text segments rfl hsegments hgiven, ← centre_of_segments hsegments hgiven, hcentre]
        · apply centre_of_data _ hdata htext hcentre
          intro segments hsegments
          exact Bool.eq_false_iff.mpr fun hgiven => hboth ⟨segments, hsegments, hgiven⟩

def squareData : String := "M0,0 L10,0 L10,10 L0,10 Z"

/-- A square that is drawn with its data near the origin and measured by its segments far from it. -/
def twoSquares : Table :=
  [(.string "type", .string "path"), (.string "d", .string squareData),
    (.string "segments", .list [
      .table [(.string "type", .string "move_to"), (.string "x", .float 100.0), (.string "y", .float 100.0)],
      .table [(.string "type", .string "line_to"), (.string "x", .float 120.0), (.string "y", .float 100.0)],
      .table [(.string "type", .string "line_to"), (.string "x", .float 120.0), (.string "y", .float 120.0)],
      .table [(.string "type", .string "line_to"), (.string "x", .float 100.0), (.string "y", .float 120.0)],
      .table [(.string "type", .string "close")]])]

theorem twoSquares_not_measured_as_drawn :
    drawnData twoSquares = .ok squareData ∧
      Position.centre (.table twoSquares) = .ok ⟨110.0, 110.0⟩ ∧
      centreOfData squareData = .ok ⟨5.0, 5.0⟩ ∧ (⟨110.0, 110.0⟩ : Point) ≠ ⟨5.0, 5.0⟩ :=
  ⟨rfl, Outcome.toOption_eq_some.mp (by decide +kernel), Outcome.toOption_eq_some.mp (by decide +kernel),
    by decide +kernel⟩

theorem twoSquares_centre_of_other_source :
    Table.field? twoSquares "type" = some (.string "path") ∧ drawnData twoSquares = .ok squareData ∧
      Position.centre (.table twoSquares) = .ok ⟨110.0, 110.0⟩ ∧
      ∃ source, DrawnWith twoSquares squareData source ∧ source.centre ≠ .ok ⟨110.0, 110.0⟩ := by
  have hcentre : Position.centre (.table twoSquares) = .ok ⟨110.0, 110.0⟩ :=
    Outcome.toOption_eq_some.mp (by decide +kernel)
  obtain ⟨source, hsource, hiff⟩ := measured_as_drawn_iff rfl rfl hcentre
  refine ⟨rfl, rfl, hcentre, source, hsource, ?_⟩
  rw [ne_eq, hiff]
  intro hagree
  cases hsource with
  | data _ _ =>
      have hsame := congrArg Except.toOption (hagree squareData _ rfl rfl rfl)
      exact absurd hsame (by decide +kernel)
  | segments hdata _ _ _ _ _ => rcases hdata with hdata | hdata <;> cases hdata

end Outline
end SvgDiagram
