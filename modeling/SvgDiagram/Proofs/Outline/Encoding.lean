import SvgDiagram.Element.Source
import SvgDiagram.Outline.Centre
import SvgDiagram.Proofs.Element.Field
import SvgDiagram.Proofs.Number.Positional
import SvgDiagram.Proofs.Outline.Layout

/-!
Segments and the data they are drawn with have the same end points. The data of a segment is its letter
and the texts of its numbers with a comma or a blank between them, so it is read back as that letter with
those numbers; they make one group, which ends with the end point of the segment. Main statement: a list
of segments that ends by closing the outline has the same centre as its data.
-/

namespace SvgDiagram

/-- A number that is written without an exponent and read back from its text. -/
def Number.Legible (x : Float) : Prop := Positional x ∧ readFloat? (written x) = some x

instance (x : Float) : Decidable (Number.Legible x) := inferInstanceAs (Decidable (_ ∧ _))

namespace Outline

theorem numeralText_written {x : Float} (h : Number.Positional x) :
    NumeralText (Number.written x).toList := by
  obtain ⟨sign, _, htext, hsign, whole, fraction, rfl, _, hne, hw, hf⟩ := Number.written_positional h
  rw [htext]
  apply NumeralText.fraction
  · exact hsign.imp_right .inl
  · exact fun c hc => Text.isDigit_of_ascii (hw c hc)
  · exact fun c hc => Text.isDigit_of_ascii (hf c hc)
  · exact hne

/-- A text with the number that it is read as. -/
structure Reads (text : String) (x : Float) : Prop where
  numeral : NumeralText text.toList
  value : Number.readFloat? text = some x

theorem reads_written {x : Float} (h : Number.Legible x) : Reads (Number.written x) x :=
  ⟨numeralText_written h.1, h.2⟩

theorem numeralText_digit {c : Char} (h : Text.isDigit c = true) : NumeralText [c] :=
  .whole (.inl rfl) (by simpa using h) (by simp)

def flagNumber (b : Bool) : Float := if b then 1.0 else 0.0

theorem reads_flagText (b : Bool) : Reads (flagText b) (flagNumber b) := by
  cases b with
  | false => exact ⟨numeralText_digit (by decide), by decide +kernel⟩
  | true => exact ⟨numeralText_digit (by decide), by decide +kernel⟩

theorem reads_rotationText {rotation : Option Float} (h : ∀ r ∈ rotation, Number.Legible r) :
    Reads (rotationText rotation) (rotation.getD 0.0) := by
  cases rotation with
  | none => exact ⟨numeralText_digit (by decide), by decide +kernel⟩
  | some r => exact reads_written (h r rfl)

theorem LaidOut.spaced {n : List Char} {c : Char} {ps : List Piece} {cs : List Char}
    (hn : NumeralText n) (hc : isGap c = true) (h : LaidOut ps cs) :
    LaidOut (.numeral n :: ps) (n ++ c :: cs) :=
  .numeral hn (apart_gap hc) (.gap hc h)

/-- Numbers that make one group lead to the point that ends it. -/
theorem endPoints_group {c : Char} (kind : CommandKind) {numbers : List Float} {p : Point}
    (hkind : CommandKind.ofText? [c] = some kind) (hsize : kind.groupSize? = some numbers.length)
    (hend : groupEnd? numbers = some p) : endPoints [c] numbers = [p] := by
  have hpos : 0 < numbers.length := by
    cases numbers with
    | nil => simp [groupEnd?] at hend
    | cons x xs => exact Nat.succ_pos _
  have hgroups : groups numbers.length numbers = [numbers] := by
    rw [groups, dif_pos ⟨hpos, le_rfl⟩, List.take_length, List.drop_length, groups, dif_neg]
    exact fun h => absurd h.2 (not_le.mpr hpos)
  simp [endPoints, hkind, CommandKind.endPoints, hsize, hgroups, hend]

theorem data_cons_cons (s t : Segment) (rest : List Segment) :
    (data (s :: t :: rest)).toList = s.data.toList ++ ' ' :: (data (t :: rest)).toList := by
  simp [data, String.toList_intercalate]

theorem readings_eq {ns : List (String × Float)} (h : ∀ n ∈ ns, Reads n.1 n.2) :
    readings (ns.map fun n => n.1.toList) = ns.map Prod.snd := by
  induction ns with
  | nil => rfl
  | cons n ns ih =>
      rw [List.forall_mem_cons] at h
      have hrest := ih h.2
      unfold readings at hrest ⊢
      simp [h.1.value, hrest]

def paired (x : Float) : String × Float := (Number.written x, x)

theorem reads_paired {xs : List Float} (h : ∀ x ∈ xs, Number.Legible x) :
    ∀ n ∈ xs.map paired, Reads n.1 n.2 := by
  intro n hn
  obtain ⟨x, hx, rfl⟩ := List.mem_map.mp hn
  exact reads_written (h x hx)

namespace Segment

def letter : Segment → Char
  | .move .. => 'M'
  | .line .. => 'L'
  | .cubic .. => 'C'
  | .quadratic .. => 'Q'
  | .arc .. => 'A'
  | .close => 'Z'

def reals : Segment → List Float
  | .move x y | .line x y => [x, y]
  | .cubic x1 y1 x2 y2 x y => [x1, y1, x2, y2, x, y]
  | .quadratic x1 y1 x y => [x1, y1, x, y]
  | .arc rx ry rotation _ _ x y => [rx, ry] ++ rotation.toList ++ [x, y]
  | .close => []

def Legible (s : Segment) : Prop := ∀ x ∈ s.reals, Number.Legible x

instance (s : Segment) : Decidable s.Legible := inferInstanceAs (Decidable (∀ x ∈ s.reals, _))

/-- The texts of its numbers, each with the number that it stands for. -/
def numbers : Segment → List (String × Float)
  | .arc rx ry rotation large sweep x y =>
    [rx, ry].map paired ++ [(rotationText rotation, rotation.getD 0.0),
      (flagText large, flagNumber large), (flagText sweep, flagNumber sweep)] ++ [x, y].map paired
  | s => s.reals.map paired

def endPoint? : Segment → Option Point
  | .move x y | .line x y | .cubic _ _ _ _ x y | .quadratic _ _ x y | .arc _ _ _ _ _ x y =>
    some ⟨x, y⟩
  | .close => none

theorem reads_numbers {s : Segment} (h : s.Legible) : ∀ n ∈ s.numbers, Reads n.1 n.2 := by
  cases s with
  | arc rx ry rotation large sweep x y =>
      simp only [Legible, reals, List.forall_mem_append] at h
      obtain ⟨⟨hradii, hrotation⟩, hpoint⟩ := h
      simp only [numbers, List.forall_mem_append]
      refine ⟨⟨reads_paired hradii, ?_⟩, reads_paired hpoint⟩
      have hr := reads_rotationText fun r hr => hrotation r (by simpa using hr)
      simp [hr, reads_flagText]
  | move _ _ | line _ _ | cubic _ _ _ _ _ _ | quadratic _ _ _ _ | close => exact reads_paired h

/-- The data of a segment, in front of a text that does not continue its last number. -/
theorem laidOut_data {s : Segment} (h : s.Legible) {ps : List Piece} {cs : List Char}
    (hcs : Apart cs) (hps : LaidOut ps cs) :
    LaidOut (commandPieces s.letter (s.numbers.map fun n => n.1.toList) ++ ps)
      (s.data.toList ++ cs) := by
  have hr : ∀ n ∈ s.numbers, NumeralText n.1.toList := fun n hn => (reads_numbers h n hn).numeral
  have comma : isGap ',' = true := by decide
  have blank : isGap ' ' = true := by decide
  cases s <;>
    simp only [numbers, reals, paired, List.map_cons, List.map_nil, List.cons_append, List.nil_append,
      List.forall_mem_cons, commandPieces, letter, data, pairText, String.toList_append,
      List.append_assoc] at hr ⊢
  case move x y =>
    obtain ⟨hx, hy, -⟩ := hr
    exact .letter (by decide) (.spaced hx comma (.numeral hy hcs hps))
  case line x y =>
    obtain ⟨hx, hy, -⟩ := hr
    exact .letter (by decide) (.spaced hx comma (.numeral hy hcs hps))
  case cubic x1 y1 x2 y2 x y =>
    obtain ⟨hx1, hy1, hx2, hy2, hx, hy, -⟩ := hr
    exact .letter (by decide) (.spaced hx1 comma (.spaced hy1 blank (.spaced hx2 comma
      (.spaced hy2 blank (.spaced hx comma (.numeral hy hcs hps))))))
  case quadratic x1 y1 x y =>
    obtain ⟨hx1, hy1, hx, hy, -⟩ := hr
    exact .letter (by decide) (.spaced hx1 comma (.spaced hy1 blank (.spaced hx comma
      (.numeral hy hcs hps))))
  case arc rx ry rotation large sweep x y =>
    obtain ⟨hrx, hry, hrot, hlarge, hsweep, hx, hy, -⟩ := hr
    exact .letter (by decide) (.spaced hrx comma (.spaced hry blank (.spaced hrot blank
      (.spaced hlarge blank (.spaced hsweep blank (.spaced hx comma (.numeral hy hcs hps)))))))
  case close =>
    exact .letter (by decide) hps

theorem endPoints_numbers (s : Segment) :
    endPoints [s.letter] (s.numbers.map Prod.snd) = s.endPoint?.toList := by
  cases s with
  | move x y => exact endPoints_group .move rfl rfl rfl
  | line x y => exact endPoints_group .line rfl rfl rfl
  | cubic x1 y1 x2 y2 x y => exact endPoints_group .cubic rfl rfl rfl
  | quadratic x1 y1 x y => exact endPoints_group .quadratic rfl rfl rfl
  | arc rx ry rotation large sweep x y => exact endPoints_group .arc rfl rfl rfl
  | close => rfl

end Segment

theorem laidOut_data {ss : List Segment} (h : ∀ s ∈ ss, s.Legible) :
    LaidOut ((ss.map fun s => (s.letter, s.numbers.map fun n => n.1.toList)).flatMap fun c =>
      commandPieces c.1 c.2) (data ss).toList := by
  induction ss with
  | nil => exact .nil
  | cons s rest ih =>
      rw [List.forall_mem_cons] at h
      have hrest := ih h.2
      rw [List.map_cons, List.flatMap_cons]
      -- Nothing follows the last segment, and a blank every other one: neither continues a number.
      cases rest with
      | nil =>
          have hone := Segment.laidOut_data h.1 (by simp [Apart]) .nil
          simpa [data] using hone
      | cons t rest =>
          have hblank : isGap ' ' = true := by decide
          rw [data_cons_cons]
          exact Segment.laidOut_data h.1 (apart_gap hblank) (.gap hblank hrest)

theorem points_data {ss : List Segment} (h : ∀ s ∈ ss, s.Legible) :
    points (data ss) = ss.filterMap Segment.endPoint? := by
  rw [points, (laidOut_data h).commands_eq, List.map_map, List.flatMap_map]
  induction ss with
  | nil => rfl
  | cons s rest ih =>
      rw [List.forall_mem_cons] at h
      rw [List.flatMap_cons, ih h.2]
      simp only [Function.comp_apply, readings_eq (Segment.reads_numbers h.1),
        Segment.endPoints_numbers]
      cases hp : s.endPoint? <;> simp [hp]

theorem isClosed_data {ss : List Segment} (h : ss.getLast? = some .close) :
    isClosed (data ss) = true := by
  have hlast : ∃ cs, (data ss).toList = cs ++ ['Z'] := by
    induction ss with
    | nil => simp at h
    | cons s rest ih =>
        cases rest with
        | nil =>
            obtain rfl : s = .close := by simpa using h
            exact ⟨[], rfl⟩
        | cons t rest =>
            rw [List.getLast?_cons_cons] at h
            obtain ⟨cs, hcs⟩ := ih h
            exact ⟨s.data.toList ++ ' ' :: cs, by simp [data_cons_cons, hcs]⟩
  obtain ⟨cs, hcs⟩ := hlast
  have hblank : Text.isBlank 'Z' = false := by decide
  simp [isClosed, hcs, Text.stripEnd, hblank]

/-! ## Segments in tables -/

/-- A table that is read as a segment closes the outline, or ends in the point that it gives. -/
theorem Segment.ofTable_cases {t : Table} {s : Segment} (h : Segment.ofTable t = .ok s) :
    (Table.field? t "type" = some (.string "close") ∧ s = .close) ∨
      ∃ kind ∈ pointed, Table.field? t "type" = some (.string kind) ∧
        ∃ x y, Field.real t ["x"] = .ok x ∧ Field.real t ["y"] = .ok y ∧
          s.endPoint? = some ⟨x, y⟩ := by
  unfold Segment.ofTable at h
  simp only [Outcome.pure_eq_ok] at h
  split at h
  · rename_i hkind
    simp only [Outcome.bind_eq_ok, Except.ok.injEq] at h
    obtain ⟨x, hx, y, hy, rfl⟩ := h
    exact .inr ⟨_, by decide, hkind, x, y, hx, hy, rfl⟩
  · rename_i hkind
    simp only [Outcome.bind_eq_ok, Except.ok.injEq] at h
    obtain ⟨x, hx, y, hy, rfl⟩ := h
    exact .inr ⟨_, by decide, hkind, x, y, hx, hy, rfl⟩
  · rename_i hkind
    simp only [Outcome.bind_eq_ok, Except.ok.injEq] at h
    obtain ⟨_, _, _, _, _, _, _, _, x, hx, y, hy, rfl⟩ := h
    exact .inr ⟨_, by decide, hkind, x, y, hx, hy, rfl⟩
  · rename_i hkind
    simp only [Outcome.bind_eq_ok, Except.ok.injEq] at h
    obtain ⟨_, _, _, _, x, hx, y, hy, rfl⟩ := h
    exact .inr ⟨_, by decide, hkind, x, y, hx, hy, rfl⟩
  · rename_i hkind
    simp only [Outcome.bind_eq_ok, Except.ok.injEq] at h
    obtain ⟨_, _, _, _, _, _, _, _, _, _, x, hx, y, hy, rfl⟩ := h
    exact .inr ⟨_, by decide, hkind, x, y, hx, hy, rfl⟩
  · rename_i hkind
    cases h
    exact .inl ⟨hkind, rfl⟩
  · cases h

theorem hasKind_table {t : Table} {kind : String} (h : Table.field? t "type" = some (.string kind))
    (kinds : List String) : hasKind kinds (.table t) = .ok (kinds.contains kind) := by
  simp [hasKind, Value.part?, Value.entries, h]

def Segment.IsRead (v : Value) (s : Segment) : Prop :=
  (do Segment.ofTable (← Field.accepted (Field.asTable? v))) = .ok s

theorem Segment.IsRead.table {v : Value} {s : Segment} (h : IsRead v s) :
    ∃ t, v = .table t ∧ Segment.ofTable t = .ok s := by
  cases v with
  | table t => exact ⟨t, rfl, h⟩
  | _ => cases h

theorem segmentPoints_eq {vs : List Value} {ss : List Segment}
    (h : List.Forall₂ Segment.IsRead vs ss) :
    segmentPoints vs = .ok (ss.filterMap Segment.endPoint?) := by
  induction h with
  | nil => rfl
  | cons hs _ ih =>
      obtain ⟨t, rfl, hs⟩ := hs.table
      obtain ⟨hkind, rfl⟩ | ⟨kind, hmem, hkind, x, y, hx, hy, hpoint⟩ := Segment.ofTable_cases hs
      · rw [segmentPoints, hasKind_table hkind]
        exact ih
      · obtain ⟨vx, hvx, hfx⟩ := Field.part_of_real hx
        obtain ⟨vy, hvy, hfy⟩ := Field.part_of_real hy
        have hpointed : pointed.contains kind = true := by simpa using hmem
        rw [segmentPoints, hasKind_table hkind, hpointed]
        simp [hvx, hfx, hvy, hfy, ih, hpoint]

theorem pointed_ne_close : ∀ kind ∈ pointed, ["close"].contains kind = false := by decide

theorem closes_eq {vs : List Value} {ss : List Segment} (h : List.Forall₂ Segment.IsRead vs ss)
    (hc : .close ∈ ss) : closes vs = .ok true := by
  induction h with
  | nil => simp at hc
  | cons hs _ ih =>
      obtain ⟨t, rfl, hs⟩ := hs.table
      obtain ⟨hkind, rfl⟩ | ⟨kind, hmem, hkind, x, y, hx, hy, hpoint⟩ := Segment.ofTable_cases hs
      · rw [closes, hasKind_table hkind]
        rfl
      · rw [closes, hasKind_table hkind, pointed_ne_close kind hmem]
        apply ih
        apply List.mem_of_ne_of_mem _ hc
        rintro rfl
        simp [Segment.endPoint?] at hpoint

/-- A list of segments that ends by closing the outline has the centre of its data. -/
theorem centreOfData_data {vs : List Value} {ss : List Segment}
    (hs : (vs.mapM fun v => do Segment.ofTable (← Field.accepted (Field.asTable? v))) = .ok ss)
    (hlast : ss.getLast? = some .close) (hlegible : ∀ s ∈ ss, s.Legible) :
    centreOfData (data ss) = centreOfSegments (.list vs) ∧
      ((∃ p, centreOfSegments (.list vs) = .ok p) ∨
        centreOfSegments (.list vs) = .error .noCoordinates) := by
  have hread : List.Forall₂ Segment.IsRead vs ss := Outcome.forall₂_of_mapM hs
  have hclose := closes_eq hread (List.mem_of_getLast? hlast)
  have hcentre : centreOfSegments (.list vs) = centroid (ss.filterMap Segment.endPoint?) := by
    simp [centreOfSegments, Value.items, hclose, segmentPoints_eq hread]
  constructor
  · rw [centreOfData, isClosed_data hlast, if_pos rfl, points_data hlegible, hcentre]
  · rw [hcentre, centroid]
    split
    · exact .inr rfl
    · exact .inl ⟨_, rfl⟩

/-- A lens that is closed twice, with one arc that leaves its rotation out. -/
def lens : List Value :=
  [.table [(.string "type", .string "move_to"), (.string "x", .float (-12.5)),
      (.string "y", .float 0.0001)],
    .table [(.string "type", .string "arc"), (.string "rx", .float 30.0),
      (.string "ry", .float 0.5), (.string "x", .float 123456.75), (.string "y", .float 0.0)],
    .table [(.string "type", .string "close")],
    .table [(.string "type", .string "arc"), (.string "rx", .float 30.0),
      (.string "ry", .float 0.5), (.string "rotation", .float (-0.1)),
      (.string "large_arc", .bool true), (.string "x", .float (-12.5)),
      (.string "y", .float 0.0001)],
    .table [(.string "type", .string "close")]]

def lensSegments : List Segment :=
  [.move (-12.5) 0.0001, .arc 30.0 0.5 none false true 123456.75 0.0, .close,
    .arc 30.0 0.5 (some (-0.1)) true true (-12.5) 0.0001, .close]

theorem lens_centreOfData :
    (lens.mapM fun v => do Segment.ofTable (← Field.accepted (Field.asTable? v))) = .ok lensSegments ∧
      lensSegments.getLast? = some .close ∧ (∀ s ∈ lensSegments, s.Legible) ∧
      centreOfData (data lensSegments) = centreOfSegments (.list lens) := by
  have hread : (lens.mapM fun v => do Segment.ofTable (← Field.accepted (Field.asTable? v))) =
      .ok lensSegments := rfl
  have hlegible : ∀ s ∈ lensSegments, s.Legible := by decide +kernel
  exact ⟨hread, rfl, hlegible, (centreOfData_data hread rfl hlegible).1⟩

end Outline
end SvgDiagram
