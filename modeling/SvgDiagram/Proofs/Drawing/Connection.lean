import SvgDiagram.Drawing.Draw
import SvgDiagram.Proofs.Element.Reading
import SvgDiagram.Proofs.Position.Pass

/-!
Connections meet what is drawn. The centre of an element is found in its table, and its node is drawn
from the fields that are read from the same table; wherever both are there, they agree. So the line of
a connection runs between the centres of the nodes that are drawn for its two ends.
-/

namespace SvgDiagram

namespace Drawing

open Position (isLink links shapes linked joined centreNamed? hasTextId Placement IsLast)

/-- Where a connection meets a shape. -/
def Shape.centre? : Shape → Option Point
  | .circle cx cy _ | .ellipse cx cy _ _ => some ⟨cx, cy⟩
  | .rectangle x y width height => some ⟨x + width / 2, y + height / 2⟩
  | .text _ _ x y => some ⟨x, y⟩
  | _ => none

def Shape.isText : Shape → Bool
  | .text .. => true
  | _ => false

/-- Where a connection meets a node: a text may be in a group, in front of its panel. -/
def Node.centre? (n : Node) : Option Point :=
  match n.shape with
  | .group => (n.children.find? fun child => child.shape.isText).bind fun child => child.shape.centre?
  | shape => shape.centre?

/-- The types of the elements whose centre is drawn. -/
def centredTypes : List String := ["circle", "ellipse", "rectangle", "text"]

def isCentred (t : Table) : Bool :=
  match Table.field? t "type" with
  | some (.string kind) => centredTypes.contains kind
  | _ => false

theorem isCentred_placed (env : List Table) (t : Table) :
    isCentred (Position.placed env t) = isCentred t := by
  have htype : Position.attributes.contains "type" = false := by decide
  simp only [isCentred, Position.field?_placed_eq htype]

/-- Two coordinates that are found in a table are those that are read from it. -/
theorem eq_of_pairOf {t : Table} {x y : String} {p : Point}
    (hp : Position.pairOf (.table t) x y = .ok p) {a b c d : Float}
    (ha : Field.realOr t [x] c = .ok a) (hb : Field.realOr t [y] d = .ok b) : Point.mk a b = p := by
  simp only [Position.pairOf, Outcome.bind_eq_ok, Value.part_eq_ok, Outcome.pure_eq_ok] at hp
  obtain ⟨v, ⟨_, ⟨⟩, hv⟩, px, hx, w, ⟨_, ⟨⟩, hw⟩, py, hy, ⟨⟩⟩ := hp
  rw [Field.realOr_of_field? hv hx ha, Field.realOr_of_field? hw hy hb]

theorem centre?_circleOf {t : Table} {e : Element} {p : Point}
    (hp : Position.pairOf (.table t) "cx" "cy" = .ok p) (he : Element.circleOf t = .ok e) :
    (draw e).centre? = some p := by
  simp only [Element.circleOf, Outcome.bind_eq_ok, Outcome.pure_eq_ok] at he
  obtain ⟨cx, hcx, cy, hcy, r, -, style, -, animations, -, ⟨⟩⟩ := he
  rw [draw, ← eq_of_pairOf hp hcx hcy]
  rfl

theorem centre?_ellipseOf {t : Table} {e : Element} {p : Point}
    (hp : Position.pairOf (.table t) "cx" "cy" = .ok p) (he : Element.ellipseOf t = .ok e) :
    (draw e).centre? = some p := by
  simp only [Element.ellipseOf, Outcome.bind_eq_ok, Outcome.pure_eq_ok] at he
  obtain ⟨cx, hcx, cy, hcy, rx, -, ry, -, style, -, animations, -, ⟨⟩⟩ := he
  rw [draw, ← eq_of_pairOf hp hcx hcy]
  rfl

theorem centre?_rectangleOf {t : Table} {e : Element} {p : Point}
    (hp : Position.rectangleCentre (.table t) = .ok p) (he : Element.rectangleOf t = .ok e) :
    (draw e).centre? = some p := by
  simp only [Position.rectangleCentre, Outcome.bind_eq_ok, Outcome.pure_eq_ok] at hp
  obtain ⟨corner, hcorner, size, hsize, ⟨⟩⟩ := hp
  simp only [Element.rectangleOf, Outcome.bind_eq_ok, Outcome.pure_eq_ok] at he
  obtain ⟨x, hx, y, hy, width, hwidth, height, hheight, rx, -, ry, -, style, -, animations, -,
    ⟨⟩⟩ := he
  rw [draw, ← eq_of_pairOf hcorner hx hy, ← eq_of_pairOf hsize hwidth hheight]
  rfl

theorem centre?_label (l : Label) (animations : List Node) :
    (label l animations).centre? = some ⟨l.x, l.y⟩ := by
  simp only [label]
  cases l.panel with
  | none => rfl
  | some colour => rfl

theorem centre?_labelOf {t : Table} {e : Element} {p : Point}
    (hp : Position.pairOf (.table t) "x" "y" = .ok p) (he : Element.labelOf t = .ok e) :
    (draw e).centre? = some p := by
  simp only [Element.labelOf, Outcome.bind_eq_ok, Outcome.pure_eq_ok] at he
  obtain ⟨l, hl, animations, -, ⟨⟩⟩ := he
  rw [draw, centre?_label, ← eq_of_pairOf hp (Label.x_of_ofTable hl) (Label.y_of_ofTable hl)]

/-- An element whose centre is drawn is read as what its type says. -/
theorem read_cases {t : Table} (ht : isCentred t = true) {e : Element}
    (he : Element.ofValue (.table t) = .ok e) :
    (Table.field? t "type" = some (.string "circle") ∧ Element.circleOf t = .ok e) ∨
    (Table.field? t "type" = some (.string "ellipse") ∧ Element.ellipseOf t = .ok e) ∨
    (Table.field? t "type" = some (.string "rectangle") ∧ Element.rectangleOf t = .ok e) ∨
    (Table.field? t "type" = some (.string "text") ∧ Element.labelOf t = .ok e) := by
  simp only [isCentred] at ht
  split at ht
  · rename_i kind hkind
    simp only [centredTypes, List.contains_cons, List.contains_nil, Bool.or_false, Bool.or_eq_true,
      beq_iff_eq] at ht
    have hgroup : Table.field? t "type" ≠ some (.string "group") := by
      rw [hkind]
      rintro ⟨⟩
      simp at ht
    obtain ⟨name, read, hname, hread, he⟩ := Element.exists_reader_of_ofValue hgroup he
    cases hkind.symm.trans hname
    obtain rfl | rfl | rfl | rfl := ht
    · cases hread
      exact .inl ⟨hkind, he⟩
    · cases hread
      exact .inr (.inl ⟨hkind, he⟩)
    · cases hread
      exact .inr (.inr (.inl ⟨hkind, he⟩))
    · cases hread
      exact .inr (.inr (.inr ⟨hkind, he⟩))
  · cases ht

/-- The centre that is found in the table of an element is that of the node that is drawn from it. -/
theorem centre?_draw {t : Table} (ht : isCentred t = true) {e : Element} {p : Point}
    (hp : Position.centre (.table t) = .ok p) (he : Element.ofValue (.table t) = .ok e) :
    (draw e).centre? = some p := by
  obtain ⟨hkind, he⟩ | ⟨hkind, he⟩ | ⟨hkind, he⟩ | ⟨hkind, he⟩ := read_cases ht he
  all_goals simp only [Position.centre, Value.entries, Outcome.ok_bind, hkind, Option.getD_some] at hp
  · exact centre?_circleOf hp he
  · exact centre?_ellipseOf hp he
  · exact centre?_rectangleOf hp he
  · exact centre?_labelOf hp he

theorem isLink_iff (t : Table) :
    isLink t = true ↔ Table.field? t "type" = some (.string "connection") := by
  cases h : Table.field? t "type" with
  | none => simp [isLink, h]
  | some kind =>
      cases kind with
      | string s => simp [isLink, h, Value.isText]
      | _ => simp [isLink, h, Value.isText]

/-- A connection between two points is drawn as the line between them. -/
theorem shape_draw_linked {c : Table} (hc : isLink c = true) {a b : Point} {e : Element}
    (he : Element.ofValue (.table (linked c a b)) = .ok e) :
    (draw e).shape = .line (.float a.x) (.float a.y) (.float b.x) (.float b.y) := by
  have hkind : Table.field? (linked c a b) "type" = some (.string "connection") := by
    simpa [linked, Table.field?_setField] using (isLink_iff c).mp hc
  have hread : Element.connectionOf (linked c a b) = .ok e := by
    obtain ⟨name, read, hname, hread, he⟩ := Element.exists_reader_of_ofValue (by simp [hkind]) he
    cases hkind.symm.trans hname
    cases hread
    exact he
  have hparts : (Value.table (linked c a b)).part "x1" = .ok (.float a.x) ∧
      (Value.table (linked c a b)).part "y1" = .ok (.float a.y) ∧
      (Value.table (linked c a b)).part "x2" = .ok (.float b.x) ∧
      (Value.table (linked c a b)).part "y2" = .ok (.float b.y) := by
    simp [Value.part_eq_ok, linked, Table.field?_setField]
  obtain ⟨hx1, hy1, hx2, hy2⟩ := hparts
  simp only [Element.connectionOf, hx1, hy1, hx2, hy2, Outcome.bind_eq_ok, Outcome.ok_bind,
    Outcome.pure_eq_ok] at hread
  obtain ⟨source, -, target, -, style, -, arrow, -, animations, -, ⟨⟩⟩ := hread
  rw [draw]
  rfl

/-- A list of elements is drawn node by node. -/
theorem getElem?_drawAll {vs : List Value} {elements : List Element}
    (h : Element.ofList vs = .ok elements) {n : Nat} {v : Value} (hv : vs[n]? = some v) :
    ∃ e, Element.ofValue v = .ok e ∧ (drawAll elements)[n]? = some (draw e) := by
  induction vs generalizing elements n with
  | nil => cases hv
  | cons w vs ih =>
      simp only [Element.ofList, Outcome.bind_eq_ok, Outcome.pure_eq_ok] at h
      obtain ⟨e, he, rest, hrest, ⟨⟩⟩ := h
      cases n with
      | zero =>
          cases hv
          exact ⟨e, he, by simp [drawAll]⟩
      | succ n => simpa [drawAll] using ih hrest (by simpa using hv)

def tableOf? : Value → Option Table
  | .table t => some t
  | _ => none

/-- The elements that a scene gives. -/
def elementsOf (scene : Value) : List Table :=
  match scene with
  | .table entries =>
    match ((Table.field? entries "elements").getD (.list [])).items with
    | .ok items => items.filterMap tableOf?
    | .error _ => []
  | _ => []

theorem eq_map_of_split {items : List Value} {parts : List Value × List Value}
    (h : Position.split items = .ok parts) : items = (items.filterMap tableOf?).map .table := by
  obtain ⟨es, rfl⟩ := Position.exists_tables_of_split h
  simp [tableOf?, Function.comp_def]

/-- The nodes of a drawing are those of the arranged elements of its scene. -/
theorem placement_of_ofScene {scene : Value} {d : Drawing} (h : ofScene scene = .ok d)
    (hid : ∀ t ∈ shapes (elementsOf scene), hasTextId t = true) :
    ∃ env elements, Placement (elementsOf scene) env ∧
      Element.ofList (Position.arranged (elementsOf scene) env) = .ok elements ∧
        d.elements = drawAll elements := by
  simp only [ofScene, Outcome.bind_eq_ok, Outcome.pure_eq_ok] at h
  obtain ⟨entries, hentries, out, hout, elements, helements, ⟨⟩⟩ := h
  have hscene : scene = .table entries := by
    cases scene with
    | table t =>
        cases hentries
        rfl
    | _ => cases hentries
  subst hscene
  -- The positions were resolved, so every item could be asked for its type: it is a table.
  have hresolve := hout
  simp only [Position.resolve, Outcome.bind_eq_ok] at hresolve
  obtain ⟨items, hitems, parts, hparts, -⟩ := hresolve
  have htables : items = (elementsOf (.table entries)).map .table := by
    simp only [elementsOf, hitems]
    exact eq_map_of_split hparts
  obtain ⟨env, henv, rfl⟩ := Position.placement_of_resolve (hitems.trans (by rw [htables])) hid hout
  exact ⟨env, elements, henv, helements, rfl⟩

section

variable {es env : List Table} {elements : List Element}

/-- The line of a connection runs between the centres of its two ends. -/
theorem shape_drawAll_link (h : Element.ofList (Position.arranged es env) = .ok elements) {k : Nat}
    {c : Table} (hc : (links es)[k]? = some c) {a b : Point}
    (ha : centreNamed? env (Table.field? c "from") = some a)
    (hb : centreNamed? env (Table.field? c "to") = some b) :
    ∃ line, (drawAll elements)[k]? = some line ∧
      line.shape = .line (.float a.x) (.float a.y) (.float b.x) (.float b.y) := by
  have hlt : k < (links es).length := (List.getElem?_eq_some_iff.mp hc).1
  have hk : (Position.arranged es env)[k]? = some (.table (linked c a b)) := by
    rw [Position.arranged, List.getElem?_map, List.getElem?_append_left (by simpa using hlt),
      List.getElem?_map, hc]
    simp [joined, ha, hb]
  obtain ⟨e, he, hline⟩ := getElem?_drawAll h hk
  exact ⟨draw e, hline, shape_draw_linked (List.mem_filter.mp (List.mem_of_getElem? hc)).2 he⟩

/-- A shape is drawn in its place, after the connections. -/
theorem exists_drawn_shape (h : Element.ofList (Position.arranged es env) = .ok elements)
    (henv : Placement es env) {i : Nat} {t : Table} (ht : (shapes es)[i]? = some t) :
    ∃ e, Element.ofValue (.table (Position.placed (env.take i) t)) = .ok e ∧
      (drawAll elements)[(links es).length + i]? = some (draw e) := by
  have hplace : env[i]? = some (Position.placed (env.take i) t) := by
    rw [henv.placed_before, ht]
    rfl
  apply getElem?_drawAll h
  simp [Position.arranged, List.getElem?_append_right, hplace]

/-- The element that an end of a connection names is drawn around its centre. -/
theorem centre?_drawAll_shape (h : Element.ofList (Position.arranged es env) = .ok elements)
    (henv : Placement es env) {id : String} {i : Nat} {t : Table} (ht : IsLast (shapes es) id i t)
    (hcentred : isCentred t = true) {p : Point} (hp : centreNamed? env (some (.string id)) = some p) :
    ∃ node, (drawAll elements)[(links es).length + i]? = some node ∧ node.centre? = some p := by
  obtain ⟨e, he, hnode⟩ := exists_drawn_shape h henv ht.at_index
  refine ⟨draw e, hnode, centre?_draw ?_ ?_ he⟩
  · rw [isCentred_placed]
    exact hcentred
  · simp only [centreNamed?, henv.named?_eq ht, Option.bind_eq_bind, Option.bind_some] at hp
    exact Outcome.toOption_eq_some.mp hp

end

/-- In every drawing, the line of a connection between circles, ellipses, rectangles and texts runs
between the centres of the nodes that are drawn for the last elements with the ids it names. -/
theorem connection_meets_drawn_nodes {scene : Value} {d : Drawing} (hd : ofScene scene = .ok d)
    (hid : ∀ t ∈ shapes (elementsOf scene), hasTextId t = true) {k i j : Nat} {c s t : Table}
    {source target : String} (hc : (links (elementsOf scene))[k]? = some c)
    (hfrom : Table.field? c "from" = some (.string source))
    (hto : Table.field? c "to" = some (.string target))
    (hs : IsLast (shapes (elementsOf scene)) source i s) (hscentred : isCentred s = true)
    (ht : IsLast (shapes (elementsOf scene)) target j t) (htcentred : isCentred t = true) :
    ∃ line m n a b, d.elements[k]? = some line ∧
      d.elements[(links (elementsOf scene)).length + i]? = some m ∧ m.centre? = some a ∧
      d.elements[(links (elementsOf scene)).length + j]? = some n ∧ n.centre? = some b ∧
        line.shape = .line (.float a.x) (.float a.y) (.float b.x) (.float b.y) := by
  obtain ⟨env, elements, henv, helements, hnodes⟩ := placement_of_ofScene hd hid
  have hjoins := henv.joins c (List.mem_of_getElem? hc)
  obtain ⟨a, ha⟩ := Option.isSome_iff_exists.mp hjoins.1
  obtain ⟨b, hb⟩ := Option.isSome_iff_exists.mp hjoins.2
  obtain ⟨line, hline, hshape⟩ := shape_drawAll_link helements hc ha hb
  rw [hfrom] at ha
  rw [hto] at hb
  obtain ⟨m, hm, hma⟩ := centre?_drawAll_shape helements henv hs hscentred ha
  obtain ⟨n, hn, hnb⟩ := centre?_drawAll_shape helements henv ht htcentred hb
  rw [hnodes]
  exact ⟨line, m, n, a, b, hline, hm, hma, hn, hnb, hshape⟩

/-- A circle that places the text. -/
def placingCircle : Table :=
  Position.ofFields [("type", .string "circle"), ("id", .string "a"), ("cx", .int 10), ("cy", .int 20)]

/-- A text in front of a panel. -/
def paneledText : Table :=
  Position.ofFields [("type", .string "text"), ("id", .string "b"), ("x", .string "a.cx + 2.5"),
    ("y", .string "a.cy"), ("text", .string "note"), ("background", .string "white")]

/-- A rectangle with the id of the circle, placed by the text. -/
def laterRectangle : Table :=
  Position.ofFields [("type", .string "rectangle"), ("id", .string "a"), ("x", .string "b.x - 1"),
    ("y", .int 4), ("width", .int 30), ("height", .float 10.5)]

def textToRectangle : Table :=
  Position.ofFields [("type", .string "connection"), ("from", .string "b"), ("to", .string "a")]

def paneledScene : Value :=
  .table (Position.ofFields [("elements",
    .list ([placingCircle, paneledText, textToRectangle, laterRectangle].map .table))])

theorem textToRectangle_meets_drawn_nodes :
    ∃ d line m n a b, ofScene paneledScene = .ok d ∧ d.elements[0]? = some line ∧
      d.elements[2]? = some m ∧ m.centre? = some a ∧ d.elements[3]? = some n ∧ n.centre? = some b ∧
        line.shape = .line (.float a.x) (.float a.y) (.float b.x) (.float b.y) := by
  have hsome : (ofScene paneledScene).toOption.isSome = true := by decide +kernel
  obtain ⟨d, hd⟩ := Option.isSome_iff_exists.mp hsome
  have hok := Outcome.toOption_eq_some.mp hd
  have hid : ∀ t ∈ shapes (elementsOf paneledScene), hasTextId t = true := by decide +kernel
  have hs : IsLast (shapes (elementsOf paneledScene)) "b" 1 paneledText :=
    Position.isLast_append [placingCircle] [laterRectangle] (by decide +kernel) (by decide +kernel)
  have ht : IsLast (shapes (elementsOf paneledScene)) "a" 2 laterRectangle :=
    Position.isLast_append [placingCircle, paneledText] [] (by decide +kernel) (by decide +kernel)
  have hc : (links (elementsOf paneledScene))[0]? = some textToRectangle := by rfl
  obtain ⟨line, m, n, a, b, h⟩ := connection_meets_drawn_nodes hok hid hc (by rfl) (by rfl)
    hs (by decide +kernel) ht (by decide +kernel)
  exact ⟨d, line, m, n, a, b, hok, h⟩

end Drawing
end SvgDiagram
