import SvgDiagram.Proofs.Drawing.Connection

/-!
Which connections can be attached to what is drawn. A shape is drawn with defaults for what its table
leaves out, and the ends of a connection have two spellings; but the centre of a shape is found from what
its table says, and only the first spelling of an end is looked at. So a connection between drawn shapes
resolves exactly if it is spelled in the first way and both shapes say where they are.
-/

namespace SvgDiagram

namespace Drawing

open Position (isLink links shapes linked joined Joins centreNamed? hasTextId Placement IsLast resolve
  arranged)

/-- The fields that the centre of a shape is found from. -/
def centreFields (t : Table) : List String :=
  match Table.field? t "type" with
  | some (.string "rectangle") => ["x", "y", "width", "height"]
  | some (.string "text") => ["x", "y"]
  | _ => ["cx", "cy"]

/-- A table has entries under all of the names. -/
def Says (t : Table) (names : List String) : Prop :=
  ∀ name ∈ names, (Table.field? t name).isSome = true

instance (t : Table) (names : List String) : Decidable (Says t names) :=
  inferInstanceAs (Decidable (∀ name ∈ names, (Table.field? t name).isSome = true))

theorem says_append (t : Table) (names others : List String) :
    Says t (names ++ others) ↔ Says t names ∧ Says t others := by
  simp only [Says, List.forall_mem_append]

theorem says_pair (t : Table) (x y : String) :
    Says t [x, y] ↔ (∃ v, Table.field? t x = some v) ∧ ∃ w, Table.field? t y = some w := by
  simp [Says, Option.isSome_iff_exists]

/-- Two coordinates that can be read are found exactly if both are said. -/
theorem exists_pairOf_iff {t : Table} {x y : String} {a b c d : Float}
    (ha : Field.realOr t [x] c = .ok a) (hb : Field.realOr t [y] d = .ok b) :
    (∃ p, Position.pairOf (.table t) x y = .ok p) ↔ Says t [x, y] := by
  simp only [Position.pairOf, Outcome.bind_eq_ok, Value.part_eq_ok, Outcome.pure_eq_ok, says_pair]
  constructor
  · rintro ⟨_, v, ⟨_, ⟨⟩, hv⟩, -, -, w, ⟨_, ⟨⟩, hw⟩, -⟩
    exact ⟨⟨v, hv⟩, ⟨w, hw⟩⟩
  · rintro ⟨⟨v, hv⟩, ⟨w, hw⟩⟩
    exact ⟨_, v, ⟨t, rfl, hv⟩, a, Field.toFloat_of_realOr hv ha, w, ⟨t, rfl, hw⟩, b,
      Field.toFloat_of_realOr hw hb, rfl⟩

theorem exists_rectangleCentre_iff {t : Table} {e : Element} (he : Element.rectangleOf t = .ok e) :
    (∃ p, Position.rectangleCentre (.table t) = .ok p) ↔ Says t ["x", "y", "width", "height"] := by
  simp only [Element.rectangleOf, Outcome.bind_eq_ok] at he
  obtain ⟨x, hx, y, hy, width, hwidth, height, hheight, -⟩ := he
  rw [show ["x", "y", "width", "height"] = ["x", "y"] ++ ["width", "height"] from rfl, says_append,
    ← exists_pairOf_iff hx hy, ← exists_pairOf_iff hwidth hheight]
  simp only [Position.rectangleCentre, Outcome.bind_eq_ok, Outcome.pure_eq_ok]
  constructor
  · rintro ⟨_, corner, hcorner, size, hsize, -⟩
    exact ⟨⟨corner, hcorner⟩, ⟨size, hsize⟩⟩
  · rintro ⟨⟨corner, hcorner⟩, ⟨size, hsize⟩⟩
    exact ⟨_, corner, hcorner, size, hsize, rfl⟩

/-- An element that is drawn has a centre exactly if it says where it is. -/
theorem exists_centre_iff {t : Table} (ht : isCentred t = true) {e : Element}
    (he : Element.ofValue (.table t) = .ok e) :
    (∃ p, Position.centre (.table t) = .ok p) ↔ Says t (centreFields t) := by
  obtain ⟨hkind, he⟩ | ⟨hkind, he⟩ | ⟨hkind, he⟩ | ⟨hkind, he⟩ := read_cases ht he
  all_goals
    simp only [Position.centre, Value.entries, Outcome.ok_bind, centreFields, hkind, Option.getD_some]
  · simp only [Element.circleOf, Outcome.bind_eq_ok] at he
    obtain ⟨cx, hcx, cy, hcy, -⟩ := he
    exact exists_pairOf_iff hcx hcy
  · simp only [Element.ellipseOf, Outcome.bind_eq_ok] at he
    obtain ⟨cx, hcx, cy, hcy, -⟩ := he
    exact exists_pairOf_iff hcx hcy
  · exact exists_rectangleCentre_iff he
  · simp only [Element.labelOf, Outcome.bind_eq_ok] at he
    obtain ⟨l, hl, -⟩ := he
    exact exists_pairOf_iff (Label.x_of_ofTable hl) (Label.y_of_ofTable hl)

/-- Placing an element adds no entries and takes none away. -/
theorem says_placed_iff (env : List Table) (t : Table) (names : List String) :
    Says (Position.placed env t) names ↔ Says t names := by
  simp only [Says, Position.field?_placed, Option.isSome_map]

theorem centreFields_placed (env : List Table) (t : Table) :
    centreFields (Position.placed env t) = centreFields t := by
  have htype : Position.attributes.contains "type" = false := by decide
  simp only [centreFields, Position.field?_placed_eq htype]

section

variable {es env : List Table} {elements : List Element}

/-- A shape that is drawn has a centre in its place exactly if its table says where it is. -/
theorem centreNamed?_isSome_iff (h : Element.ofList (arranged es env) = .ok elements)
    (henv : Placement es env) {id : String} {i : Nat} {t : Table} (ht : IsLast (shapes es) id i t)
    (hcentred : isCentred t = true) :
    (centreNamed? env (some (.string id))).isSome = true ↔ Says t (centreFields t) := by
  obtain ⟨e, he, -⟩ := exists_drawn_shape h henv ht.at_index
  have hplaced : isCentred (Position.placed (env.take i) t) = true := by
    rw [isCentred_placed]
    exact hcentred
  rw [← centreFields_placed (env.take i) t, ← says_placed_iff (env.take i),
    ← exists_centre_iff hplaced he]
  simp only [centreNamed?, henv.named?_eq ht, Option.bind_eq_bind, Option.bind_some,
    Option.isSome_iff_exists, Outcome.toOption_eq_some]

/-- An end that is attached is the text that is read for it, in the first spelling. -/
theorem field?_of_attached {c : Table} {name other id : String}
    (hid : Field.text c [name, other] = .ok id) {p : Point}
    (hp : centreNamed? env (Table.field? c name) = some p) :
    Table.field? c name = some (.string id) := by
  cases hname : Table.field? c name with
  | none =>
      rw [hname] at hp
      cases hp
  | some v =>
      rw [hname] at hp
      cases v with
      | string s =>
          rw [Field.text, Field.need_eq_ok, Field.find?_pair, hname] at hid
          cases hid
          rfl
      | _ => cases hp

/-- An end that may be spelled in two ways is attached exactly if it is a text in the first spelling, and
the shape that it names says where it is. -/
theorem end_isSome_iff (h : Element.ofList (arranged es env) = .ok elements) (henv : Placement es env)
    {c : Table} {name other id : String} (hid : Field.text c [name, other] = .ok id) {i : Nat} {t : Table}
    (ht : IsLast (shapes es) id i t) (hcentred : isCentred t = true) :
    (centreNamed? env (Table.field? c name)).isSome = true ↔
      Table.field? c name = some (.string id) ∧ Says t (centreFields t) := by
  have hsays := centreNamed?_isSome_iff h henv ht hcentred
  constructor
  · intro hsome
    obtain ⟨p, hp⟩ := Option.isSome_iff_exists.mp hsome
    have hname := field?_of_attached hid hp
    rw [hname] at hsome
    exact ⟨hname, hsays.mp hsome⟩
  · rintro ⟨hname, ht⟩
    rw [hname]
    exact hsays.mpr ht

end

theorem links_insert {c : Table} (hc : isLink c = true) (before after : List Table) :
    links (before ++ c :: after) = links before ++ c :: links after := by
  simp [links, hc]

theorem shapes_insert {c : Table} (hc : isLink c = true) (before after : List Table) :
    shapes (before ++ c :: after) = shapes (before ++ after) := by
  simp [shapes, hc]

/-- A connection more places nothing anew: it has to join what is there. -/
theorem placement_insert_iff {c : Table} (hc : isLink c = true) (before after env : List Table) :
    Placement (before ++ c :: after) env ↔ Placement (before ++ after) env ∧ Joins env c := by
  have hlinks : links (before ++ after) = links before ++ links after := List.filter_append ..
  constructor
  · rintro ⟨hplaced, hmeant, hjoins⟩
    rw [shapes_insert hc] at hplaced hmeant
    simp only [links_insert hc, List.forall_mem_append, List.forall_mem_cons] at hjoins
    exact ⟨⟨hplaced, hmeant, by simpa only [hlinks, List.forall_mem_append] using ⟨hjoins.1, hjoins.2.2⟩⟩,
      hjoins.2.1⟩
  · rintro ⟨⟨hplaced, hmeant, hjoins⟩, hc'⟩
    rw [← shapes_insert hc] at hplaced hmeant
    simp only [hlinks, List.forall_mem_append] at hjoins
    refine ⟨hplaced, hmeant, ?_⟩
    simpa only [links_insert hc, List.forall_mem_append, List.forall_mem_cons] using
      ⟨hjoins.1, hc', hjoins.2⟩

section

variable {before after env : List Table} {c : Table}

/-- A scene resolves with one connection more exactly if it does without, and the connection joins two of
its shapes in their places. -/
theorem exists_resolve_insert_iff (hc : isLink c = true)
    (hid : ∀ t ∈ shapes (before ++ after), hasTextId t = true)
    (hunique : ∀ other, Placement (before ++ after) other → other = env) :
    (∃ out, resolve (.list ((before ++ c :: after).map .table)) = .ok out) ↔
      (∃ out, resolve (.list ((before ++ after).map .table)) = .ok out) ∧ Joins env c := by
  have hidc : ∀ t ∈ shapes (before ++ c :: after), hasTextId t = true := by
    rwa [shapes_insert hc]
  constructor
  · rintro ⟨out, hout⟩
    obtain ⟨other, hother, -⟩ := Position.placement_of_resolve rfl hidc hout
    obtain ⟨hother, hjoins⟩ := (placement_insert_iff hc before after other).mp hother
    obtain rfl := hunique other hother
    exact ⟨⟨_, Position.resolve_of_placement hid hother⟩, hjoins⟩
  · rintro ⟨⟨out, hout⟩, hjoins⟩
    obtain ⟨other, hother, -⟩ := Position.placement_of_resolve rfl hid hout
    obtain rfl := hunique other hother
    have hinsert := (placement_insert_iff hc before after other).mpr ⟨hother, hjoins⟩
    exact ⟨_, Position.resolve_of_placement hidc hinsert⟩

/-- The connection that is put in comes after those before it. -/
theorem getElem?_resolve_insert (hc : isLink c = true)
    (hid : ∀ t ∈ shapes (before ++ after), hasTextId t = true)
    (hunique : ∀ other, Placement (before ++ after) other → other = env) {out : List Value}
    (hout : resolve (.list ((before ++ c :: after).map .table)) = .ok out) :
    out[(links before).length]? = some (.table (joined env c)) := by
  obtain ⟨other, hother, rfl⟩ :=
    Position.placement_of_resolve rfl (by rwa [shapes_insert hc]) hout
  obtain rfl := hunique other ((placement_insert_iff hc before after other).mp hother).1
  simp [arranged, links_insert hc]

end

/-- A scene of some elements and nothing else. -/
def sceneOf (es : List Table) : Value :=
  .table (Position.ofFields [("elements", .list (es.map .table))])

theorem elementsOf_sceneOf (es : List Table) : elementsOf (sceneOf es) = es := by
  simp [sceneOf, elementsOf, Position.ofFields, Table.field?_cons, Value.sameKey, Value.items, tableOf?,
    Function.comp_def]

theorem shapes_shapes (es : List Table) : shapes (shapes es) = shapes es := by
  simp [shapes, List.filter_filter]

theorem links_shapes (es : List Table) : links (shapes es) = [] := by
  simp [links, shapes]

/-- Shapes that are drawn alone have the places that they have in every scene of theirs. -/
theorem placement_of_drawn {es : List Table} {d : Drawing} (hd : ofScene (sceneOf (shapes es)) = .ok d)
    (hid : ∀ t ∈ shapes es, hasTextId t = true) :
    ∃ env elements, Placement (shapes es) env ∧ Element.ofList (arranged (shapes es) env) = .ok elements ∧
      d.elements = drawAll elements ∧ ∀ other, Placement es other → other = env := by
  obtain ⟨env, elements, henv, helements, hnodes⟩ := placement_of_ofScene hd
    (by simpa only [elementsOf_sceneOf, shapes_shapes] using hid)
  rw [elementsOf_sceneOf] at henv helements
  refine ⟨env, elements, henv, helements, hnodes, ?_⟩
  intro other hother
  rw [hother.eq_placeFrom, henv.eq_placeFrom, shapes_shapes]

/-- Among shapes that are drawn, whatever their tables leave out, a connection between circles, ellipses,
rectangles and texts, with ends in either spelling, resolves exactly if the scene without it does, its
ends are texts in the first spelling, and both shapes say where they are. It then runs between the centres
of the nodes that are drawn for them. -/
theorem added_connection_resolves_iff {before after : List Table} {d : Drawing}
    (hd : ofScene (sceneOf (shapes (before ++ after))) = .ok d)
    (hid : ∀ t ∈ shapes (before ++ after), hasTextId t = true) {c : Table} (hc : isLink c = true)
    {source target : String} (hsource : Field.text c ["from", "from_id"] = .ok source)
    (htarget : Field.text c ["to", "to_id"] = .ok target) {i j : Nat} {s t : Table}
    (hs : IsLast (shapes (before ++ after)) source i s) (hscentred : isCentred s = true)
    (ht : IsLast (shapes (before ++ after)) target j t) (htcentred : isCentred t = true) :
    ((∃ out, resolve (.list ((before ++ c :: after).map .table)) = .ok out) ↔
      (∃ out, resolve (.list ((before ++ after).map .table)) = .ok out) ∧
        (Table.field? c "from" = some (.string source) ∧ Table.field? c "to" = some (.string target)) ∧
          Says s (centreFields s) ∧ Says t (centreFields t)) ∧
    ∀ out, resolve (.list ((before ++ c :: after).map .table)) = .ok out →
      ∃ m n a b, d.elements[i]? = some m ∧ m.centre? = some a ∧
        d.elements[j]? = some n ∧ n.centre? = some b ∧
          out[(links before).length]? = some (.table (linked c a b)) := by
  obtain ⟨env, elements, henv, helements, hnodes, hunique⟩ := placement_of_drawn hd hid
  have hiff := exists_resolve_insert_iff hc hid hunique
  rw [← shapes_shapes] at hs ht
  have hjoins : Joins env c ↔
      (Table.field? c "from" = some (.string source) ∧ Table.field? c "to" = some (.string target)) ∧
        Says s (centreFields s) ∧ Says t (centreFields t) := by
    rw [Joins, end_isSome_iff helements henv hsource hs hscentred,
      end_isSome_iff helements henv htarget ht htcentred]
    tauto
  refine ⟨by rw [hiff, hjoins], ?_⟩
  intro out hout
  obtain ⟨hfrom, hto⟩ := (hiff.mp ⟨out, hout⟩).2
  obtain ⟨a, ha⟩ := Option.isSome_iff_exists.mp hfrom
  obtain ⟨b, hb⟩ := Option.isSome_iff_exists.mp hto
  have hplace := getElem?_resolve_insert hc hid hunique hout
  rw [joined, ha, hb] at hplace
  rw [field?_of_attached hsource ha] at ha
  rw [field?_of_attached htarget hb] at hb
  obtain ⟨m, hm, hma⟩ := centre?_drawAll_shape helements henv hs hscentred ha
  obtain ⟨n, hn, hnb⟩ := centre?_drawAll_shape helements henv ht htcentred hb
  rw [links_shapes, List.length_nil, Nat.zero_add] at hm hn
  rw [hnodes]
  exact ⟨m, n, a, b, hm, hma, hn, hnb, hplace⟩

theorem textToRectangle_resolves :
    ∃ d out m n a b, ofScene (sceneOf [placingCircle, paneledText, laterRectangle]) = .ok d ∧
      resolve (.list ([placingCircle, paneledText, textToRectangle, laterRectangle].map .table)) =
        .ok out ∧
      d.elements[1]? = some m ∧ m.centre? = some a ∧ d.elements[2]? = some n ∧ n.centre? = some b ∧
        out[0]? = some (.table (linked textToRectangle a b)) := by
  have hshapes : shapes ([placingCircle, paneledText] ++ [laterRectangle]) =
      [placingCircle, paneledText, laterRectangle] := by rfl
  have hsome :
      (ofScene (sceneOf [placingCircle, paneledText, laterRectangle])).toOption.isSome = true := by
    decide +kernel
  obtain ⟨d, hd⟩ := Outcome.exists_ok_of_isSome hsome
  have hid : ∀ t ∈ shapes ([placingCircle, paneledText] ++ [laterRectangle]), hasTextId t = true := by
    decide +kernel
  have hs : IsLast (shapes ([placingCircle, paneledText] ++ [laterRectangle])) "b" 1 paneledText :=
    Position.isLast_append [placingCircle] [laterRectangle] (by decide +kernel) (by decide +kernel)
  have ht : IsLast (shapes ([placingCircle, paneledText] ++ [laterRectangle])) "a" 2 laterRectangle :=
    Position.isLast_append [placingCircle, paneledText] [] (by decide +kernel) (by decide +kernel)
  obtain ⟨hiff, hends⟩ := added_connection_resolves_iff (hshapes ▸ hd) hid
    (show isLink textToRectangle = true by decide +kernel) (by rfl) (by rfl) hs (by decide +kernel) ht
    (by decide +kernel)
  have hwithout : (resolve (.list (([placingCircle, paneledText] ++ [laterRectangle]).map
      .table))).toOption.isSome = true := by decide +kernel
  obtain ⟨out, hout⟩ := hiff.mpr ⟨Outcome.exists_ok_of_isSome hwithout, ⟨by rfl, by rfl⟩,
    by decide +kernel, by decide +kernel⟩
  obtain ⟨m, n, a, b, h⟩ := hends out hout
  exact ⟨d, out, m, n, a, b, hd, hout, h⟩

/-- A circle where circles are by default. -/
def defaultCircle : Table := Position.ofFields [("type", .string "circle"), ("id", .string "a")]

def smallCircle : Table :=
  Position.ofFields [("type", .string "circle"), ("id", .string "a"), ("cx", .int 5), ("cy", .int 6)]

def emptyText : Table :=
  Position.ofFields [("type", .string "text"), ("id", .string "b"), ("x", .int 10), ("y", .int 20)]

def circleToText : Table :=
  Position.ofFields [("type", .string "connection"), ("from", .string "a"), ("to", .string "b")]

/-- The same connection in the other spelling. -/
def circleToTextById : Table :=
  Position.ofFields [("type", .string "connection"), ("from_id", .string "a"), ("to_id", .string "b")]

/-- A circle that is drawn where circles are by default cannot be connected, and neither can shapes by a
connection in the second spelling of its ends. -/
theorem drawn_shapes_not_connected :
    ((ofScene (sceneOf [defaultCircle, emptyText])).toOption.isSome = true ∧
      resolve (.list ([defaultCircle, emptyText, circleToText].map .table)) =
        .error (.missingKey "cx")) ∧
    (ofScene (sceneOf [smallCircle, emptyText])).toOption.isSome = true ∧
      Field.text circleToTextById ["from", "from_id"] = .ok "a" ∧
      Field.text circleToTextById ["to", "to_id"] = .ok "b" ∧
      resolve (.list ([smallCircle, emptyText, circleToTextById].map .table)) =
        .error (.unknownElement "None") :=
  ⟨⟨by decide +kernel, by rfl⟩, by decide +kernel, by rfl, by rfl, by rfl⟩

end Drawing
end SvgDiagram
