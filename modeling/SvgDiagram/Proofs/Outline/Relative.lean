import SvgDiagram.Proofs.Outline.Mean

/-!
The same path in other words. A command may count its coordinates from where the pen stands, and a numeral may
have an exponent. The reader takes the first for absolute coordinates and an exponent for a number of its own.
Main statement: how far the centre of the path survives such a change.
-/

namespace SvgDiagram
namespace Outline

open Number (Numeral Whole Scientific)

def whole : Spelling Whole where
  text w := w.text
  numerals w := [w.toNumeral]
  laidOut w _ _ hcs h := .numeral (numeralText_text w.toNumeral) hcs h

/-- The letter of an exponent parts two numerals. -/
def scientific : Spelling Scientific where
  text := Scientific.text
  numerals := Scientific.numerals
  laidOut := by
    rintro ⟨mantissa, _ | ⟨upper, w⟩⟩ ps cs hcs h
    · simpa [Scientific.text, Scientific.numerals] using
        LaidOut.numeral (numeralText_text mantissa) hcs h
    · -- The letter begins no piece and continues no numeral.
      have hletter : isSkipped (if upper then 'E' else 'e') = true := by
        cases upper <;> decide
      have hpower := LaidOut.skip hletter (.numeral (numeralText_text w.toNumeral) hcs h)
      have hapart : Apart ((if upper then 'E' else 'e') :: (w.text ++ cs)) := by
        cases upper <;> (rintro c ⟨⟩; decide)
      simpa [Scientific.text, Scientific.numerals] using
        LaidOut.numeral (numeralText_text mantissa) hapart hpower

/-! ## Relative commands -/

/-- A group with its numbers changed: those that count across, those that count down, and the radii, the
rotation and the flags of an arc. -/
def Arguments.change {α β : Type} {kind : CommandKind} (across down other : α → β) :
    Arguments α kind → Arguments β kind
  | .move x y => .move (across x) (down y)
  | .line x y => .line (across x) (down y)
  | .horizontal x => .horizontal (across x)
  | .vertical y => .vertical (down y)
  | .cubic x1 y1 x2 y2 x y =>
      .cubic (across x1) (down y1) (across x2) (down y2) (across x) (down y)
  | .smoothCubic x2 y2 x y => .smoothCubic (across x2) (down y2) (across x) (down y)
  | .quadratic x1 y1 x y => .quadratic (across x1) (down y1) (across x) (down y)
  | .smoothQuadratic x y => .smoothQuadratic (across x) (down y)
  | .arc rx ry rotation large sweep x y =>
      .arc (other rx) (other ry) (other rotation) (other large) (other sweep) (across x) (down y)

def Command.map {α β : Type} (f : α → β) : Command α → Command β
  | .draw kind groups => .draw kind (groups.map (Arguments.change f f f))
  | .close lower => .close lower

/-- Where a step from `p` ends. -/
def Arguments.target {kind : CommandKind} (p : ℤ × ℤ) : Arguments ℤ kind → ℤ × ℤ
  | .horizontal x => (x, p.2)
  | .vertical y => (p.1, y)
  | .move x y | .line x y | .cubic _ _ _ _ x y | .smoothCubic _ _ x y | .quadratic _ _ x y
  | .smoothQuadratic x y | .arc _ _ _ _ _ x y => (x, y)

/-- Each group counted from the end of the one before it. -/
def relativeGroups {kind : CommandKind} (p : ℤ × ℤ) : List (Arguments ℤ kind) → List (Arguments ℤ kind)
  | [] => []
  | g :: gs => g.change (· - p.1) (· - p.2) id :: relativeGroups (g.target p) gs

def groupOrigins {kind : CommandKind} (p : ℤ × ℤ) : List (Arguments ℤ kind) → List (ℤ × ℤ)
  | [] => []
  | g :: gs => g.endPoint?.toList.map (fun _ => p) ++ groupOrigins (g.target p) gs

/-- Where the pen stands, and where it was put down. -/
structure Pen where
  point : ℤ × ℤ
  start : ℤ × ℤ

namespace Pen

def origin : Pen := ⟨(0, 0), (0, 0)⟩

def after (pen : Pen) : Command ℤ → Pen
  | .close _ => ⟨pen.start, pen.start⟩
  -- The first group of a move puts the pen down, the others draw lines.
  | .draw .move (g :: gs) => ⟨gs.foldl (fun p g => g.target p) (g.target pen.point), g.target pen.point⟩
  | .draw _ gs => ⟨gs.foldl (fun p g => g.target p) pen.point, pen.start⟩

end Pen

namespace Command

def relativeTo (p : ℤ × ℤ) : Command ℤ → Command ℤ
  | .draw kind groups => .draw kind (relativeGroups p groups)
  | .close _ => .close true

def origins (p : ℤ × ℤ) : Command ℤ → List (ℤ × ℤ)
  | .draw _ groups => groupOrigins p groups
  | .close _ => []

end Command

/-- A path with the marked commands in relative form. -/
def relativeForm : Pen → List (Bool × Command ℤ) → List (Bool × Command ℤ)
  | _, [] => []
  | pen, (relative, c) :: rest =>
      (relative, if relative then c.relativeTo pen.point else c) :: relativeForm (pen.after c) rest

/-- The points that the end points of the marked commands are counted from. -/
def origins : Pen → List (Bool × Command ℤ) → List (ℤ × ℤ)
  | _, [] => []
  | pen, (relative, c) :: rest =>
      (if relative then c.origins pen.point else []) ++ origins (pen.after c) rest

theorem Arguments.endPoint?_change {α β : Type} {kind : CommandKind} (across down other : α → β)
    (g : Arguments α kind) :
    (g.change across down other).endPoint? = g.endPoint?.map (Prod.map across down) := by
  cases g <;> rfl

theorem Command.endPoints_map {α β : Type} (f : α → β) (c : Command α) :
    (c.map f).endPoints = c.endPoints.map (Prod.map f f) := by
  cases c with
  | close lower => rfl
  | draw kind groups =>
      simp only [Command.map, endPoints, List.filterMap_map, List.map_filterMap]
      congr 1
      funext g
      exact g.endPoint?_change f f f

/-- Points that were moved: as many as before, and moved by the given distances all together. -/
structure Displaced (distances before after : List (ℤ × ℤ)) : Prop where
  count : after.length = before.length
  balance : after.sum + distances.sum = before.sum

namespace Displaced

theorem refl (ps : List (ℤ × ℤ)) : Displaced [] ps ps := ⟨rfl, by simp⟩

theorem append {d d' b b' a a' : List (ℤ × ℤ)} (h : Displaced d b a) (h' : Displaced d' b' a') :
    Displaced (d ++ d') (b ++ b') (a ++ a') where
  count := by rw [List.length_append, List.length_append, h.count, h'.count]
  balance := by
    rw [List.sum_append, List.sum_append, List.sum_append, add_add_add_comm, h.balance, h'.balance]

end Displaced

theorem displaced_endPoint? {kind : CommandKind} (p : ℤ × ℤ) (g : Arguments ℤ kind) :
    Displaced (g.endPoint?.toList.map fun _ => p) g.endPoint?.toList
      (g.change (· - p.1) (· - p.2) id).endPoint?.toList := by
  rw [Arguments.endPoint?_change]
  cases g.endPoint? with
  | none => exact .refl []
  | some q => exact ⟨rfl, by ext <;> simp⟩

theorem displaced_relativeGroups {kind : CommandKind} (p : ℤ × ℤ) (gs : List (Arguments ℤ kind)) :
    Displaced (groupOrigins p gs) (gs.filterMap Arguments.endPoint?)
      ((relativeGroups p gs).filterMap Arguments.endPoint?) := by
  have hcons (g : Arguments ℤ kind) (gs : List (Arguments ℤ kind)) :
      (g :: gs).filterMap Arguments.endPoint? =
        g.endPoint?.toList ++ gs.filterMap Arguments.endPoint? := by
    rw [List.filterMap_cons]
    cases g.endPoint? <;> rfl
  induction gs generalizing p with
  | nil => exact .refl []
  | cons g gs ih =>
      rw [relativeGroups, groupOrigins, hcons, hcons]
      exact (displaced_endPoint? p g).append (ih (g.target p))

/-- A relative form moves each end point by the point that it is counted from. -/
theorem displaced_relativeForm (pen : Pen) (path : List (Bool × Command ℤ)) :
    Displaced (origins pen path) (path.flatMap fun c => c.2.endPoints)
      ((relativeForm pen path).flatMap fun c => c.2.endPoints) := by
  induction path generalizing pen with
  | nil => exact .refl []
  | cons marked rest ih =>
      obtain ⟨relative, c⟩ := marked
      rw [relativeForm, origins, List.flatMap_cons, List.flatMap_cons]
      apply Displaced.append _ (ih (pen.after c))
      cases relative with
      | false => exact .refl _
      | true =>
          cases c with
          | close lower => exact .refl []
          | draw kind groups => exact displaced_relativeGroups pen.point groups

theorem Command.mem_numbers {α : Type} {c : Command α} {p : α × α} (hp : p ∈ c.endPoints) :
    p.1 ∈ c.numbers ∧ p.2 ∈ c.numbers := by
  cases c with
  | close lower => cases hp
  | draw kind groups =>
      obtain ⟨g, hg, hend⟩ := List.mem_filterMap.mp hp
      have hmem : p.1 ∈ g.toList ∧ p.2 ∈ g.toList := by
        cases g <;> cases hend <;> simp [Arguments.toList]
      exact ⟨List.mem_flatMap.mpr ⟨g, hg, hmem.1⟩, List.mem_flatMap.mpr ⟨g, hg, hmem.2⟩⟩

/-! ## Two texts of one path -/

def integers (path : List (Bool × Command Whole)) : List (Bool × Command ℤ) :=
  path.map fun c => (c.1, c.2.map fun w => w.integer)

/-- The same path with its marked commands in relative form, and its numbers in other numerals. -/
def Respells (path : List (Bool × Command Whole)) (respelled : List (Bool × Command Scientific)) : Prop :=
  respelled.map (fun c => (c.1, c.2.map Scientific.number)) =
    (relativeForm .origin (integers path)).map fun c => (c.1, c.2.map (Int.cast : ℤ → ℚ))

/-- What the reader takes for the end points of a path. -/
def readEnds (respelled : List (Bool × Command Scientific)) : List (Numeral × Numeral) :=
  respelled.flatMap fun c => c.2.readEnds scientific

def wholeEnds (path : List (Bool × Command Whole)) : List (Numeral × Numeral) :=
  path.flatMap fun c => c.2.readEnds whole

theorem wholeEnds_eq (path : List (Bool × Command Whole)) :
    wholeEnds path = (path.flatMap fun c => c.2.endPoints).map
      (Prod.map Whole.toNumeral Whole.toNumeral) := by
  rw [wholeEnds, List.map_flatMap]
  apply List.flatMap_congr
  intro c _
  exact c.2.readEnds_of_single Whole.toNumeral fun _ _ => rfl

theorem wholeEnds_integer (path : List (Bool × Command Whole)) :
    (wholeEnds path).map (Prod.map Numeral.integer Numeral.integer) =
      (integers path).flatMap fun c => c.2.endPoints := by
  simp only [wholeEnds_eq, integers, List.map_map, List.flatMap_map, Command.endPoints_map,
    ← List.map_flatMap]
  rfl

theorem wholeEnds_fraction {path : List (Bool × Command Whole)} :
    ∀ p ∈ wholeEnds path, p.1.fraction = [] ∧ p.2.fraction = [] := by
  rw [wholeEnds_eq, List.forall_mem_map]
  exact fun p _ => ⟨p.1.fraction_eq, p.2.fraction_eq⟩

theorem hasValue_of_drawable {ps : List (Numeral × Numeral)}
    (hwhole : ∀ p ∈ ps, p.1.fraction = [] ∧ p.2.fraction = [])
    (hps : Drawable (ps.map (Prod.map Numeral.integer Numeral.integer))) :
    ∀ p ∈ ps, Number.HasValue p.1.value p.1.integer ∧ Number.HasValue p.2.value p.2.integer := by
  intro p hp
  obtain ⟨hx, hy⟩ := List.forall_mem_map.mp hps.near p hp
  obtain ⟨hx', hy'⟩ := hwhole p hp
  exact ⟨Number.Numeral.hasValue hx' (lt_trans hx (by norm_num)),
    Number.Numeral.hasValue hy' (lt_trans hy (by norm_num))⟩

/-- Without exponents the end points of the relative form are read. -/
theorem Respells.readEnds_eq {path : List (Bool × Command Whole)}
    {respelled : List (Bool × Command Scientific)} (h : Respells path respelled)
    (hplain : ∀ c ∈ respelled, ∀ s ∈ c.2.numbers, s.exponent = none)
    (hwhole : ∀ p ∈ readEnds respelled, p.1.fraction = [] ∧ p.2.fraction = []) :
    (readEnds respelled).map (Prod.map Numeral.integer Numeral.integer) =
      (relativeForm .origin (integers path)).flatMap fun c => c.2.endPoints := by
  have hread : readEnds respelled = (respelled.flatMap fun c => c.2.endPoints).map
      (Prod.map Scientific.mantissa Scientific.mantissa) := by
    unfold readEnds
    rw [List.map_flatMap]
    apply List.flatMap_congr
    intro c hc
    apply c.2.readEnds_of_single
    intro s hs
    simp [scientific, Scientific.numerals, hplain c hc s hs]
  have hends := congrArg (List.flatMap fun c => c.2.endPoints) h
  simp only [List.flatMap_map, Command.endPoints_map] at hends
  rw [← List.map_flatMap, ← List.map_flatMap] at hends
  -- The numbers agree as rationals and are integers.
  have hinjective : Function.Injective (Prod.map (Int.cast : ℤ → ℚ) (Int.cast : ℤ → ℚ)) :=
    Int.cast_injective.prodMap Int.cast_injective
  apply hinjective.list_map
  rw [← hends, hread, List.map_map, List.map_map]
  apply List.map_congr_left
  intro p hp
  obtain ⟨c, hc, hend⟩ := List.mem_flatMap.mp hp
  obtain ⟨hx, hy⟩ := Command.mem_numbers hend
  obtain ⟨hx', hy'⟩ := hwhole _ (hread ▸ List.mem_map_of_mem hp)
  exact Prod.ext (Scientific.number_eq_integer (hplain c hc _ hx) hx').symm
    (Scientific.number_eq_integer (hplain c hc _ hy) hy').symm

/-! ## Texts of a path over the integers -/

theorem Command.map_map {α β γ : Type} (f : α → β) (g : β → γ) (c : Command α) :
    (c.map f).map g = c.map fun a => g (f a) := by
  cases c with
  | close lower => rfl
  | draw kind groups =>
      simp only [Command.map, List.map_map]
      congr 2
      funext group
      cases group <;> rfl

theorem Command.map_id {α : Type} (c : Command α) : (c.map fun a => a) = c := by
  cases c with
  | close lower => rfl
  | draw kind groups =>
      have hgroup : Arguments.change (fun a => a) (fun a => a) (fun a => a) =
          (id : Arguments α kind → Arguments α kind) := by
        funext group
        cases group <;> rfl
      simp only [Command.map, hgroup, List.map_id]

def wholes (path : List (Bool × Command ℤ)) : List (Bool × Command Whole) :=
  path.map fun c => (c.1, c.2.map Whole.ofInt)

theorem integers_wholes (path : List (Bool × Command ℤ)) : integers (wholes path) = path := by
  simp only [integers, wholes, List.map_map, Function.comp_def, Command.map_map,
    Number.Whole.integer_ofInt, Command.map_id, Prod.mk.eta, List.map_id']

def unscaled (z : ℤ) : Scientific := ⟨(Whole.ofInt z).toNumeral, none⟩

theorem number_unscaled (z : ℤ) : (unscaled z).number = z := by
  rw [Scientific.number_eq_integer rfl rfl]
  exact congrArg Int.cast (Number.Whole.integer_ofInt z)

def hundreds (z : ℤ) : Scientific := ⟨(Whole.ofInt (z / 100)).toNumeral, some (false, Whole.ofInt 2)⟩

theorem number_hundreds (z : ℤ) : (hundreds z).number = (z / 100 * 100 : ℤ) := by
  have hnumber : (hundreds z).number =
      (Whole.ofInt (z / 100)).number * 10 ^ (Whole.ofInt 2).integer := rfl
  rw [hnumber, Number.Numeral.number_eq_integer rfl, Number.Whole.integer_ofInt,
    Number.Whole.integer_ofInt, Int.cast_mul]
  norm_num

/-- Every path over the integers has a text in relative form. -/
theorem respells_relativeForm (path : List (Bool × Command ℤ)) :
    Respells (wholes path) ((relativeForm .origin path).map fun c => (c.1, c.2.map unscaled)) := by
  simp only [Respells, integers_wholes, List.map_map, Function.comp_def, Command.map_map,
    number_unscaled]

/-! ## The centre -/

/-- The centre of a path in other words is the mean of the points that are read in it. For whole coordinates it
is the centre of the path only if the means agree, and without exponents only if the origins of the relative
commands cancel out. -/
theorem centreOfData_respelled (path : List (Bool × Command Whole))
    (respelled : List (Bool × Command Scientific)) (lower lower' : Bool) (text text' : String)
    (htext : Spells whole (path.map (fun c => (false, c.2)) ++ [(false, .close lower)]) text)
    (htext' : Spells scientific (respelled ++ [(true, .close lower')]) text')
    (h : Respells path respelled) :
    let read := readEnds respelled
    let points := read.map (Prod.map Numeral.integer Numeral.integer)
    let ends := (integers path).flatMap fun c => c.2.endPoints
    centreOfData text' = centroid (read.map (pointOf Numeral.value)) ∧
      ((∀ p ∈ read, p.1.fraction = [] ∧ p.2.fraction = []) → Drawable points → Drawable ends →
        (centreOfData text' = centreOfData text ↔ mean? points = mean? ends) ∧
        ((∀ c ∈ respelled, ∀ s ∈ c.2.numbers, s.exponent = none) →
          (centreOfData text' = centreOfData text ↔ (origins .origin (integers path)).sum = 0))) := by
  intro read points ends
  have hcentre' : centreOfData text' = centroid (read.map (pointOf Numeral.value)) := htext'.centre_eq
  refine ⟨hcentre', fun hwhole hpoints hends => ?_⟩
  have hcentre : centreOfData text = centroid ((wholeEnds path).map (pointOf Numeral.value)) := by
    rw [htext.centre_eq, List.flatMap_map]
    rfl
  have hiff : centreOfData text' = centreOfData text ↔ mean? points = mean? ends := by
    have hintegers : (wholeEnds path).map (Prod.map Numeral.integer Numeral.integer) = ends :=
      wholeEnds_integer path
    rw [← hintegers] at hends ⊢
    rw [hcentre, hcentre']
    exact centroid_eq_iff (hasValue_of_drawable hwhole hpoints)
      (hasValue_of_drawable wholeEnds_fraction hends) hpoints hends
  refine ⟨hiff, fun hplain => ?_⟩
  have hdisplaced := displaced_relativeForm .origin (integers path)
  rw [← h.readEnds_eq hplain hwhole] at hdisplaced
  rw [hiff, mean?_eq_iff hdisplaced.count, ← hdisplaced.balance, left_eq_add]

/-- A square with its lines in absolute or in relative form. -/
def square (relative : Bool) : List (Bool × Command ℤ) :=
  [(false, .draw .move [.move 100 100]), (relative, .draw .line [.line 300 100]),
    (relative, .draw .line [.line 300 300]), (relative, .draw .line [.line 100 300])]

/-- The centre of a square moves when its lines are relative, and when its numbers have exponents. -/
theorem square_respelled :
    let relative := (relativeForm .origin (square true)).map fun c => (c.1, c.2.map unscaled)
    let scaled := (square false).map fun c => (c.1, c.2.map hundreds)
    Respells (wholes (square true)) relative ∧ Respells (wholes (square false)) scaled ∧
      centreOfData (written whole (wholes (square false) ++ [(false, .close false)])) = .ok ⟨200, 200⟩ ∧
      centreOfData (written scientific (relative ++ [(true, .close false)])) = .ok ⟨25, 75⟩ ∧
      centreOfData (written scientific (scaled ++ [(true, .close false)])) = .ok ⟨2, 2⟩ := by
  refine ⟨respells_relativeForm _, ?_, ?_, ?_, ?_⟩
  · rw [Respells, integers_wholes]
    simp only [List.map_map, Function.comp_def, Command.map_map, number_hundreds]
    rfl
  all_goals exact Outcome.toOption_eq_some.mp (by decide +kernel)

/-- A curve and an arc, whose starting points cancel out. -/
def balanced : List (Bool × Command ℤ) :=
  [(false, .draw .move [.move (-5) 0]), (true, .draw .cubic [.cubic 0 9 5 9 5 0]),
    (true, .draw .arc [.arc 3 3 0 0 1 5 10])]

theorem balanced_centre :
    (origins .origin balanced).sum = 0 ∧
      centreOfData " M -5 0 c 5 9 10 9 10 0 a 3 3 0 0 1 0 10 z" =
        centreOfData " M -5 0 C 0 9 5 9 5 0 A 3 3 0 0 1 5 10 Z" := by
  let relative := (relativeForm .origin balanced).map fun c => (c.1, c.2.map unscaled)
  have htext : written whole ((wholes balanced).map (fun c => (false, c.2)) ++ [(false, .close false)]) =
      " M -5 0 C 0 9 5 9 5 0 A 3 3 0 0 1 5 10 Z" := by
    decide +kernel
  have htext' : written scientific (relative ++ [(true, .close true)]) =
      " M -5 0 c 5 9 10 9 10 0 a 3 3 0 0 1 0 10 z" := by
    decide +kernel
  have horigins : (origins .origin balanced).sum = 0 := by decide +kernel
  obtain ⟨-, hiff⟩ := centreOfData_respelled (wholes balanced) relative false true _ _
    (htext ▸ spells_written whole _) (htext' ▸ spells_written scientific _)
    (respells_relativeForm balanced)
  obtain ⟨-, hplain⟩ := hiff (by decide +kernel) ⟨by decide +kernel, by decide +kernel⟩
    ⟨by decide +kernel, by decide +kernel⟩
  rw [integers_wholes] at hplain
  exact ⟨horigins, (hplain (by decide +kernel)).mpr horigins⟩

end Outline
end SvgDiagram
