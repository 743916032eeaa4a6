import SvgDiagram.Element.Basic
import SvgDiagram.Proofs.Element.Field
import SvgDiagram.Proofs.Outcome

/-!
Well-typed elements. A rule says under which names a field is found, whether it must be given and which
values it may have, and a type of element has its list of rules, in the order in which they are checked. A
table is read without a fault exactly if it keeps the rules of its reader.
-/

namespace SvgDiagram

open Outcome (FailsWith)

namespace Field

/-- What is asked of a field. -/
structure Rule where
  names : List String
  required : Bool
  admits : Value → Bool

/-- A field that has to be given. -/
def given (names : List String) (admits : Value → Bool) : Rule := ⟨names, true, admits⟩

/-- A field that may be left out. -/
def free (names : List String) (admits : Value → Bool) : Rule := ⟨names, false, admits⟩

def Rule.holds (r : Rule) (t : Table) : Bool :=
  match find? t r.names with
  | none => !r.required
  | some v => r.admits v

/-- Whether a table keeps all the rules. -/
def fits (rules : List Rule) (t : Table) : Bool := rules.all fun r => r.holds t

def isText (v : Value) : Bool := (asText? v).isSome

def isReal (v : Value) : Bool := (asReal? v).isSome

def isFlag (v : Value) : Bool := (asFlag? v).isSome

def orNull (admits : Value → Bool) : Value → Bool
  | .null => true
  | v => admits v

/-- A sequence of tables. -/
def eachTable (admits : Table → Bool) (v : Value) : Bool :=
  (asItems? v).any fun vs => vs.all fun item => (asTable? item).any admits

/-- A text, or null in its place. -/
def optionalText (names : List String) : Rule := free names (orNull isText)

/-- A number, or null in its place. -/
def optionalReal (names : List String) : Rule := free names (orNull isReal)

/-- A reading is refused where a check fails, and elsewhere it fails with a fault, if there is one. -/
def Checks {α : Type} (x : Except Fault α) (ok : Bool) (fault? : Option Fault) : Prop :=
  FailsWith x (if ok then fault? else some .invalidField)

section

variable {α β : Type} {t : Table} {names : List String}

theorem Checks.pure (a : α) : Checks (Except.ok a) true none := ⟨a, rfl⟩

theorem Checks.bind {x : Except Fault α} {f : α → Except Fault β} {first second : Bool}
    {fault? : Option Fault} (hx : Checks x first none)
    (hf : ∀ a, x = .ok a → Checks (f a) second fault?) :
    Checks (x >>= f) (first && second) fault? := by
  cases first with
  | true =>
      obtain ⟨a, rfl⟩ := hx
      exact hf a rfl
  | false =>
      obtain rfl : x = .error .invalidField := hx
      rfl

/-- What is done with the outcome of a reading adds no fault. -/
theorem Checks.map {x : Except Fault α} {ok : Bool} {fault? : Option Fault} (hx : Checks x ok fault?)
    (f : α → β) : Checks (x >>= fun a => .ok (f a)) ok fault? :=
  FailsWith.bind_ok hx fun a => ⟨f a, rfl⟩

theorem Checks.holds {x : Except Fault α} {ok : Bool} {fault? : Option Fault} (hx : Checks x ok fault?)
    {a : α} (ha : x = .ok a) : ok = true := by
  cases ok with
  | true => rfl
  | false =>
      obtain rfl : x = .error .invalidField := hx
      cases ha

theorem Checks.exists_ok {x : Except Fault α} {ok : Bool} (hx : Checks x ok none) (h : ok = true) :
    ∃ a, x = .ok a := by
  rwa [Checks, h] at hx

theorem checks_accepted (o : Option α) : Checks (accepted o) o.isSome none := by
  cases o with
  | none => rfl
  | some a => exact Checks.pure a

theorem checks_getOr (convert : Value → Option α) (default : α) :
    Checks (getOr convert t names default) ((free names fun v => (convert v).isSome).holds t) none := by
  rw [getOr, Rule.holds, free]
  cases find? t names with
  | none => exact Checks.pure default
  | some v => exact checks_accepted (convert v)

theorem checks_need (convert : Value → Option α) :
    Checks (need convert t names) ((given names fun v => (convert v).isSome).holds t) none := by
  rw [need, Rule.holds, given]
  cases find? t names with
  | none => rfl
  | some v => exact checks_accepted (convert v)

theorem checks_get? (convert : Value → Option α) :
    Checks (get? convert t names) ((free names (orNull fun v => (convert v).isSome)).holds t) none := by
  rw [get?, Rule.holds, free]
  cases find? t names with
  | none => exact Checks.pure none
  | some v =>
      cases v with
      | null => exact Checks.pure none
      | _ =>
          simp only [orNull]
          rw [← Option.isSome_map]
          exact checks_accepted _

theorem checks_textOr (default : String) :
    Checks (textOr t names default) ((free names isText).holds t) none :=
  checks_getOr asText? default

theorem checks_text : Checks (text t names) ((given names isText).holds t) none := checks_need asText?

theorem checks_text? : Checks (text? t names) ((optionalText names).holds t) none := checks_get? asText?

theorem checks_words? : Checks (words? t names) ((optionalText names).holds t) none :=
  checks_text?.map _

theorem checks_realOr (default : Float) :
    Checks (realOr t names default) ((free names isReal).holds t) none :=
  checks_getOr asReal? default

theorem checks_real : Checks (real t names) ((given names isReal).holds t) none := checks_need asReal?

theorem checks_real? : Checks (real? t names) ((optionalReal names).holds t) none := checks_get? asReal?

theorem checks_flagOr (default : Bool) :
    Checks (flagOr t names default) ((free names isFlag).holds t) none :=
  checks_getOr asFlag? default

theorem checks_mapM {f : α → Except Fault β} {admits : α → Bool} (h : ∀ a, Checks (f a) (admits a) none)
    (as : List α) : Checks (as.mapM f) (as.all admits) none := by
  induction as with
  | nil => exact Checks.pure []
  | cons a as ih =>
      rw [List.mapM_cons, List.all_cons]
      exact (h a).bind fun b _ => ih.map (b :: ·)

theorem checks_tables {read : Table → Except Fault α} {admits : Table → Bool}
    (hread : ∀ u, Checks (read u) (admits u) none) :
    Checks (tables t names read) ((free names (eachTable admits)).holds t) none := by
  have hitem (v : Value) :
      Checks (accepted (asTable? v) >>= read) ((asTable? v).any admits) none := by
    cases asTable? v with
    | none => rfl
    | some u => exact hread u
  rw [tables, getOr, Rule.holds, free]
  cases find? t names with
  | none => exact Checks.pure []
  | some v =>
      simp only [eachTable]
      cases asItems? v with
      | none => rfl
      | some vs => exact checks_mapM hitem vs

theorem fits_cons (r : Rule) (rules : List Rule) :
    fits (r :: rules) t = (r.holds t && fits rules t) := rfl

theorem fits_append (first second : List Rule) :
    fits (first ++ second) t = (fits first t && fits second t) := List.all_append

end

end Field

open SvgDiagram.Field

def Animation.rules : List Rule :=
  [given ["attribute"] isText, given ["dur"] isText, optionalText ["from_value"],
    optionalText ["to_value"], optionalText ["repeatCount", "repeat_count"]]

def TransformAnimation.rules : List Rule :=
  [given ["type"] isText, given ["dur"] isText, optionalText ["values"],
    optionalText ["from", "from_value"], optionalText ["to", "to_value"],
    optionalText ["repeatCount", "repeat_count"], optionalText ["additive"]]

def Style.rules (p : Paint) : List Rule :=
  [free ["fill"] isText, free ["stroke"] isText, free p.widthNames isReal,
    optionalText ["transform"], optionalReal ["opacity"],
    optionalText ["stroke-dasharray", "stroke_dasharray"],
    optionalText ["stroke-linecap", "stroke_linecap"],
    optionalText ["stroke-linejoin", "stroke_linejoin"],
    optionalReal ["fill-opacity", "fill_opacity"],
    optionalReal ["stroke-opacity", "stroke_opacity"]]

def Label.rules : List Rule :=
  free ["text"] isText :: free ["font-size", "font_size"] isReal :: free ["x"] isReal ::
    free ["y"] isReal :: (Style.rules Paint.label ++
      [optionalText ["text-anchor", "text_anchor"], optionalText ["font-family", "font_family"],
        optionalText ["font-weight", "font_weight"], optionalText ["font-style", "font_style"],
        optionalText ["dominant-baseline", "dominant_baseline"], optionalText ["background"],
        free ["background-padding", "background_padding"] isReal])

/-- The rules of the kinds of segment. -/
def Outline.Segment.rules? : String → Option (List Rule)
  | "move_to" | "line_to" => some [given ["x"] isReal, given ["y"] isReal]
  | "cubic_bezier" =>
    some [given ["x1"] isReal, given ["y1"] isReal, given ["x2"] isReal, given ["y2"] isReal,
      given ["x"] isReal, given ["y"] isReal]
  | "quadratic_bezier" =>
    some [given ["x1"] isReal, given ["y1"] isReal, given ["x"] isReal, given ["y"] isReal]
  | "arc" =>
    some [free ["rotation"] isReal, given ["rx"] isReal, given ["ry"] isReal,
      free ["large_arc"] isFlag, free ["sweep"] isFlag, given ["x"] isReal, given ["y"] isReal]
  | "close" => some []
  | _ => none

def Outline.Segment.typed (t : Table) : Bool :=
  match Table.field? t "type" with
  | some (.string kind) => (rules? kind).any fun rules => fits rules t
  | _ => false

namespace Element

def identified : Rule := optionalText ["id"]

def animated : Rule := free ["animations"] (eachTable (fits Animation.rules))

/-- The rules of the types of element. -/
def rules : String → List Rule
  | "circle" =>
    identified :: free ["cx"] isReal :: free ["cy"] isReal :: free ["r"] isReal ::
      (Style.rules Paint.area ++ [animated])
  | "ellipse" =>
    identified :: free ["cx"] isReal :: free ["cy"] isReal :: free ["rx"] isReal ::
      free ["ry"] isReal :: (Style.rules Paint.area ++ [animated])
  | "rectangle" =>
    identified :: free ["x"] isReal :: free ["y"] isReal :: free ["width"] isReal ::
      free ["height"] isReal :: optionalReal ["rx"] :: optionalReal ["ry"] ::
      (Style.rules Paint.area ++ [animated])
  | "line" =>
    identified :: free ["x1"] isReal :: free ["y1"] isReal :: free ["x2"] isReal ::
      free ["y2"] isReal :: optionalText ["marker_end"] :: (Style.rules Paint.line ++ [animated])
  | "text" => identified :: (Label.rules ++ [animated])
  | "path" =>
    identified :: (Style.rules Paint.outline ++
      [animated, optionalText ["d"], free ["segments"] (eachTable Outline.Segment.typed)])
  | "connection" =>
    identified :: given ["from", "from_id"] isText :: given ["to", "to_id"] isText ::
      (Style.rules Paint.link ++ [optionalText ["marker-end", "marker_end"], animated])
  | "group" =>
    [identified, optionalText ["transform"],
      free ["transform_animations"] (eachTable (fits TransformAnimation.rules)),
      free ["elements"] (eachTable fun _ => true)]
  | _ => []

/-- Whether an element keeps the rules of its type, if it has one. -/
def typed (t : Table) : Bool :=
  match Table.field? t "type" with
  | some (.string kind) => fits (rules kind) t
  | _ => true

end Element

section

variable {t : Table}

theorem Animation.checks_ofTable : Checks (ofTable t) (fits Animation.rules t) none := by
  simp only [ofTable, Animation.rules, fits_cons]
  refine checks_text.bind fun _ _ => checks_text.bind fun _ _ => ?_
  exact checks_text?.bind fun _ _ => checks_text?.bind fun _ _ =>
    checks_text?.bind fun _ _ => Checks.pure _

theorem TransformAnimation.checks_ofTable :
    Checks (ofTable t) (fits TransformAnimation.rules t) none := by
  simp only [ofTable, TransformAnimation.rules, fits_cons]
  refine checks_text.bind fun _ _ => checks_text.bind fun _ _ => ?_
  refine checks_words?.bind fun _ _ => checks_words?.bind fun _ _ => ?_
  exact checks_words?.bind fun _ _ => checks_words?.bind fun _ _ =>
    checks_words?.bind fun _ _ => Checks.pure _

theorem Style.checks_ofTable (p : Paint) : Checks (ofTable p t) (fits (Style.rules p) t) none := by
  simp only [ofTable, Style.rules, fits_cons]
  refine (checks_textOr _).bind fun _ _ => (checks_textOr _).bind fun _ _ => ?_
  refine (checks_realOr _).bind fun _ _ => checks_words?.bind fun _ _ => ?_
  refine checks_real?.bind fun _ _ => checks_words?.bind fun _ _ => ?_
  refine checks_words?.bind fun _ _ => checks_words?.bind fun _ _ => ?_
  exact checks_real?.bind fun _ _ => checks_real?.bind fun _ _ => Checks.pure _

theorem Label.checks_ofTable : Checks (ofTable t) (fits Label.rules t) none := by
  simp only [ofTable, Label.rules, fits_cons, fits_append]
  refine (checks_textOr _).bind fun _ _ => (checks_realOr _).bind fun _ _ => ?_
  refine (checks_realOr _).bind fun _ _ => (checks_realOr _).bind fun _ _ => ?_
  refine (Style.checks_ofTable _).bind fun _ _ => checks_words?.bind fun _ _ => ?_
  refine checks_words?.bind fun _ _ => checks_words?.bind fun _ _ => ?_
  refine checks_words?.bind fun _ _ => checks_words?.bind fun _ _ => ?_
  exact checks_words?.bind fun _ _ => (checks_realOr _).bind fun _ _ => Checks.pure _

theorem Outline.Segment.checks_ofTable : Checks (ofTable t) (Segment.typed t) none := by
  simp only [ofTable, Segment.typed]
  split
  case h_7 hother =>
      -- No other name of a segment has rules.
      split
      · rename_i kind hkind
        have hrules : rules? kind = none := by
          unfold rules?
          split <;> simp_all
        rw [hrules]
        rfl
      · rfl
  all_goals rename_i hkind
  all_goals simp only [hkind, rules?, Option.any_some, fits_cons]
  · exact checks_real.bind fun _ _ => checks_real.bind fun _ _ => Checks.pure _
  · exact checks_real.bind fun _ _ => checks_real.bind fun _ _ => Checks.pure _
  · refine checks_real.bind fun _ _ => checks_real.bind fun _ _ => ?_
    refine checks_real.bind fun _ _ => checks_real.bind fun _ _ => ?_
    exact checks_real.bind fun _ _ => checks_real.bind fun _ _ => Checks.pure _
  · refine checks_real.bind fun _ _ => checks_real.bind fun _ _ => ?_
    exact checks_real.bind fun _ _ => checks_real.bind fun _ _ => Checks.pure _
  · refine Checks.bind ?_ fun rotation _ => ?_
    · have hrotation : Checks (getOr (fun v => (asReal? v).map some) t ["rotation"] none) _ none :=
        checks_getOr _ _
      simp only [Option.isSome_map] at hrotation
      exact hrotation
    refine checks_real.bind fun _ _ => checks_real.bind fun _ _ => ?_
    refine (checks_flagOr _).bind fun _ _ => (checks_flagOr _).bind fun _ _ => ?_
    exact checks_real.bind fun _ _ => checks_real.bind fun _ _ => Checks.pure _
  · exact Checks.pure _

namespace Element

theorem checks_checkId : Checks (checkId t) (identified.holds t) none := checks_text?.map _

theorem checks_animationsOf : Checks (animationsOf t) (animated.holds t) none :=
  checks_tables fun _ => Animation.checks_ofTable

theorem checks_endsInArrow {names : List String} :
    Checks (endsInArrow t names) ((optionalText names).holds t) none :=
  checks_text?.map _

theorem checks_circleOf : Checks (checkId t >>= fun _ => circleOf t) (fits (rules "circle") t) none := by
  simp only [circleOf, rules, fits_cons, fits_append]
  refine checks_checkId.bind fun _ _ => (checks_realOr _).bind fun _ _ => ?_
  refine (checks_realOr _).bind fun _ _ => (checks_realOr _).bind fun _ _ => ?_
  exact (Style.checks_ofTable _).bind fun _ _ => checks_animationsOf.bind fun _ _ => Checks.pure _

theorem checks_ellipseOf :
    Checks (checkId t >>= fun _ => ellipseOf t) (fits (rules "ellipse") t) none := by
  simp only [ellipseOf, rules, fits_cons, fits_append]
  refine checks_checkId.bind fun _ _ => (checks_realOr _).bind fun _ _ => ?_
  refine (checks_realOr _).bind fun _ _ => (checks_realOr _).bind fun _ _ => ?_
  refine (checks_realOr _).bind fun _ _ => (Style.checks_ofTable _).bind fun _ _ => ?_
  exact checks_animationsOf.bind fun _ _ => Checks.pure _

theorem checks_rectangleOf :
    Checks (checkId t >>= fun _ => rectangleOf t) (fits (rules "rectangle") t) none := by
  simp only [rectangleOf, rules, fits_cons, fits_append]
  refine checks_checkId.bind fun _ _ => (checks_realOr _).bind fun _ _ => ?_
  refine (checks_realOr _).bind fun _ _ => (checks_realOr _).bind fun _ _ => ?_
  refine (checks_realOr _).bind fun _ _ => checks_real?.bind fun _ _ => ?_
  refine checks_real?.bind fun _ _ => (Style.checks_ofTable _).bind fun _ _ => ?_
  exact checks_animationsOf.bind fun _ _ => Checks.pure _

theorem checks_lineOf : Checks (checkId t >>= fun _ => lineOf t) (fits (rules "line") t) none := by
  simp only [lineOf, rules, fits_cons, fits_append]
  refine checks_checkId.bind fun _ _ => (checks_realOr _).bind fun _ _ => ?_
  refine (checks_realOr _).bind fun _ _ => (checks_realOr _).bind fun _ _ => ?_
  refine (checks_realOr _).bind fun _ _ => checks_endsInArrow.bind fun _ _ => ?_
  exact (Style.checks_ofTable _).bind fun _ _ => checks_animationsOf.bind fun _ _ => Checks.pure _

theorem checks_labelOf : Checks (checkId t >>= fun _ => labelOf t) (fits (rules "text") t) none := by
  simp only [labelOf, rules, fits_cons, fits_append]
  refine checks_checkId.bind fun _ _ => Label.checks_ofTable.bind fun _ _ => ?_
  exact checks_animationsOf.bind fun _ _ => Checks.pure _

end Element
end
end SvgDiagram
