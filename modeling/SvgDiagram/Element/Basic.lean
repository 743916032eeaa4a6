import SvgDiagram.Element.Animation
import SvgDiagram.Element.Source
import SvgDiagram.Element.Style

/-!
The elements of a scene. Reading an element finds every fault that can keep it from being drawn, in the
order of the elements and of the children of groups.
-/

namespace SvgDiagram

/-- A text, and perhaps a panel behind it. -/
structure Label where
  content : String
  size : Float
  x : Float
  y : Float
  style : Style
  anchor : Option String
  family : Option String
  weight : Option String
  slant : Option String
  baseline : Option String
  panel : Option String
  padding : Float

inductive Element where
  | circle (cx cy r : Float) (style : Style) (animations : List Animation)
  | ellipse (cx cy rx ry : Float) (style : Style) (animations : List Animation)
  | rectangle (x y width height : Float) (rx ry : Option Float) (style : Style)
      (animations : List Animation)
  | line (x1 y1 x2 y2 : Float) (arrow : Bool) (style : Style) (animations : List Animation)
  | label (label : Label) (animations : List Animation)
  | outline (data : String) (style : Style) (animations : List Animation)
  /-- The ends are whatever the element holds: a connection inside a group is drawn as it stands. -/
  | connection (x1 y1 x2 y2 : Value) (arrow : Bool) (style : Style) (animations : List Animation)
  | group (transform : Option String) (children : List Element)
      (animations : List TransformAnimation)

def Label.ofTable (t : Table) : Except Fault Label := do
  return {
    content := ← Field.textOr t ["text"] ""
    size := ← Field.realOr t ["font-size", "font_size"] 16
    x := ← Field.realOr t ["x"] 0
    y := ← Field.realOr t ["y"] 0
    style := ← Style.ofTable Paint.label t
    anchor := ← Field.words? t ["text-anchor", "text_anchor"]
    family := ← Field.words? t ["font-family", "font_family"]
    weight := ← Field.words? t ["font-weight", "font_weight"]
    slant := ← Field.words? t ["font-style", "font_style"]
    baseline := ← Field.words? t ["dominant-baseline", "dominant_baseline"]
    panel := ← Field.words? t ["background"]
    padding := ← Field.realOr t ["background-padding", "background_padding"] 4 }

namespace Element

def animationsOf (t : Table) : Except Fault (List Animation) :=
  Field.tables t ["animations"] Animation.ofTable

def circleOf (t : Table) : Except Fault Element := do
  return .circle (← Field.realOr t ["cx"] 50) (← Field.realOr t ["cy"] 50) (← Field.realOr t ["r"] 25)
    (← Style.ofTable Paint.area t) (← animationsOf t)

def ellipseOf (t : Table) : Except Fault Element := do
  return .ellipse (← Field.realOr t ["cx"] 0) (← Field.realOr t ["cy"] 0)
    (← Field.realOr t ["rx"] 50) (← Field.realOr t ["ry"] 25)
    (← Style.ofTable Paint.area t) (← animationsOf t)

def rectangleOf (t : Table) : Except Fault Element := do
  return .rectangle (← Field.realOr t ["x"] 0) (← Field.realOr t ["y"] 0)
    (← Field.realOr t ["width"] 100) (← Field.realOr t ["height"] 50)
    (← Field.real? t ["rx"]) (← Field.real? t ["ry"])
    (← Style.ofTable Paint.area t) (← animationsOf t)

def endsInArrow (t : Table) (names : List String) : Except Fault Bool := do
  return (← Field.text? t names) == some "arrow"

def lineOf (t : Table) : Except Fault Element := do
  return .line (← Field.realOr t ["x1"] 0) (← Field.realOr t ["y1"] 0)
    (← Field.realOr t ["x2"] 100) (← Field.realOr t ["y2"] 100) (← endsInArrow t ["marker_end"])
    (← Style.ofTable Paint.line t) (← animationsOf t)

def labelOf (t : Table) : Except Fault Element := do
  return .label (← Label.ofTable t) (← animationsOf t)

def outlineOf (t : Table) : Except Fault Element := do
  let style ← Style.ofTable Paint.outline t
  let animations ← animationsOf t
  return .outline (← Outline.drawnData t) style animations

/-- The ids of the ends must be texts, though nothing is drawn with them. -/
def connectionOf (t : Table) : Except Fault Element := do
  let _ ← Field.text t ["from", "from_id"]
  let _ ← Field.text t ["to", "to_id"]
  let style ← Style.ofTable Paint.link t
  let arrow ← endsInArrow t ["marker-end", "marker_end"]
  let animations ← animationsOf t
  let coordinate := fun name => (Value.table t).part name
  return .connection (← coordinate "x1") (← coordinate "y1") (← coordinate "x2") (← coordinate "y2")
    arrow style animations

/-- The elements without children, by the name of their type. -/
def leafOf? : String → Option (Table → Except Fault Element)
  | "circle" => some circleOf
  | "ellipse" => some ellipseOf
  | "rectangle" => some rectangleOf
  | "line" => some lineOf
  | "text" => some labelOf
  | "path" => some outlineOf
  | "connection" => some connectionOf
  | _ => none

/-- An id must be a text, though nothing is drawn with it. -/
def checkId (t : Table) : Except Fault Unit := do
  let _ ← Field.text? t ["id"]

/-- An element that is no group. -/
def leaf (kind : Value) (t : Table) : Except Fault Element :=
  match kind with
  | .null => .error .missingType
  | .string name =>
    match leafOf? name with
    | some read => do
      checkId t
      read t
    | none => .error (.unknownType name)
  | _ => if kind.isKey then .error (.unknownType kind.text) else .error .wrongShape

/-- A group, by what is read from the elements in it. These must be tables before any of them is read. -/
def groupOf (t : Table) (children : Except Fault (List Element)) : Except Fault Element := do
  checkId t
  let transform ← Field.words? t ["transform"]
  let animations ← Field.tables t ["transform_animations"] TransformAnimation.ofTable
  let _ ← Field.tables t ["elements"] fun _ => .ok ()
  return .group transform (← children) animations

mutual

def ofValue : Value → Except Fault Element
  | .table entries =>
    let kind := (Table.field? entries "type").getD .null
    if kind.isText "group" then groupOf entries (children entries) else leaf kind entries
  | _ => .error .noParts

def children : List (Value × Value) → Except Fault (List Element)
  | [] => .ok []
  | (key, v) :: rest => if key.isText "elements" then childItems v else children rest

def childItems : Value → Except Fault (List Element)
  | .list vs | .set vs => ofList vs
  | .pair a b => do
    let first ← ofValue a
    return [first, ← ofValue b]
  | _ => .error .invalidField

def ofList : List Value → Except Fault (List Element)
  | [] => .ok []
  | v :: rest => do
    let e ← ofValue v
    return e :: (← ofList rest)

end

end Element
end SvgDiagram
