import SvgDiagram.Drawing.Node
import SvgDiagram.Element.Basic
import SvgDiagram.Position.Resolve

/-!
Drawing the elements of a scene: one node for each element, in order, and inside the node of a group one
node for each child and then one for each of its transform animations.
-/

namespace SvgDiagram
namespace Drawing

def textAttribute (name : String) (value : Option String) : Attributes :=
  value.toList.map fun s => (name, .text s)

def numberAttribute (name : String) (value : Option Float) : Attributes :=
  value.toList.map fun x => (name, .number x)

def strokeAttributes (s : Style) : Attributes :=
  [("stroke", .text s.stroke), ("stroke_width", .number s.strokeWidth)]

def optionalAttributes (s : Style) : Attributes :=
  textAttribute "transform" s.transform ++ numberAttribute "opacity" s.opacity ++
    textAttribute "stroke_dasharray" s.dashes ++ textAttribute "stroke_linecap" s.lineCap ++
    textAttribute "stroke_linejoin" s.lineJoin ++ numberAttribute "fill_opacity" s.fillOpacity ++
    numberAttribute "stroke_opacity" s.strokeOpacity

/-- The attributes of a line, which has no inside to fill. -/
def lineAttributes (s : Style) : Attributes := strokeAttributes s ++ optionalAttributes s

def areaAttributes (s : Style) : Attributes := ("fill", .text s.fill) :: lineAttributes s

/-- A connection is painted with fewer attributes than a line. -/
def linkAttributes (s : Style) : Attributes :=
  strokeAttributes s ++ numberAttribute "opacity" s.opacity ++
    textAttribute "stroke_dasharray" s.dashes ++ textAttribute "stroke_linecap" s.lineCap

/-- The head of an arrow, a triangle in the marker's own coordinates. -/
def arrowHead (colour : String) : Node :=
  .mk (.marker (-0.1) (-0.5) 0.9 0.5)
    [("scale", .number 4), ("orient", .text "auto"), ("id", .text "arrow")] none
    [.leaf (.lines [-0.1, -0.5, -0.1, 0.5, 0.9, 0]) [("fill", .text colour), ("close", .flag true)]] []

def optionalSetting : Option String → Setting
  | some s => .text s
  | none => .unset

def animate (a : Animation) : Node :=
  .leaf (.animate a.property a.duration)
    [("from_or_values", optionalSetting a.source), ("to", optionalSetting a.target),
      ("repeatCount", optionalSetting a.repetition)]

def labelAttributes (l : Label) : Attributes :=
  ("fill", .text l.style.fill) :: textAttribute "text_anchor" l.anchor ++
    textAttribute "font_family" l.family ++ textAttribute "font_weight" l.weight ++
    textAttribute "font_style" l.slant ++ textAttribute "dominant_baseline" l.baseline ++
    textAttribute "transform" l.style.transform

/-- The width of a character, as a part of the font size. -/
def characterWidth : Float := 0.6

/-- The panel behind a text. The text stands on its baseline, so the panel begins above it. -/
def panel (l : Label) (colour : String) : Node :=
  let width := Float.ofNat l.content.length * (l.size * characterWidth)
  .leaf
    (.rectangle (l.x - l.padding) (l.y - l.size + l.padding / 2) (width + 2 * l.padding)
      (l.size + l.padding))
    [("fill", .text colour), ("stroke", .text "none")]

def label (l : Label) (animations : List Node) : Node :=
  let shape := Shape.text l.content l.size l.x l.y
  match l.panel with
  | none => .mk shape (labelAttributes l) none [] animations
  | some colour => .mk .group [] none [panel l colour, .leaf shape (labelAttributes l)] animations

def arrowColour (arrow : Bool) (s : Style) : Option String := if arrow then some s.stroke else none

mutual

def draw : Element → Node
  | .circle cx cy r s as => .mk (.circle cx cy r) (areaAttributes s) none [] (as.map animate)
  | .ellipse cx cy rx ry s as =>
    .mk (.ellipse cx cy rx ry) (areaAttributes s) none [] (as.map animate)
  | .rectangle x y w h rx ry s as =>
    .mk (.rectangle x y w h)
      (areaAttributes s ++ numberAttribute "rx" rx ++ numberAttribute "ry" ry) none []
      (as.map animate)
  | .line x1 y1 x2 y2 arrow s as =>
    .mk (.line (.float x1) (.float y1) (.float x2) (.float y2)) (lineAttributes s)
      (arrowColour arrow s) [] (as.map animate)
  | .label l as => label l (as.map animate)
  | .outline d s as =>
    .mk .path (("d", .text d) :: areaAttributes s) none [] (as.map animate)
  | .connection x1 y1 x2 y2 arrow s as =>
    .mk (.line x1 y1 x2 y2) (linkAttributes s) (arrowColour arrow s) [] (as.map animate)
  | .group transform children as =>
    .mk .group (textAttribute "transform" transform) none
      (drawAll children ++ as.map fun a => .leaf (.raw a.markup) []) []

def drawAll : List Element → List Node
  | [] => []
  | e :: rest => draw e :: drawAll rest

end

/-- The canvas size of a scene that gives none. -/
def defaultWidth : Value := .int 400
def defaultHeight : Value := .int 300

/-- The drawing of a scene: positions are resolved, and the elements drawn in the order that gives. -/
def ofScene (scene : Value) : Except Fault Drawing := do
  let entries ← scene.entries
  let elements ← Position.resolve ((Table.field? entries "elements").getD (.list []))
  return {
    width := (Table.field? entries "width").getD defaultWidth
    height := (Table.field? entries "height").getD defaultHeight
    elements := drawAll (← Element.ofList elements) }

end Drawing
end SvgDiagram
