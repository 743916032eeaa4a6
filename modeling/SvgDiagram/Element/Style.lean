import SvgDiagram.Element.Field

/-!
How an element is painted.
-/

namespace SvgDiagram

structure Style where
  fill : String
  stroke : String
  strokeWidth : Float
  transform : Option String
  opacity : Option Float
  dashes : Option String
  lineCap : Option String
  lineJoin : Option String
  fillOpacity : Option Float
  strokeOpacity : Option Float

/-- What a kind of element is painted with when it does not say, and how it spells its stroke width. -/
structure Paint where
  fill : String
  stroke : String
  strokeWidth : Float
  widthNames : List String

namespace Paint

def area : Paint := ⟨"blue", "none", 0, ["stroke-width", "stroke_width"]⟩

def line : Paint := ⟨"blue", "black", 2, ["stroke_width"]⟩

def outline : Paint := ⟨"none", "black", 1, ["stroke_width"]⟩

def link : Paint := ⟨"blue", "black", 2, ["stroke-width", "stroke_width"]⟩

def label : Paint := ⟨"black", "none", 0, ["stroke-width", "stroke_width"]⟩

end Paint

def Style.ofTable (p : Paint) (t : Table) : Except Fault Style := do
  return {
    fill := ← Field.textOr t ["fill"] p.fill
    stroke := ← Field.textOr t ["stroke"] p.stroke
    strokeWidth := ← Field.realOr t p.widthNames p.strokeWidth
    transform := ← Field.words? t ["transform"]
    opacity := ← Field.real? t ["opacity"]
    dashes := ← Field.words? t ["stroke-dasharray", "stroke_dasharray"]
    lineCap := ← Field.words? t ["stroke-linecap", "stroke_linecap"]
    lineJoin := ← Field.words? t ["stroke-linejoin", "stroke_linejoin"]
    fillOpacity := ← Field.real? t ["fill-opacity", "fill_opacity"]
    strokeOpacity := ← Field.real? t ["stroke-opacity", "stroke_opacity"] }

end SvgDiagram
