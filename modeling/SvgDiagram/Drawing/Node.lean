import SvgDiagram.Value.Basic

/-!
Drawings: a tree of shapes with attributes. A shape has its geometry, a node adds how it is painted,
what it contains and how it moves.
-/

namespace SvgDiagram

namespace Drawing

inductive Shape where
  | circle (cx cy r : Float)
  | ellipse (cx cy rx ry : Float)
  | rectangle (x y width height : Float)
  | line (x1 y1 x2 y2 : Value)
  | lines (coordinates : List Float)
  | path
  | text (content : String) (size x y : Float)
  | group
  | marker (left top right bottom : Float)
  | animate (property duration : String)
  | raw (markup : String)

inductive Setting where
  | number (x : Float)
  | text (s : String)
  | flag (b : Bool)
  | unset

abbrev Attributes := List (String × Setting)

/-- A node. `arrow` is the colour of the arrow head that a line ends in. -/
inductive Node where
  | mk (shape : Shape) (attributes : Attributes) (arrow : Option String) (children : List Node)
      (animations : List Node)

namespace Node

def shape : Node → Shape
  | .mk s _ _ _ _ => s

def attributes : Node → Attributes
  | .mk _ a _ _ _ => a

def arrow : Node → Option String
  | .mk _ _ h _ _ => h

def children : Node → List Node
  | .mk _ _ _ cs _ => cs

def animations : Node → List Node
  | .mk _ _ _ _ as => as

def leaf (shape : Shape) (attributes : Attributes) : Node := .mk shape attributes none [] []

end Node
end Drawing

/-- A drawing keeps the size of its canvas as the scene gives it. -/
structure Drawing where
  width : Value
  height : Value
  elements : List Drawing.Node

end SvgDiagram
