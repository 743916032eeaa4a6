import SvgDiagram.Number.Written

/-!
Outlines given as a list of segments, and the outline data they are drawn with.
-/

namespace SvgDiagram
namespace Outline

inductive Segment where
  | move (x y : Float)
  | line (x y : Float)
  | cubic (x1 y1 x2 y2 x y : Float)
  | quadratic (x1 y1 x y : Float)
  /-- An arc whose rotation is left out is drawn unrotated. -/
  | arc (rx ry : Float) (rotation : Option Float) (large sweep : Bool) (x y : Float)
  | close

def pairText (x y : Float) : String := Number.written x ++ "," ++ Number.written y

def flagText (b : Bool) : String := if b then "1" else "0"

/-- A rotation that is left out is written as a bare zero. -/
def rotationText : Option Float → String
  | some r => Number.written r
  | none => "0"

def Segment.data : Segment → String
  | .move x y => "M" ++ pairText x y
  | .line x y => "L" ++ pairText x y
  | .cubic x1 y1 x2 y2 x y =>
    "C" ++ pairText x1 y1 ++ " " ++ pairText x2 y2 ++ " " ++ pairText x y
  | .quadratic x1 y1 x y => "Q" ++ pairText x1 y1 ++ " " ++ pairText x y
  | .arc rx ry rotation large sweep x y =>
    "A" ++ pairText rx ry ++ " " ++ rotationText rotation ++ " " ++ flagText large ++ " " ++
      flagText sweep ++ " " ++ pairText x y
  | .close => "Z"

def data (segments : List Segment) : String :=
  String.intercalate " " (segments.map Segment.data)

end Outline
end SvgDiagram
