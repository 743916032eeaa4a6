import SvgDiagram.Outline.Data
import SvgDiagram.Value.Shape

/-!
The centre of a closed outline: the mean of its end points. An outline is given by its segments or,
without any, by its data.
-/

namespace SvgDiagram
namespace Outline

/-- The sum of some coordinates, from left to right. -/
def total (xs : List Float) : Float := xs.foldl (· + ·) 0.0

/-- The mean of the points, each coordinate for itself. -/
def centroid (ps : List Point) : Except Fault Point :=
  if ps.isEmpty then .error .noCoordinates
  else
    let count := Float.ofNat ps.length
    .ok ⟨total (ps.map Point.x) / count, total (ps.map Point.y) / count⟩

def centreOfData (data : String) : Except Fault Point :=
  if isClosed data then centroid (points data) else .error .openOutline

/-- The segment kinds that end in a point. -/
def pointed : List String := ["move_to", "line_to", "cubic_bezier", "quadratic_bezier", "arc"]

def hasKind (kinds : List String) (segment : Value) : Except Fault Bool := do
  match ← segment.part? "type" with
  | some (.string s) => return kinds.contains s
  | _ => return false

/-- Whether some segment closes the outline. Segments after the first such one are not looked at. -/
def closes : List Value → Except Fault Bool
  | [] => .ok false
  | s :: rest => do
    if ← hasKind ["close"] s then return true else closes rest

def segmentPoints : List Value → Except Fault (List Point)
  | [] => .ok []
  | s :: rest => do
    if ← hasKind pointed s then
      let x ← (← s.part "x").toFloat
      let y ← (← s.part "y").toFloat
      return ⟨x, y⟩ :: (← segmentPoints rest)
    else segmentPoints rest

def centreOfSegments (segments : Value) : Except Fault Point := do
  let segments ← segments.items
  if ← closes segments then centroid (← segmentPoints segments) else .error .openOutline

def centre (element : Table) : Except Fault Point :=
  let segments := (Table.field? element "segments").getD .null
  let data := (Table.field? element "d").getD .null
  if segments.isGiven then centreOfSegments segments
  else if data.isGiven then
    match data with
    | .string s => centreOfData s
    | .bytes _ => .error .wrongShape
    | _ => .error .noParts
  else .error .outlineWithoutSource

end Outline
end SvgDiagram
