import SvgDiagram.Element.Field
import SvgDiagram.Outline.Segment

/-!
What the outline of a path element is drawn with: its data, or else its segments.
-/

namespace SvgDiagram
namespace Outline

def Segment.ofTable (t : Table) : Except Fault Segment := do
  let real := fun name => Field.real t [name]
  match Table.field? t "type" with
  | some (.string "move_to") => return .move (← real "x") (← real "y")
  | some (.string "line_to") => return .line (← real "x") (← real "y")
  | some (.string "cubic_bezier") =>
    return .cubic (← real "x1") (← real "y1") (← real "x2") (← real "y2") (← real "x") (← real "y")
  | some (.string "quadratic_bezier") =>
    return .quadratic (← real "x1") (← real "y1") (← real "x") (← real "y")
  | some (.string "arc") =>
    let rotation ← Field.getOr (fun v => (Field.asReal? v).map some) t ["rotation"] none
    return .arc (← real "rx") (← real "ry") rotation (← Field.flagOr t ["large_arc"] false)
      (← Field.flagOr t ["sweep"] true) (← real "x") (← real "y")
  | some (.string "close") => return .close
  | _ => throw .invalidField

/-- The data that a path element is drawn with. Data that is given wins, also when it is empty; segments
beside it are read all the same. -/
def drawnData (t : Table) : Except Fault String := do
  let given ← Field.text? t ["d"]
  let segments ← Field.tables t ["segments"] Segment.ofTable
  match given with
  | some d => return d
  | none => if segments.isEmpty then throw .outlineWithoutData else return data segments

end Outline
end SvgDiagram
