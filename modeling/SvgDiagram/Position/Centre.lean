import SvgDiagram.Outline.Centre

/-!
The centre of an element, where a connection meets it.
-/

namespace SvgDiagram
namespace Position

def pairOf (element : Value) (x y : String) : Except Fault Point := do
  return ⟨← (← element.part x).toFloat, ← (← element.part y).toFloat⟩

def rectangleCentre (element : Value) : Except Fault Point := do
  let corner ← pairOf element "x" "y"
  let size ← pairOf element "width" "height"
  return ⟨corner.x + size.x / 2, corner.y + size.y / 2⟩

def centre (element : Value) : Except Fault Point := do
  let entries ← element.entries
  let kind := (Table.field? entries "type").getD .null
  match kind with
  | .string "circle" | .string "ellipse" => pairOf element "cx" "cy"
  | .string "rectangle" => rectangleCentre element
  | .string "text" => pairOf element "x" "y"
  | .string "path" => Outline.centre entries
  | _ => .error (.noCentre kind.text)

end Position
end SvgDiagram
