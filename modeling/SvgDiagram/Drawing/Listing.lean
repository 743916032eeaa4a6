import SvgDiagram.Drawing.Node
import SvgDiagram.Number.Written
import SvgDiagram.Value.Written

/-!
A drawing as lines of text: one line for each node, indented by its depth, with the geometry of its shape
and then its attributes.
-/

namespace SvgDiagram
namespace Drawing

def Shape.words : Shape → List String
  | .circle cx cy r => "circle" :: [cx, cy, r].map Number.written
  | .ellipse cx cy rx ry => "ellipse" :: [cx, cy, rx, ry].map Number.written
  | .rectangle x y w h => "rectangle" :: [x, y, w, h].map Number.written
  | .line x1 y1 x2 y2 => "line" :: [x1, y1, x2, y2].map Value.text
  | .lines xs => "lines" :: xs.map Number.written
  | .path => ["path"]
  | .text s size x y => ["text", Text.quoted s] ++ [size, x, y].map Number.written
  | .group => ["group"]
  | .marker a b c d => "marker" :: [a, b, c, d].map Number.written
  | .animate property duration => ["animate", property, duration]
  | .raw markup => [markup]

def Setting.word : Setting → String
  | .number x => Number.written x
  | .text s => Text.quoted s
  | .flag b => (Value.bool b).text
  | .unset => Value.null.text

def attributeWords (attributes : Attributes) : List String :=
  attributes.map fun a => a.1 ++ "=" ++ a.2.word

def Node.line (depth : Nat) (n : Node) : String :=
  String.ofList (List.replicate (2 * depth) ' ') ++
    String.intercalate " " (n.shape.words ++ attributeWords n.attributes ++
      n.arrow.toList.map fun colour => "arrow=" ++ Text.quoted colour)

mutual

/-- The lines of a node: its own, those of its children, those of its animations. -/
def Node.listing (depth : Nat) : Node → List String
  | .mk shape attributes arrow children animations =>
    Node.line depth (.mk shape attributes arrow children animations) ::
      (listAll (depth + 1) children ++ listAll (depth + 1) animations)

def listAll (depth : Nat) : List Node → List String
  | [] => []
  | n :: rest => Node.listing depth n ++ listAll depth rest

end

end Drawing

def Drawing.listing (d : Drawing) : List String :=
  ("drawing " ++ d.width.text ++ " " ++ d.height.text) :: Drawing.listAll 1 d.elements

end SvgDiagram
