import SvgDiagram.Value.Basic

/-!
The tools on offer, as they are described to whoever calls them.
-/

namespace SvgDiagram
namespace Tool

structure Parameter where
  name : String
  kind : String
  description : String
  default : Option Value
  required : Bool

structure Description where
  name : String
  text : String
  parameters : List Parameter

def Parameter.schema (p : Parameter) : Value :=
  .table ([(.string "type", .string p.kind), (.string "description", .string p.description)] ++
    p.default.toList.map fun v => (.string "default", v))

def Description.schema (d : Description) : Value :=
  .table [
    (.string "type", .string "object"),
    (.string "properties", .table (d.parameters.map fun p => (.string p.name, p.schema))),
    (.string "required",
      .list ((d.parameters.filter Parameter.required).map fun p => .string p.name))]

def lines (ls : List String) : String := String.intercalate "\n" ls

def svgName : String := "create_svg_from_yaml"

def videoName : String := "create_animation_video"

/-- How long a video takes that does not say, in milliseconds. -/
def defaultDuration : Value := .int 3000

def svgTool : Description where
  name := svgName
  text := lines [
    "Create an animated SVG diagram from a YAML specification.",
    "",
    "Supports shapes: circle, rectangle, line, text, path, group",
    "Supports animations: attribute animations and transform animations (rotate, translate, scale)",
    "Supports reusable definitions and library imports.",
    "",
    "Example YAML:",
    "```yaml",
    "width: 400",
    "height: 300",
    "definitions:",
    "  my_circle:",
    "    type: circle",
    "    r: 25",
    "    fill: red",
    "elements:",
    "  - use: my_circle",
    "    cx: 100",
    "    cy: 150",
    "  - type: group",
    "    transform: translate(200, 150)",
    "    transform_animations:",
    "      - type: rotate",
    "        values: \"0;360\"",
    "        dur: 2s",
    "        repeatCount: indefinite",
    "    elements:",
    "      - type: rectangle",
    "        x: -25",
    "        y: -25",
    "        width: 50",
    "        height: 50",
    "        fill: blue",
    "```"]
  parameters := [
    { name := "yaml_spec", kind := "string", default := none, required := true,
      description := "YAML specification for the SVG diagram" },
    { name := "output_path", kind := "string", default := none, required := false,
      description := "Optional path to write the SVG file. If provided, writes to file and returns " ++
        "confirmation instead of SVG content." },
    { name := "png_path", kind := "string", default := none, required := false,
      description := "Optional path to write a PNG render of the SVG. Useful for previewing static " ++
        "images." }]

def videoTool : Description where
  name := videoName
  text := lines [
    "Create a video file from an SVG animation.",
    "",
    "Takes an SVG with SMIL animations and records it to a .webm video file.",
    "The SVG can be created using create_svg_from_yaml first.",
    "",
    "Example usage:",
    "1. First create an SVG with animations using create_svg_from_yaml",
    "2. Then pass the SVG content to this tool to create a video"]
  parameters := [
    { name := "svg_content", kind := "string", default := none, required := true,
      description := "SVG content with animations" },
    { name := "output_path", kind := "string", default := none, required := true,
      description := "Path where the .webm video will be saved" },
    { name := "duration_ms", kind := "number", default := some defaultDuration, required := false,
      description := "Duration of the video in milliseconds (default: 3000)" }]

def catalogue : List Description := [svgTool, videoTool]

end Tool
end SvgDiagram
