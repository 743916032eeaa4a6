import SvgDiagram.Drawing.Node
import SvgDiagram.Text.Digit
import SvgDiagram.Value.Shape

/-!
The page that a picture is shown on in a browser. Its size is the one asked for, or else the one the
picture names first, or else a default.
-/

namespace SvgDiagram

inductive Picture where
  | markup (text : String)
  | drawing (d : Drawing)

/-- How a drawing begins as markup. -/
def Drawing.opening (d : Drawing) : String :=
  "<svg width=\"" ++ d.width.text ++ "\" height=\"" ++ d.height.text ++ "\">"

/-- The markup in which the size of a picture is looked for. -/
def Picture.opening : Picture → String
  | .markup text => text
  | .drawing d => d.opening

namespace Render

/-- The digits at the front, if the text starts with the attribute set to them. -/
def digitsHere? (name : List Char) (cs : List Char) : Option (List Char) := do
  match ← Text.after? (name ++ ['=']) cs with
  | quote :: value =>
    let digits := value.takeWhile Text.isDigit
    if (quote == '"' || quote == '\'') && !digits.isEmpty then some digits else none
  | [] => none

/-- The digits of the leftmost place where the attribute is set to some. -/
def digitsOf? (name : List Char) : List Char → Option (List Char)
  | [] => none
  | c :: cs =>
    match digitsHere? name (c :: cs) with
    | some digits => some digits
    | none => digitsOf? name cs

/-- The number that an attribute is set to first. -/
def dimension (name : String) (markup : String) : Except Fault (Option Int) :=
  match digitsOf? name.toList markup.toList with
  | none => .ok none
  | some digits => do return some (← Value.textToInt 10 (String.ofList digits))

/-- A size that is asked for counts as it is; one that is named counts unless it is zero. -/
def extent (name : String) (default : Int) (asked : Value) (p : Picture) : Except Fault Value :=
  match asked with
  | .null => do
    match ← dimension name p.opening with
    | some n => return .int (if n == 0 then default else n)
    | none => return .int default
  | v => .ok v

structure Size where
  width : Value
  height : Value

def size (width height : Value) (p : Picture) : Except Fault Size := do
  return ⟨← extent "width" 800 width p, ← extent "height" 600 height p⟩

structure Page where
  size : Size
  picture : Picture

def Page.html (page : Page) (markup : String) : String :=
  String.intercalate "\n" [
    "<!DOCTYPE html>",
    "<html>",
    "<head>",
    "    <style>",
    "        body \x7b",
    "            margin: 0;",
    "            padding: 0;",
    "            display: flex;",
    "            justify-content: center;",
    "            align-items: center;",
    "            width: " ++ page.size.width.text ++ "px;",
    "            height: " ++ page.size.height.text ++ "px;",
    "            background: white;",
    "        \x7d",
    "        svg \x7b",
    "            max-width: 100%;",
    "            max-height: 100%;",
    "        \x7d",
    "    </style>",
    "</head>",
    "<body>",
    markup,
    "</body>",
    "</html>"]

inductive Call where
  | launch
  | newPage (viewport : Option Size)
  /-- A context for pages of one size that records what they show, at a size of its own, in the working
  directory. -/
  | newContext (viewport recorded : Size)
  | setContent (page : Page)
  | wait (milliseconds : Value)
  | screenshot (path : String)
  | closeContext
  | closeBrowser

/-- What the page says about its recording: a file of some name in the working directory, or none. -/
inductive Recording where
  | file (name : String)
  | absent
  | unplaced
  deriving DecidableEq, Repr

end Render
end SvgDiagram
