import SvgDiagram.Number.Written
import SvgDiagram.Text.Quoted
import SvgDiagram.Value.Basic

/-!
The text of a value in messages and markup. A text stands for itself; inside a list or a table it is
quoted.
-/

namespace SvgDiagram
namespace Value

def commaSeparated (parts : List String) : String := String.intercalate ", " parts

mutual

/-- The text of a value inside another one. -/
def inner : Value → String
  | .null => "None"
  | .bool b => if b then "True" else "False"
  | .int n => toString n
  | .float x => Number.written x
  | .string s => Text.quoted s
  | .bytes data => Text.quotedBytes data
  | .moment m => m.inner
  | .list items => "[" ++ commaSeparated (innerItems items) ++ "]"
  | .pair a b => "(" ++ a.inner ++ ", " ++ b.inner ++ ")"
  | .set items =>
    if items.isEmpty then "set()" else "\x7b" ++ commaSeparated (innerItems items) ++ "\x7d"
  | .table entries => "\x7b" ++ commaSeparated (innerEntries entries) ++ "\x7d"

def innerItems : List Value → List String
  | [] => []
  | v :: rest => v.inner :: innerItems rest

def innerEntries : List (Value × Value) → List String
  | [] => []
  | (k, v) :: rest => (k.inner ++ ": " ++ v.inner) :: innerEntries rest

end

def text : Value → String
  | .string s => s
  | .moment m => m.text
  | v => v.inner

end Value
end SvgDiagram
