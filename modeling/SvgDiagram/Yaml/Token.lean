/-!
The tokens of a document.
-/

namespace SvgDiagram
namespace Yaml

inductive Token where
  | streamEnd
  | version (major : Nat)
  | handle (name replacement : String)
  | directive
  | documentStart
  | documentEnd
  | blockSequence
  | blockMapping
  | blockEnd
  | sequenceOpen
  | sequenceClose
  | mappingOpen
  | mappingClose
  | dash
  | comma
  | key
  | value
  | alias (name : String)
  | anchor (name : String)
  /-- A tag with the handle that its suffix is to be put after, if it has one. -/
  | tag (handle : Option String) (suffix : String)
  | scalar (text : String) (plain : Bool)
  deriving DecidableEq, Repr

end Yaml
end SvgDiagram
