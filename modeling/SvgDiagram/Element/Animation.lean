import SvgDiagram.Element.Field

/-!
Animations: of one attribute of an element, and of the transform of a group.
-/

namespace SvgDiagram

structure Animation where
  property : String
  duration : String
  source : Option String
  target : Option String
  repetition : Option String
  deriving DecidableEq

def Animation.ofTable (t : Table) : Except Fault Animation := do
  return {
    property := ← Field.text t ["attribute"]
    duration := ← Field.text t ["dur"]
    source := ← Field.text? t ["from_value"]
    target := ← Field.text? t ["to_value"]
    repetition := ← Field.text? t ["repeatCount", "repeat_count"] }

structure TransformAnimation where
  kind : String
  duration : String
  values : Option String
  source : Option String
  target : Option String
  repetition : Option String
  additive : Option String
  deriving DecidableEq

namespace TransformAnimation

def ofTable (t : Table) : Except Fault TransformAnimation := do
  return {
    kind := ← Field.text t ["type"]
    duration := ← Field.text t ["dur"]
    values := ← Field.words? t ["values"]
    source := ← Field.words? t ["from", "from_value"]
    target := ← Field.words? t ["to", "to_value"]
    repetition := ← Field.words? t ["repeatCount", "repeat_count"]
    additive := ← Field.words? t ["additive"] }

def attributeText (name value : String) : String := name ++ "=\"" ++ value ++ "\""

/-- The attributes that are written, in order. -/
def written (a : TransformAnimation) : List (String × String) :=
  [("attributeName", "transform"), ("type", a.kind), ("dur", a.duration)] ++
    [("values", a.values), ("from", a.source), ("to", a.target), ("repeatCount", a.repetition),
      ("additive", a.additive)].filterMap fun e => e.2.map fun value => (e.1, value)

def markup (a : TransformAnimation) : String :=
  "<animateTransform " ++
    String.intercalate " " (a.written.map fun e => attributeText e.1 e.2) ++ "/>"

end TransformAnimation
end SvgDiagram
