import SvgDiagram.Text.Word
import SvgDiagram.Value.Shape

/-!
Position expressions: `name.attribute`, or `name.attribute + 12.5` with a plus or a minus. A registry
gives the elements that can be named.
-/

namespace SvgDiagram
namespace Position

/-- A number to add to, or to take from, the attribute. -/
structure Offset where
  negative : Bool
  numeral : List Char
  deriving DecidableEq, Repr

structure Expression where
  target : List Char
  property : List Char
  offset : Option Offset
  deriving DecidableEq, Repr

/-- Digits, and perhaps a point and more digits, up to the end of the text. -/
def isNumeral (cs : List Char) : Bool :=
  let rest := cs.dropWhile Text.isDigit
  !(cs.takeWhile Text.isDigit).isEmpty &&
    match rest with
    | [] => true
    | c :: fraction => c == '.' && !fraction.isEmpty && fraction.all Text.isDigit

def readOffset? (cs : List Char) : Option (Option Offset) :=
  if cs.isEmpty then some none
  else
    match cs.dropWhile Text.isBlank with
    | c :: rest =>
      let numeral := rest.dropWhile Text.isBlank
      if (c == '+' || c == '-') && isNumeral numeral then some (some ⟨c == '-', numeral⟩) else none
    | [] => none

namespace Expression

/-- The expression that a text spells, blanks at its ends aside. -/
def read? (text : String) : Option Expression :=
  let cs := Text.strip text.toList
  let target := cs.takeWhile Text.isWord
  match cs.dropWhile Text.isWord with
  | '.' :: rest =>
    let property := rest.takeWhile Text.isWord
    if target.isEmpty || property.isEmpty then none
    else (readOffset? (rest.dropWhile Text.isWord)).map fun offset => ⟨target, property, offset⟩
  | _ => none

def offsetValue (numeral : List Char) : Except Fault Float :=
  (Value.string (String.ofList numeral)).toFloat

def eval (registry : Value) (e : Expression) : Except Fault Float := do
  let name := String.ofList e.target
  let property := String.ofList e.property
  if !(← registry.holds name) then throw (.unknownElement name)
  let element ← registry.part name
  if !(← element.holds property) then throw (.unknownAttribute property name)
  let base ← (← element.part property).toFloat
  match e.offset with
  | none => return base
  | some ⟨negative, numeral⟩ =>
    let offset ← offsetValue numeral
    return if negative then base - offset else base + offset

end Expression

def evalText (registry : Value) (text : String) : Except Fault Float :=
  match Expression.read? text with
  | some e => e.eval registry
  | none => .error (.invalidExpression text)

/-- The value of a text as a position expression. Nothing but a text is one. -/
def evalValue (registry : Value) : Value → Except Fault Float
  | .string text => evalText registry text
  | _ => .error .noParts

end Position
end SvgDiagram
