import SvgDiagram.Yaml.Block
import SvgDiagram.Yaml.Quoted
import SvgDiagram.Yaml.Token

/-!
Directives, anchors, aliases and tags.
-/

namespace SvgDiagram
namespace Yaml

def isNameChar (c : Char) : Bool := c.isAlphanum || c == '-' || c == '_'

def isUriChar (c : Char) : Bool := c.isAlphanum || "-;/?:@&=+$,_.!~*'()[]%".toList.contains c

/-- What may stand right after an anchor or an alias. -/
def endsName : Option Char → Bool
  | some c => endsToken (some c) || "?:,]\x7d%@`".toList.contains c
  | none => true

def takeName (c : Cursor) : Except Fault (String × Cursor) :=
  let name := c.next.run isNameChar
  let c := c.next.forward name.length
  if name.isEmpty || !endsName c.peek then .error .malformedDocument
  else .ok (String.ofList name, c)

/-- The bytes of a text in which `%` begins a two-digit code. -/
def uriBytes : List Char → Except Fault (List UInt8)
  | '%' :: a :: b :: rest =>
    match hexNumber? [a, b] with
    | some n => do return n.toUInt8 :: (← uriBytes rest)
    | none => .error .malformedDocument
  | c :: rest =>
    if c == '%' then .error .malformedDocument else do return c.toNat.toUInt8 :: (← uriBytes rest)
  | [] => .ok []

/-- The suffix of a tag, its codes replaced by what they stand for. -/
def takeUri (c : Cursor) : Except Fault (String × Cursor) := do
  let run := c.run isUriChar
  if run.isEmpty then throw .malformedDocument
  match String.fromUTF8? (ByteArray.mk (← uriBytes run).toArray) with
  | some s => return (s, c.forward run.length)
  | none => throw .malformedDocument

/-- A handle: an exclamation mark, or two with a name between them. -/
def takeHandle (c : Cursor) : Except Fault (String × Cursor) :=
  if c.peek != some '!' then .error .malformedDocument
  else if c.next.peek == some ' ' then .ok ("!", c.next)
  else
    let name := c.next.run isNameChar
    let c := c.next.forward name.length
    if c.peek == some '!' then .ok (String.ofList ('!' :: name ++ ['!']), c.next)
    else .error .malformedDocument

def takeTag (c : Cursor) : Except Fault (Token × Cursor) := do
  let (token, c) ←
    if c.next.peek == some '<' then do
      let (suffix, c) ← takeUri (c.forward 2)
      if c.peek != some '>' then throw .malformedDocument
      pure (Token.tag none suffix, c.next)
    else if endsToken c.next.peek then pure (Token.tag none "!", c.next)
    else do
      let named := (c.next.run fun ch => !endsWord (some ch)).contains '!'
      let (handle, c) ← if named then takeHandle c else pure ("!", c.next)
      let (suffix, c) ← takeUri c
      pure (Token.tag (some handle) suffix, c)
  if endsWord c.peek then return (token, c) else throw .malformedDocument

def takeNumber (c : Cursor) : Except Fault (Nat × Cursor) :=
  let digits := c.run Char.isDigit
  if digits.isEmpty then .error .malformedDocument
  else .ok (digits.foldl (fun n d => n * 10 + (d.toNat - 48)) 0, c.forward digits.length)

def takeVersion (c : Cursor) : Except Fault (Token × Cursor) := do
  let (major, c) ← takeNumber c.skipSpaces
  if c.peek != some '.' then throw .malformedDocument
  let (_, c) ← takeNumber c.next
  if endsWord c.peek then return (.version major, c) else throw .malformedDocument

def takeHandleDirective (c : Cursor) : Except Fault (Token × Cursor) := do
  let (handle, c) ← takeHandle c.skipSpaces
  if c.peek != some ' ' then throw .malformedDocument
  let (replacement, c) ← takeUri c.skipSpaces
  if endsWord c.peek then return (.handle handle replacement, c) else throw .malformedDocument

def takeDirective (c : Cursor) : Except Fault (Token × Cursor) := do
  let name := c.next.run isNameChar
  let c := c.next.forward name.length
  if name.isEmpty || !endsWord c.peek then throw .malformedDocument
  let (token, c) ←
    if name == "YAML".toList then takeVersion c
    else if name == "TAG".toList then takeHandleDirective c
    else pure (.directive, c.skip fun ch => !isBreak ch)
  return (token, ← skipRestOfLine c)

end Yaml
end SvgDiagram
