import SvgDiagram.Fault
import SvgDiagram.Yaml.Cursor

/-!
Block scalars: the lines after a `|` or `>` that are indented further than what they belong to.
-/

namespace SvgDiagram
namespace Yaml

/-- What becomes of the line breaks at the end: one is kept, all are, or none is. -/
inductive Chomping where
  | clip
  | keep
  | strip
  deriving DecidableEq, Repr

structure Header where
  chomping : Chomping
  increment : Option Nat

def chomping? : Option Char → Option Chomping
  | some '+' => some .keep
  | some '-' => some .strip
  | _ => none

def digit? (c : Option Char) : Option Nat :=
  c.bind fun ch => if ch.isDigit then some (ch.toNat - 48) else none

/-- The header and the cursor after it. The two signs may stand in either order. -/
def takeHeader (c : Cursor) : Except Fault (Header × Cursor) := do
  let (header, c) :=
    match chomping? c.peek with
    | some ch =>
      match digit? c.next.peek with
      | some d => (Header.mk ch (some d), c.forward 2)
      | none => (Header.mk ch none, c.next)
    | none =>
      match digit? c.peek with
      | some d =>
        match chomping? c.next.peek with
        | some ch => (Header.mk ch (some d), c.forward 2)
        | none => (Header.mk .clip (some d), c.next)
      | none => (Header.mk .clip none, c)
  if header.increment == some 0 || !endsWord c.peek then throw .malformedDocument
  return (header, c)

def skipRestOfLine (c : Cursor) : Except Fault Cursor :=
  let c := c.skipSpaces.skipComment
  if endsLine c.peek then .ok c.takeBreak.2 else .error .malformedDocument

/-- The empty lines at the front, and the greatest column that their spaces reach. -/
def leadingLines (c : Cursor) (breaks : List Char) (deepest : Nat) :
    Nat → List Char × Nat × Cursor
  | 0 => (breaks, deepest, c)
  | fuel + 1 =>
    match c.peek with
    | some ' ' => leadingLines c.next breaks (max deepest c.next.column) fuel
    | some ch =>
      if isBreak ch then
        let (b, c) := c.takeBreak
        leadingLines c (breaks ++ b) deepest fuel
      else (breaks, deepest, c)
    | none => (breaks, deepest, c)

def indentTo (indent : Nat) (c : Cursor) : Cursor :=
  c.forward (min (indent - c.column) (c.run (· == ' ')).length)

def blockBreaks (indent : Nat) (c : Cursor) (breaks : List Char) : Nat → List Char × Cursor
  | 0 => (breaks, c)
  | fuel + 1 =>
    let c := indentTo indent c
    if c.peek.any isBreak then
      let (b, c) := c.takeBreak
      blockBreaks indent c (breaks ++ b) fuel
    else (breaks, c)

def isIndent (c : Option Char) : Bool := c == some ' ' || c == some '\t'

/-- Reads the lines of the scalar. Returns the text, the break after the last line, the empty lines after
that, and the cursor. -/
def blockLines (folded : Bool) (indent : Nat) (c : Cursor) (text breaks : List Char) :
    Nat → List Char × List Char × List Char × Cursor
  | 0 => (text, [], breaks, c)
  | fuel + 1 =>
    let more := !isIndent c.peek
    let line := c.run fun ch => !isBreak ch
    let text := text ++ breaks ++ line
    let (last, c) := (c.forward line.length).takeBreak
    let (breaks, c) := blockBreaks indent c [] (c.rest.length + 1)
    if c.column == indent && c.peek.isSome then
      let joint :=
        if folded && last == ['\n'] && more && !isIndent c.peek then
          if breaks.isEmpty then [' '] else []
        else last
      blockLines folded indent c (text ++ joint) breaks fuel
    else (text, last, breaks, c)

/-- The block scalar whose mark the cursor stands on. `parent` is the indentation around it. -/
def takeBlock (folded : Bool) (parent : Int) (c : Cursor) : Except Fault (List Char × Cursor) := do
  let (header, c) ← takeHeader c.next
  let c ← skipRestOfLine c
  let least := max (parent + 1).toNat 1
  let (breaks, indent, c) :=
    match header.increment with
    | none =>
      let (breaks, deepest, c) := leadingLines c [] 0 (c.rest.length + 1)
      (breaks, max least deepest, c)
    | some n =>
      let indent := least + n - 1
      let (breaks, c) := blockBreaks indent c [] (c.rest.length + 1)
      (breaks, indent, c)
  let (text, last, breaks, c) :=
    if c.column == indent && c.peek.isSome then
      blockLines folded indent c [] breaks (c.rest.length + 1)
    else ([], [], breaks, c)
  let tail :=
    match header.chomping with
    | .strip => []
    | .clip => last
    | .keep => last ++ breaks
  return (text ++ tail, c)

end Yaml
end SvgDiagram
