import SvgDiagram.Yaml.Cursor

/-!
Plain scalars: words with gaps between them. A gap inside a line is kept; a gap over line breaks is folded.
-/

namespace SvgDiagram
namespace Yaml

def isFlowMark (c : Char) : Bool := c == ',' || c == '[' || c == ']' || c == '\x7b' || c == '\x7d'

/-- The word at the front of a text. A colon ends it before a blank, and within a flow collection also
before a mark. -/
def plainWord (flow : Bool) : List Char → List Char
  | [] => []
  | c :: rest =>
    if endsToken (some c) then []
    else if c == ':' && (endsToken rest.head? || (flow && rest.head?.any isFlowMark)) then []
    else if flow && (c == '?' || isFlowMark c) then []
    else c :: plainWord flow rest

/-- A gap: what it counts as, where it ends, and whether it reaches over a line break. -/
structure Gap where
  text : List Char
  cursor : Cursor
  newLine : Bool

/-- The empty lines after a line break, up to the next line with content. `none` if a separator follows. -/
def emptyLines (c : Cursor) (breaks : List Char) : Nat → Option (List Char) × Cursor
  | 0 => (some breaks, c)
  | fuel + 1 =>
    match c.peek with
    | some ' ' => emptyLines c.next breaks fuel
    | some ch =>
      if isBreak ch then
        let (b, c) := c.takeBreak
        if c.atSeparator then (none, c) else emptyLines c (breaks ++ b) fuel
      else (some breaks, c)
    | none => (some breaks, c)

/-- One line break folds into a space, several into all but the first. -/
def fold (first breaks : List Char) : List Char :=
  if first != ['\n'] then first ++ breaks else if breaks.isEmpty then [' '] else breaks

def plainGap (c : Cursor) : Gap :=
  let spaces := c.run (· == ' ')
  let c := c.skipSpaces
  if c.peek.any isBreak then
    let (first, c) := c.takeBreak
    if c.atSeparator then ⟨[], c, true⟩
    else
      match emptyLines c [] (c.rest.length + 1) with
      | (some breaks, c) => ⟨fold first breaks, c, true⟩
      | (none, c) => ⟨[], c, true⟩
  else ⟨spaces, c, false⟩

/-- Reads on after a gap. `indent` is the least column that a further line may begin at. -/
def plainFrom (flow : Bool) (indent : Nat) (text : List Char) (gap : Gap) : Nat → List Char × Gap
  | 0 => (text, gap)
  | fuel + 1 =>
    let word := plainWord flow gap.cursor.rest
    if word.isEmpty then (text, gap)
    else
      let text := text ++ gap.text ++ word
      let gap := plainGap (gap.cursor.forward word.length)
      if gap.text.isEmpty || gap.cursor.peek == some '#' || (!flow && gap.cursor.column < indent) then
        (text, gap)
      else plainFrom flow indent text gap fuel

def takePlain (flow : Bool) (indent : Nat) (c : Cursor) : List Char × Gap :=
  plainFrom flow indent [] ⟨[], c, false⟩ (c.rest.length + 1)

end Yaml
end SvgDiagram
