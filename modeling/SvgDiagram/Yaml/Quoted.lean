import SvgDiagram.Fault
import SvgDiagram.Yaml.Plain

/-!
Quoted scalars. Between single quotes only a doubled quote is special; between double quotes a backslash
begins an escape. Line breaks are folded as in plain scalars.
-/

namespace SvgDiagram
namespace Yaml

def escapeChar? : Char → Option Char
  | '0' => some '\x00'
  | 'a' => some '\x07'
  | 'b' => some '\x08'
  | 't' => some '\t'
  | '\t' => some '\t'
  | 'n' => some '\n'
  | 'v' => some '\x0b'
  | 'f' => some '\x0c'
  | 'r' => some '\r'
  | 'e' => some '\x1b'
  | ' ' => some ' '
  | '"' => some '"'
  | '\\' => some '\\'
  | '/' => some '/'
  | 'N' => some '\x85'
  | '_' => some '\xa0'
  | 'L' => some '\u2028'
  | 'P' => some '\u2029'
  | _ => none

def codeWidth? : Char → Option Nat
  | 'x' => some 2
  | 'u' => some 4
  | 'U' => some 8
  | _ => none

def hexValue? (c : Char) : Option Nat :=
  if c.isDigit then some (c.toNat - 48)
  else if 'a' ≤ c && c ≤ 'f' then some (c.toNat - 87)
  else if 'A' ≤ c && c ≤ 'F' then some (c.toNat - 55)
  else none

def hexNumber? (cs : List Char) : Option Nat :=
  cs.foldl (fun n c => do return (← n) * 16 + (← hexValue? c)) (some 0)

/-- The character with a code. A text has no half characters. -/
def charOfCode (n : Nat) : Except Fault Char :=
  if 0x110000 ≤ n then .error .badCharacterCode
  else if 0xD800 ≤ n && n < 0xE000 then .error .halfCharacter
  else .ok (Char.ofNat n)

/-- The line breaks before the next line with content. A separator must not stand in a scalar. -/
def quotedBreaks (c : Cursor) (breaks : List Char) : Nat → Except Fault (List Char × Cursor)
  | 0 => .error .malformedDocument
  | fuel + 1 =>
    if c.atSeparator then .error .malformedDocument
    else
      let c := c.skip fun ch => ch == ' ' || ch == '\t'
      if c.peek.any isBreak then
        let (b, c) := c.takeBreak
        quotedBreaks c (breaks ++ b) fuel
      else .ok (breaks, c)

/-- The blanks at the cursor: kept inside a line, folded over line breaks. -/
def quotedGap (c : Cursor) : Except Fault (List Char × Cursor) := do
  let isSpace := fun ch => ch == ' ' || ch == '\t'
  let spaces := c.run isSpace
  let c := c.skip isSpace
  match c.peek with
  | none => throw .malformedDocument
  | some ch =>
    if isBreak ch then
      let (first, c) := c.takeBreak
      let (breaks, c) ← quotedBreaks c [] (c.rest.length + 1)
      return (fold first breaks, c)
    else return (spaces, c)

/-- What a backslash and the text after it stand for; the cursor is after the backslash. -/
def quotedEscape (c : Cursor) : Except Fault (List Char × Cursor) :=
  match c.peek with
  | none => .error .malformedDocument
  | some ch =>
    match escapeChar? ch, codeWidth? ch with
    | some e, _ => .ok ([e], c.next)
    | none, some width =>
      let digits := c.next.rest.take width
      match hexNumber? digits with
      | some n =>
        if digits.length < width then .error .malformedDocument
        else do return ([← charOfCode n], c.forward (width + 1))
      | none => .error .malformedDocument
    | none, none =>
      if isBreak ch then
        let c := c.takeBreak.2
        quotedBreaks c [] (c.rest.length + 1)
      else .error .malformedDocument

def quotedFrom (double : Bool) (c : Cursor) (text : List Char) : Nat → Except Fault (List Char × Cursor)
  | 0 => .error .malformedDocument
  | fuel + 1 =>
    match c.rest with
    | [] => .error .malformedDocument
    | ch :: rest =>
      if ch == '"' && double then .ok (text, c.next)
      else if ch == '\'' && !double then
        if rest.head? == some '\'' then quotedFrom double (c.forward 2) (text ++ ['\'']) fuel
        else .ok (text, c.next)
      else if ch == '\\' && double then do
        let (e, c) ← quotedEscape c.next
        quotedFrom double c (text ++ e) fuel
      else if endsToken (some ch) then do
        let (gap, c) ← quotedGap c
        quotedFrom double c (text ++ gap) fuel
      else quotedFrom double c.next (text ++ [ch]) fuel

def takeQuoted (double : Bool) (c : Cursor) : Except Fault (List Char × Cursor) :=
  quotedFrom double c.next [] (c.rest.length + 1)

end Yaml
end SvgDiagram
