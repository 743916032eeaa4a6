import SvgDiagram.Yaml.Property

/-!
The tokens of a document. Whether a scalar or a collection is a key shows only when the colon after it is
met: until then its place among the tokens is kept, and the tokens that open a key are put in there.
-/

namespace SvgDiagram
namespace Yaml

/-- The place of something that may turn out to be a key. -/
structure PendingKey where
  level : Nat
  place : Nat
  required : Bool
  index : Nat
  line : Nat
  column : Nat

/-- `indents` holds the indentations around the current one. The newest token comes first. -/
structure Scan where
  cursor : Cursor
  level : Nat
  indent : Int
  indents : List Int
  keyAllowed : Bool
  keys : List PendingKey
  tokens : List Token
  count : Nat

namespace Scan

def start (text : List Char) : Scan := ⟨Cursor.start text, 0, -1, [], true, [], [], 0⟩

def inFlow (s : Scan) : Bool := s.level != 0

def push (s : Scan) (t : Token) : Scan := { s with tokens := t :: s.tokens, count := s.count + 1 }

def insertAt (s : Scan) (place : Nat) (t : Token) : Scan :=
  let behind := s.count - place
  { s with
    tokens := s.tokens.take behind ++ t :: s.tokens.drop behind
    count := s.count + 1 }

/-- A key stands on one line, and its colon within so many characters. -/
def keyReach : Nat := 1024

/-- Forgets the possible keys that are too far behind. -/
def dropStale (s : Scan) : Except Fault Scan :=
  let stale := fun (k : PendingKey) => k.line != s.cursor.line || keyReach < s.cursor.index - k.index
  if s.keys.any fun k => stale k && k.required then .error .malformedDocument
  else .ok { s with keys := s.keys.filter fun k => !stale k }

def dropKey (s : Scan) : Except Fault Scan :=
  if s.keys.any fun k => k.level == s.level && k.required then .error .malformedDocument
  else .ok { s with keys := s.keys.filter fun k => k.level != s.level }

/-- Notes that what begins here may be a key. -/
def saveKey (s : Scan) : Except Fault Scan := do
  if s.keyAllowed then
    let s ← s.dropKey
    let key : PendingKey := {
      level := s.level
      place := s.count
      required := !s.inFlow && s.indent == (s.cursor.column : Int)
      index := s.cursor.index
      line := s.cursor.line
      column := s.cursor.column }
    return { s with keys := key :: s.keys }
  else return s

/-- Closes the block collections that are indented further than a column. -/
def unwindFrom (s : Scan) (column : Int) : List Int → Scan
  | [] => s
  | outer :: rest =>
    if column < s.indent then
      unwindFrom { s.push .blockEnd with indent := outer, indents := rest } column rest
    else s

def unwind (s : Scan) (column : Int) : Scan :=
  if s.inFlow then s else s.unwindFrom column s.indents

def isDeeper (s : Scan) (column : Nat) : Bool := s.indent < (column : Int)

def deepen (s : Scan) (column : Nat) : Scan :=
  { s with indents := s.indent :: s.indents, indent := column }

def take (s : Scan) (t : Token) (n : Nat) : Scan :=
  { s.push t with cursor := s.cursor.forward n }

def streamEnd (s : Scan) : Except Fault Scan := do
  let s ← (s.unwind (-1)).dropKey
  return s.push .streamEnd

def document (s : Scan) (t : Token) : Except Fault Scan := do
  let s ← (s.unwind (-1)).dropKey
  return { s.take t 3 with keyAllowed := false }

def directive (s : Scan) : Except Fault Scan := do
  let s ← (s.unwind (-1)).dropKey
  let (t, c) ← takeDirective s.cursor
  return { s.push t with cursor := c, keyAllowed := false }

def openFlow (s : Scan) (t : Token) : Except Fault Scan := do
  let s ← s.saveKey
  return { s.take t 1 with level := s.level + 1, keyAllowed := true }

def closeFlow (s : Scan) (t : Token) : Except Fault Scan := do
  if !s.inFlow then throw .malformedDocument
  let s ← s.dropKey
  return { s.take t 1 with level := s.level - 1, keyAllowed := false }

def comma (s : Scan) : Except Fault Scan := do
  let s ← s.dropKey
  return { s.take .comma 1 with keyAllowed := true }

def dash (s : Scan) : Except Fault Scan := do
  if !s.inFlow && !s.keyAllowed then throw .malformedDocument
  let s :=
    if !s.inFlow && s.isDeeper s.cursor.column then
      (s.deepen s.cursor.column).push .blockSequence
    else s
  let s ← s.dropKey
  return { s.take .dash 1 with keyAllowed := true }

def explicitKey (s : Scan) : Except Fault Scan := do
  if !s.inFlow && !s.keyAllowed then throw .malformedDocument
  let s :=
    if !s.inFlow && s.isDeeper s.cursor.column then (s.deepen s.cursor.column).push .blockMapping
    else s
  let s ← s.dropKey
  return { s.take .key 1 with keyAllowed := !s.inFlow }

/-- A colon after a possible key makes it one. -/
def valueOfKey (s : Scan) (k : PendingKey) : Scan :=
  let s := { s with keys := s.keys.filter fun k => k.level != s.level }
  let s := s.insertAt k.place .key
  let s :=
    if !s.inFlow && s.isDeeper k.column then (s.deepen k.column).insertAt k.place .blockMapping else s
  { s.take .value 1 with keyAllowed := false }

def bareValue (s : Scan) : Except Fault Scan := do
  if !s.inFlow && !s.keyAllowed then throw .malformedDocument
  let s :=
    if !s.inFlow && s.isDeeper s.cursor.column then (s.deepen s.cursor.column).push .blockMapping
    else s
  let s ← { s with keyAllowed := !s.inFlow }.dropKey
  return s.take .value 1

def value (s : Scan) : Except Fault Scan :=
  match s.keys.find? fun k => k.level == s.level with
  | some k => .ok (s.valueOfKey k)
  | none => s.bareValue

def name (s : Scan) (token : String → Token) : Except Fault Scan := do
  let s ← s.saveKey
  let (n, c) ← takeName s.cursor
  return { s.push (token n) with cursor := c, keyAllowed := false }

def tag (s : Scan) : Except Fault Scan := do
  let s ← s.saveKey
  let (t, c) ← takeTag s.cursor
  return { s.push t with cursor := c, keyAllowed := false }

def block (s : Scan) (folded : Bool) : Except Fault Scan := do
  let s ← s.dropKey
  let (text, c) ← takeBlock folded s.indent s.cursor
  return { s.push (.scalar (String.ofList text) false) with cursor := c, keyAllowed := true }

def quoted (s : Scan) (double : Bool) : Except Fault Scan := do
  let s ← s.saveKey
  let (text, c) ← takeQuoted double s.cursor
  return { s.push (.scalar (String.ofList text) false) with cursor := c, keyAllowed := false }

def plain (s : Scan) : Except Fault Scan := do
  let s ← s.saveKey
  let (text, gap) := takePlain s.inFlow (s.indent + 1).toNat s.cursor
  return { s.push (.scalar (String.ofList text) true) with
    cursor := gap.cursor, keyAllowed := gap.newLine }

/-- Skips blanks, comments and line breaks. A new line may begin with a key. -/
def skipBlanks (s : Scan) : Nat → Scan
  | 0 => s
  | fuel + 1 =>
    let c := s.cursor.skipSpaces.skipComment
    if c.peek.any isBreak then
      skipBlanks { s with cursor := c.takeBreak.2, keyAllowed := s.keyAllowed || !s.inFlow } fuel
    else { s with cursor := c }

def skipMark (s : Scan) : Scan :=
  if s.cursor.index == 0 && s.cursor.peek == some byteOrderMark then
    { s with cursor := s.cursor.next }
  else s

/-- Characters that cannot begin a plain scalar, except before a character that is no blank. -/
def isIndicator (c : Char) : Bool := "-?:,[]\x7b\x7d#&*!|>'\"%@`".toList.contains c

def beginsPlain (s : Scan) (c : Char) : Bool :=
  (!endsToken (some c) && !isIndicator c) ||
    (!endsToken (s.cursor.peekAt 1) && (c == '-' || (!s.inFlow && (c == '?' || c == ':'))))

def dispatch (s : Scan) (c : Char) : Except Fault Scan :=
  let spaced := endsToken (s.cursor.peekAt 1)
  if c == '%' && s.cursor.column == 0 then s.directive
  else if c == '-' && s.cursor.column == 0 && s.cursor.atSeparator then s.document .documentStart
  else if c == '.' && s.cursor.column == 0 && s.cursor.atSeparator then s.document .documentEnd
  else if c == '[' then s.openFlow .sequenceOpen
  else if c == '\x7b' then s.openFlow .mappingOpen
  else if c == ']' then s.closeFlow .sequenceClose
  else if c == '\x7d' then s.closeFlow .mappingClose
  else if c == ',' then s.comma
  else if c == '-' && spaced then s.dash
  else if c == '?' && (s.inFlow || spaced) then s.explicitKey
  else if c == ':' && (s.inFlow || spaced) then s.value
  else if c == '*' then s.name .alias
  else if c == '&' then s.name .anchor
  else if c == '!' then s.tag
  else if c == '|' && !s.inFlow then s.block false
  else if c == '>' && !s.inFlow then s.block true
  else if c == '\'' then s.quoted false
  else if c == '"' then s.quoted true
  else if s.beginsPlain c then s.plain
  else .error .malformedDocument

/-- Scans up to the end of the text. Every token takes at least one character. -/
def run (s : Scan) : Nat → Except Fault Scan
  | 0 => .error .malformedDocument
  | fuel + 1 => do
    let s ← (s.skipMark.skipBlanks (s.cursor.rest.length + 1)).dropStale
    let s := s.unwind s.cursor.column
    match s.cursor.peek with
    | none => s.streamEnd
    | some c => run (← s.dispatch c) fuel

end Scan

def tokens (text : String) : Except Fault (List Token) := do
  let cs := text.toList
  if !cs.all isAllowed then throw .malformedDocument
  let s ← (Scan.start cs).run (cs.length + 2)
  return s.tokens.reverse

end Yaml
end SvgDiagram
