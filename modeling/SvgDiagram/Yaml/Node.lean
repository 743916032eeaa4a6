import SvgDiagram.Fault
import SvgDiagram.Yaml.Kind
import SvgDiagram.Yaml.Token

/-!
Documents as trees. Aliases are replaced by the nodes they name; an anchor may be set once, and a node
cannot hold an alias of itself.
-/

namespace SvgDiagram
namespace Yaml

inductive Node where
  | scalar (kind : Kind) (text : String)
  | sequence (kind : Kind) (items : List Node)
  | mapping (kind : Kind) (pairs : List (Node × Node))

namespace Node

/-- What is left of the tokens, the anchors set so far, and the handles of tags. An anchor has no node
until its node is complete. -/
structure State where
  tokens : List Token
  anchors : List (String × Option Node)
  handles : List (String × String)

abbrev Reader := StateT State (Except Fault)

def fail {α : Type} : Reader α := throw Fault.malformedDocument

/-- The next token. After the last one the text has ended. -/
def peek : Reader Token := do return (← get).tokens.headD .streamEnd

def drop : Reader Unit := modify fun s => { s with tokens := s.tokens.drop 1 }

def accept (t : Token) : Reader Bool := do
  if (← peek) == t then
    drop
    return true
  else return false

def expect (t : Token) : Reader Unit := do
  if !(← accept t) then fail

/-- The scalar that stands where nothing is written. -/
def empty : Node := .scalar .null ""

structure Properties where
  anchor : Option String
  tag : Option String

def fullTag (handle : Option String) (suffix : String) : Reader String := do
  match handle with
  | none => return suffix
  | some h =>
    match (← get).handles.lookup h with
    | some base => return base ++ suffix
    | none => fail

/-- The anchor and the tag at the front, in either order. -/
def properties : Reader Properties := do
  match ← peek with
  | .anchor a =>
    drop
    match ← peek with
    | .tag h s =>
      drop
      return ⟨some a, some (← fullTag h s)⟩
    | _ => return ⟨some a, none⟩
  | .tag h s =>
    drop
    match ← peek with
    | .anchor a =>
      drop
      return ⟨some a, some (← fullTag h s)⟩
    | _ => return ⟨none, some (← fullTag h s)⟩
  | _ => return ⟨none, none⟩

/-- Sets an anchor, whose node is still to come. -/
def openAnchor (a : String) : Reader Unit := do
  let s ← get
  if s.anchors.any fun e => e.1 == a then fail
  else set { s with anchors := (a, none) :: s.anchors }

def closeAnchor (a : String) (n : Node) : Reader Unit :=
  modify fun s => { s with anchors := (a, some n) :: s.anchors }

def aliased (a : String) : Reader Node := do
  match (← get).anchors.lookup a with
  | some (some n) => return n
  | _ => fail

/-- The kind of a scalar. The tag `!` asks for the kind by spelling, also between quotes. -/
def scalarKind (tag : Option String) (text : String) (plain : Bool) : Kind :=
  match tag with
  | none => if plain then Kind.ofPlain text else .text
  | some "!" => Kind.ofPlain text
  | some t => Kind.ofTag t

def collectionKind (tag : Option String) (default : Kind) : Kind :=
  match tag with
  | none => default
  | some "!" => default
  | some t => Kind.ofTag t

def nextIn (ts : List Token) : Reader Bool := do return ts.contains (← peek)

mutual

/-- A node. Block collections are read only where `block` allows them, and a sequence that is not
indented only as the value of a key. -/
def node (block unindented : Bool) : Nat → Reader Node
  | 0 => fail
  | fuel + 1 => do
    match ← peek with
    | .alias a =>
      drop
      aliased a
    | _ =>
      let p ← properties
      match p.anchor with
      | some a => openAnchor a
      | none => pure ()
      let n ← content block unindented p fuel
      match p.anchor with
      | some a => closeAnchor a n
      | none => pure ()
      return n

def content (block unindented : Bool) (p : Properties) : Nat → Reader Node
  | 0 => fail
  | fuel + 1 => do
    let sequenceOf := fun items => Node.sequence (collectionKind p.tag .sequence) items
    let mappingOf := fun pairs => Node.mapping (collectionKind p.tag .mapping) pairs
    match ← peek with
    | .dash =>
      if unindented then return sequenceOf (← dashes [] fuel)
      else emptyContent p
    | .scalar text plain =>
      drop
      return .scalar (scalarKind p.tag text plain) text
    | .sequenceOpen =>
      drop
      return sequenceOf (← flowItems true [] fuel)
    | .mappingOpen =>
      drop
      return mappingOf (← flowPairs true [] fuel)
    | .blockSequence =>
      if block then
        drop
        return sequenceOf (← blockItems [] fuel)
      else emptyContent p
    | .blockMapping =>
      if block then
        drop
        return mappingOf (← blockPairs [] fuel)
      else emptyContent p
    | _ => emptyContent p

def emptyContent (p : Properties) : Reader Node :=
  if p.anchor.isSome || p.tag.isSome then
    return .scalar (scalarKind p.tag "" true) ""
  else fail

def blockItems (items : List Node) : Nat → Reader (List Node)
  | 0 => fail
  | fuel + 1 => do
    if ← accept .dash then
      let item ← if ← nextIn [.dash, .blockEnd] then pure empty else node true false fuel
      blockItems (items ++ [item]) fuel
    else
      expect .blockEnd
      return items

/-- The items of a sequence that is not indented. Nothing closes it. -/
def dashes (items : List Node) : Nat → Reader (List Node)
  | 0 => fail
  | fuel + 1 => do
    if ← accept .dash then
      let item ←
        if ← nextIn [.dash, .key, .value, .blockEnd] then pure empty else node true false fuel
      dashes (items ++ [item]) fuel
    else return items

def blockPart : Nat → Reader Node
  | 0 => fail
  | fuel + 1 => do
    if ← nextIn [.key, .value, .blockEnd] then return empty else node true true fuel

def blockPairs (pairs : List (Node × Node)) : Nat → Reader (List (Node × Node))
  | 0 => fail
  | fuel + 1 => do
    if ← accept .key then
      let k ← blockPart fuel
      let v ← if ← accept .value then blockPart fuel else pure empty
      blockPairs (pairs ++ [(k, v)]) fuel
    else
      expect .blockEnd
      return pairs

def flowPart (close : Token) (ends : List Token) : Nat → Reader Node
  | 0 => fail
  | fuel + 1 => do
    if ← nextIn (close :: .comma :: ends) then return empty else node false false fuel

def flowPair (close : Token) : Nat → Reader (Node × Node)
  | 0 => fail
  | fuel + 1 => do
    let k ← flowPart close [.value] fuel
    let v ← if ← accept .value then flowPart close [] fuel else pure empty
    return (k, v)

/-- The items of a flow sequence. A pair among them is a mapping of one pair. -/
def flowItems (first : Bool) (items : List Node) : Nat → Reader (List Node)
  | 0 => fail
  | fuel + 1 => do
    if ← accept .sequenceClose then return items
    if !first then expect .comma
    if ← accept .key then
      let pair ← flowPair .sequenceClose fuel
      flowItems false (items ++ [.mapping .mapping [pair]]) fuel
    else if ← accept .sequenceClose then return items
    else
      let item ← node false false fuel
      flowItems false (items ++ [item]) fuel

/-- The pairs of a flow mapping. A key without a mark has no value. -/
def flowPairs (first : Bool) (pairs : List (Node × Node)) : Nat → Reader (List (Node × Node))
  | 0 => fail
  | fuel + 1 => do
    if ← accept .mappingClose then return pairs
    if !first then expect .comma
    if ← accept .key then
      let pair ← flowPair .mappingClose fuel
      flowPairs false (pairs ++ [pair]) fuel
    else if ← accept .mappingClose then return pairs
    else
      let k ← node false false fuel
      flowPairs false (pairs ++ [(k, empty)]) fuel

end

def commonHandles : List (String × String) := [("!", "!"), ("!!", Kind.tagBase)]

/-- Reads directives. A version may be given once and must be the first major one; a handle may be set
once. -/
def directives (version : Bool) (handles : List (String × String)) :
    Nat → Reader (List (String × String))
  | 0 => fail
  | fuel + 1 => do
    match ← peek with
    | .version major =>
      if version || major != 1 then fail
      drop
      directives true handles fuel
    | .handle name replacement =>
      if handles.any fun e => e.1 == name then fail
      drop
      directives version ((name, replacement) :: handles) fuel
    | .directive =>
      drop
      directives version handles fuel
    | _ => return handles

def dropEnds : Nat → Reader Unit
  | 0 => pure ()
  | fuel + 1 => do
    if ← accept .documentEnd then dropEnds fuel

def isDirective : Token → Bool
  | .version _ | .handle _ _ | .directive => true
  | _ => false

/-- The root of a document that opens with directives or with a separator. -/
def explicitDocument (fuel : Nat) : Reader Node := do
  let handles ← directives false [] fuel
  expect .documentStart
  modify fun s => { s with handles := handles ++ commonHandles }
  let t ← peek
  if isDirective t || t == .documentStart || t == .documentEnd || t == .streamEnd then return empty
  else node true false fuel

/-- The root of the one document of a text, if there is any. -/
def single (fuel : Nat) : Reader (Option Node) := do
  let t ← peek
  let root ←
    if t == .streamEnd then return none
    else if isDirective t || t == .documentStart then explicitDocument fuel
    else node true false fuel
  dropEnds fuel
  expect .streamEnd
  return some root

def ofTokens (ts : List Token) : Except Fault (Option Node) := do
  let (root, _) ← (single (4 * ts.length + 8)).run ⟨ts, [], commonHandles⟩
  return root

end Node
end Yaml
end SvgDiagram
