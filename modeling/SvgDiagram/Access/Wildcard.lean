/-!
Wildcards of one path component: `*` for any characters, `?` for one, `[…]` for one of a set and `[!…]`
for one outside it. There is no way to quote a mark, except as a set of one.
-/

namespace SvgDiagram
namespace Access

inductive Atom where
  | star
  | any
  | char (c : Char)
  /-- One character in some of the ranges, or in none of them if negated. -/
  | oneOf (negated : Bool) (ranges : List (Char × Char))
  deriving DecidableEq, Repr

/-- Splits the text of a set at the hyphens that make ranges. `skip` counts the characters at the front
that cannot be such a hyphen: one at the start, two after a hyphen that made a range. -/
def splitRanges (chunk : List Char) (skip : Nat) : List Char → List (List Char)
  | [] => [chunk.reverse]
  | c :: cs =>
    match skip with
    | k + 1 => splitRanges (c :: chunk) k cs
    | 0 =>
      if c == '-' then chunk.reverse :: splitRanges [] 2 cs
      else splitRanges (c :: chunk) 0 cs

/-- A hyphen that ends the set stands for itself. -/
def keepLastHyphen : List (List Char) → List (List Char)
  | [] => []
  | [chunk] => [chunk]
  | [chunk, []] => [chunk ++ ['-']]
  | chunk :: rest => chunk :: keepLastHyphen rest

def emptyRange (left right : List Char) : Bool :=
  match left.getLast?, right.head? with
  | some a, some b => b < a
  | _, _ => false

/-- Removes the empty ranges between chunks, from the last to the first, with both their ends. -/
def dropEmptyRanges : List (List Char) → List (List Char)
  | [] => []
  | chunk :: rest =>
    match dropEmptyRanges rest with
    | [] => [chunk]
    | next :: more =>
      if emptyRange chunk next then (chunk.dropLast ++ next.drop 1) :: more else chunk :: next :: more

/-- The ranges that chunks with hyphens between them stand for. -/
def rangesOf : List (List Char) → List (Char × Char)
  | [] => []
  | [chunk] => chunk.map fun c => (c, c)
  | chunk :: next :: more =>
    let singles := chunk.dropLast.map fun c => (c, c)
    match chunk.getLast?, next with
    | some a, b :: tail => singles ++ (a, b) :: rangesOf (tail :: more)
    | _, _ => singles ++ rangesOf (next :: more)
termination_by chunks => chunks.length

def setOf (content : List Char) : Atom :=
  let skip := if content.head? == some '!' then 2 else 1
  let chunks := dropEmptyRanges (keepLastHyphen (splitRanges [] skip content))
  match chunks with
  | ('!' :: chunk) :: rest => .oneOf true (rangesOf (chunk :: rest))
  | chunks => .oneOf false (rangesOf chunks)

/-- The characters at the front of a set that cannot close it. -/
def setStart : List Char → List Char
  | '!' :: ']' :: _ => ['!', ']']
  | '!' :: _ => ['!']
  | ']' :: _ => [']']
  | _ => []

/-- What stands between an opening bracket and the one that closes it, and what follows. -/
def takeSet? (cs : List Char) : Option (List Char × List Char) :=
  let body := cs.drop (setStart cs).length
  match body.dropWhile (· != ']') with
  | _ :: rest => some (setStart cs ++ body.takeWhile (· != ']'), rest)
  | [] => none

theorem length_takeSet {cs content rest : List Char} (h : takeSet? cs = some (content, rest)) :
    rest.length < cs.length := by
  have hd := ((cs.drop (setStart cs).length).dropWhile_suffix (· != ']')).length_le
  simp only [takeSet?] at h
  split at h
  · rename_i hr
    simp only [Option.some.injEq, Prod.mk.injEq] at h
    rw [hr] at hd
    simp only [List.length_cons, List.length_drop] at hd
    rw [← h.2]
    omega
  · simp at h

/-- The atoms of a wildcard. A bracket that nothing closes stands for itself. -/
def atoms (cs : List Char) : List Atom :=
  match cs with
  | [] => []
  | c :: rest =>
    if c == '*' then .star :: atoms rest
    else if c == '?' then .any :: atoms rest
    else if c == '[' then
      match h : takeSet? rest with
      | some (content, rest') =>
        have := length_takeSet h
        setOf content :: atoms rest'
      | none => .char c :: atoms rest
    else .char c :: atoms rest
termination_by cs.length

def Atom.accepts (a : Atom) (c : Char) : Bool :=
  match a with
  | .star | .any => true
  | .char d => c == d
  | .oneOf negated ranges => (ranges.any fun r => r.1 ≤ c && c ≤ r.2) != negated

def suffixes {α : Type} : List α → List (List α)
  | [] => [[]]
  | x :: xs => (x :: xs) :: suffixes xs

def spells : List Atom → List Char → Bool
  | [], cs => cs.isEmpty
  | .star :: rest, cs => (suffixes cs).any (spells rest)
  | a :: rest, c :: cs => a.accepts c && spells rest cs
  | _ :: _, [] => false

def accepts (wildcard component : String) : Bool :=
  spells (atoms wildcard.toList) component.toList

end Access
end SvgDiagram
