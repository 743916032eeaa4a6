import SvgDiagram.Text.Substring

/-!
The commands of an outline and the points they lead to. A command takes its numbers in groups of a
fixed size, as often as they are given, and a group ends with the two coordinates of its end point.
-/

namespace SvgDiagram

structure Point where
  x : Float
  y : Float
  deriving DecidableEq

namespace Outline

inductive CommandKind where
  | move
  | line
  | horizontal
  | vertical
  | cubic
  | smoothCubic
  | quadratic
  | smoothQuadratic
  | arc
  deriving DecidableEq, Repr

namespace CommandKind

/-- All kinds, in the order in which a command is looked for among them. -/
def all : List CommandKind :=
  [move, line, horizontal, vertical, cubic, smoothCubic, quadratic, smoothQuadratic, arc]

/-- The absolute and the relative letter. -/
def letters : CommandKind → List Char
  | move => ['M', 'm']
  | line => ['L', 'l']
  | horizontal => ['H', 'h']
  | vertical => ['V', 'v']
  | cubic => ['C', 'c']
  | smoothCubic => ['S', 's']
  | quadratic => ['Q', 'q']
  | smoothQuadratic => ['T', 't']
  | arc => ['A', 'a']

/-- How many numbers lead to one end point. Horizontal and vertical lines give one coordinate only and
lead to none. -/
def groupSize? : CommandKind → Option Nat
  | move | line | smoothQuadratic => some 2
  | smoothCubic | quadratic => some 4
  | cubic => some 6
  | arc => some 7
  | horizontal | vertical => none

/-- The first kind whose letters hold the command as a contiguous part. The empty command therefore is
a move. -/
def ofText? (command : List Char) : Option CommandKind :=
  all.find? fun k => Text.occursIn command k.letters

end CommandKind

/-- The complete groups of `n` at the front of a list. -/
def groups {α : Type} (n : Nat) (xs : List α) : List (List α) :=
  if _h : 0 < n ∧ n ≤ xs.length then xs.take n :: groups n (xs.drop n) else []
termination_by xs.length
decreasing_by simp only [List.length_drop]; omega

def groupEnd? (group : List Float) : Option Point :=
  match group.reverse with
  | y :: x :: _ => some ⟨x, y⟩
  | _ => none

def CommandKind.endPoints (kind : CommandKind) (numbers : List Float) : List Point :=
  match kind.groupSize? with
  | some n => (groups n numbers).filterMap groupEnd?
  | none => []

def endPoints (command : List Char) (numbers : List Float) : List Point :=
  match CommandKind.ofText? command with
  | some kind => kind.endPoints numbers
  | none => []

end Outline
end SvgDiagram
