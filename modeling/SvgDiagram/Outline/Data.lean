import SvgDiagram.Number.Numeral
import SvgDiagram.Outline.Command

/-!
Outline data as text. It is cut into command letters and numerals; whatever is neither is skipped.
-/

namespace SvgDiagram
namespace Outline

inductive Piece where
  | letter (c : Char)
  | numeral (cs : List Char)
  deriving DecidableEq, Repr

def commandLetters : List Char := "MmLlHhVvCcSsQqTtAaZz".toList

def splitSign : List Char → List Char × List Char
  | c :: cs => if c == '-' || c == '+' then ([c], cs) else ([], c :: cs)
  | [] => ([], [])

/-- The numeral at the front of a text: a sign, digits, and a fraction if a digit follows the point. -/
def takeNumeral? (cs : List Char) : Option (List Char × List Char) :=
  let sign := (splitSign cs).1
  let body := (splitSign cs).2
  let whole := body.takeWhile Text.isDigit
  let rest := body.dropWhile Text.isDigit
  match rest with
  | '.' :: r =>
    let fraction := r.takeWhile Text.isDigit
    if !fraction.isEmpty then some (sign ++ whole ++ '.' :: fraction, r.dropWhile Text.isDigit)
    else if !whole.isEmpty then some (sign ++ whole, rest)
    else none
  | _ => if !whole.isEmpty then some (sign ++ whole, rest) else none

theorem length_splitSign (cs : List Char) : (splitSign cs).2.length ≤ cs.length := by
  cases cs with
  | nil => simp [splitSign]
  | cons c cs => simp only [splitSign]; split <;> simp

theorem length_dropWhile_le {α : Type} (p : α → Bool) (xs : List α) :
    (xs.dropWhile p).length ≤ xs.length :=
  (List.dropWhile_suffix p).length_le

theorem length_dropWhile_lt {α : Type} {p : α → Bool} {xs : List α}
    (h : (xs.takeWhile p).isEmpty = false) : (xs.dropWhile p).length < xs.length := by
  have hs := congrArg List.length (List.takeWhile_append_dropWhile (p := p) (l := xs))
  rw [List.length_append] at hs
  have hp : 0 < (xs.takeWhile p).length := by
    cases hw : xs.takeWhile p with
    | nil => simp [hw] at h
    | cons _ _ => simp
  omega

theorem length_takeNumeral {cs n rest : List Char} (h : takeNumeral? cs = some (n, rest)) :
    rest.length < cs.length := by
  have hb := length_splitSign cs
  have hd := length_dropWhile_le Text.isDigit (splitSign cs).2
  simp only [takeNumeral?] at h
  split at h
  · rename_i r hr
    have hl : r.length + 1 ≤ (splitSign cs).2.length := by rw [hr] at hd; simpa using hd
    have hf := length_dropWhile_le Text.isDigit r
    split at h
    · simp only [Option.some.injEq, Prod.mk.injEq] at h
      rw [← h.2]; omega
    · split at h
      · rename_i hw
        simp only [Bool.not_eq_true', Option.some.injEq, Prod.mk.injEq] at hw h
        have := length_dropWhile_lt hw
        rw [← h.2]; omega
      · simp at h
  · split at h
    · rename_i hw
      simp only [Bool.not_eq_true', Option.some.injEq, Prod.mk.injEq] at hw h
      have := length_dropWhile_lt hw
      rw [← h.2]; omega
    · simp at h

def pieces (cs : List Char) : List Piece :=
  match cs with
  | [] => []
  | c :: rest =>
    if commandLetters.contains c then .letter c :: pieces rest
    else
      match h : takeNumeral? (c :: rest) with
      | some (n, rest') =>
        have := length_takeNumeral h
        .numeral n :: pieces rest'
      | none => pieces rest
termination_by cs.length
decreasing_by
  · exact Nat.lt_succ_self _
  · assumption
  · exact Nat.lt_succ_self _

/-- Puts a piece in front of the commands after it. Numbers wait for the letter before them. -/
def collect (piece : Piece) (after : List Float × List (Char × List Float)) :
    List Float × List (Char × List Float) :=
  match piece with
  | .letter c => ([], (c, after.1) :: after.2)
  | .numeral n => ((Number.readFloat? (String.ofList n)).toList ++ after.1, after.2)

/-- The commands with the numbers given to them. Numbers before the first command belong to none. -/
def commands (cs : List Char) : List (Char × List Float) :=
  ((pieces cs).foldr collect ([], [])).2

def points (data : String) : List Point :=
  (commands data.toList).flatMap fun c => endPoints [c.1] c.2

/-- Whether the data ends by closing the outline. -/
def isClosed (data : String) : Bool :=
  match (Text.stripEnd data.toList).getLast? with
  | some c => c == 'Z' || c == 'z'
  | none => false

end Outline
end SvgDiagram
