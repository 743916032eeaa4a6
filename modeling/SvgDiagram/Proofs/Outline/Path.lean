import SvgDiagram.Outline.Centre
import SvgDiagram.Proofs.Number.Reading
import SvgDiagram.Proofs.Outcome
import SvgDiagram.Proofs.Outline.Layout

/-!
Outline data from the side of its writer. A path is a list of commands, each with any number of complete
argument groups; it is written as the letter of each command and its numbers, with blanks and commas anywhere
between them as long as two numbers are kept apart. The reader finds the commands with their numbers
again. Main statement: the centre of a closed path is the mean of its end points, however it is laid out.
-/

namespace SvgDiagram
namespace Outline

/-- What a command takes for one step. -/
inductive Arguments (α : Type) : CommandKind → Type
  | move (x y : α) : Arguments α .move
  | line (x y : α) : Arguments α .line
  | horizontal (x : α) : Arguments α .horizontal
  | vertical (y : α) : Arguments α .vertical
  | cubic (x1 y1 x2 y2 x y : α) : Arguments α .cubic
  | smoothCubic (x2 y2 x y : α) : Arguments α .smoothCubic
  | quadratic (x1 y1 x y : α) : Arguments α .quadratic
  | smoothQuadratic (x y : α) : Arguments α .smoothQuadratic
  | arc (rx ry rotation large sweep x y : α) : Arguments α .arc

namespace Arguments

variable {α : Type} {kind : CommandKind}

def toList : Arguments α kind → List α
  | move x y | line x y | smoothQuadratic x y => [x, y]
  | horizontal x => [x]
  | vertical y => [y]
  | cubic x1 y1 x2 y2 x y => [x1, y1, x2, y2, x, y]
  | smoothCubic x2 y2 x y => [x2, y2, x, y]
  | quadratic x1 y1 x y => [x1, y1, x, y]
  | arc rx ry rotation large sweep x y => [rx, ry, rotation, large, sweep, x, y]

/-- Horizontal and vertical lines give one coordinate of their end point only. -/
def endPoint? : Arguments α kind → Option (α × α)
  | horizontal _ | vertical _ => none
  | move x y | line x y | cubic _ _ _ _ x y | smoothCubic _ _ x y | quadratic _ _ x y
  | smoothQuadratic x y | arc _ _ _ _ _ x y => some (x, y)

end Arguments

inductive Command (α : Type) where
  | draw (kind : CommandKind) (groups : List (Arguments α kind))
  | close (lower : Bool)

def CommandKind.upper : CommandKind → Char
  | .move => 'M'
  | .line => 'L'
  | .horizontal => 'H'
  | .vertical => 'V'
  | .cubic => 'C'
  | .smoothCubic => 'S'
  | .quadratic => 'Q'
  | .smoothQuadratic => 'T'
  | .arc => 'A'

def CommandKind.letter (kind : CommandKind) (relative : Bool) : Char :=
  if relative then kind.upper.toLower else kind.upper

inductive Token (α : Type) where
  | letter (c : Char)
  | number (a : α)

namespace Command

variable {α : Type}

def letter (relative : Bool) : Command α → Char
  | .draw kind _ => kind.letter relative
  | .close lower => if lower then 'z' else 'Z'

def numbers : Command α → List α
  | .draw _ groups => groups.flatMap Arguments.toList
  | .close _ => []

def endPoints : Command α → List (α × α)
  | .draw _ groups => groups.filterMap Arguments.endPoint?
  | .close _ => []

def tokens (relative : Bool) (c : Command α) : List (Token α) :=
  .letter (c.letter relative) :: c.numbers.map .number

end Command

/-- How numbers are spelled, with the numerals that the reader finds in a spelling. -/
structure Spelling (α : Type) where
  text : α → List Char
  numerals : α → List Number.Numeral
  laidOut : ∀ (a : α) {ps : List Piece} {cs : List Char}, Apart cs → LaidOut ps cs →
    LaidOut ((numerals a).map (fun n => .numeral n.text) ++ ps) (text a ++ cs)

/-- Tokens in a text: blanks and commas before each of them, though not nothing between two numbers, and
blanks after the last. `behind` tells whether the text stands behind a number. -/
inductive Spaced {α : Type} (S : Spelling α) : Bool → List (Token α) → List Char → Prop
  | done {behind : Bool} {trail : List Char} (htrail : ∀ c ∈ trail, Text.isBlank c = true) :
      Spaced S behind [] trail
  | letter {behind : Bool} {gap : List Char} {c : Char} {ts : List (Token α)} {cs : List Char}
      (hgap : ∀ c ∈ gap, isGap c = true) (h : Spaced S false ts cs) :
      Spaced S behind (.letter c :: ts) (gap ++ c :: cs)
  | number {behind : Bool} {gap : List Char} {a : α} {ts : List (Token α)} {cs : List Char}
      (hgap : ∀ c ∈ gap, isGap c = true) (hne : behind = true → gap ≠ []) (h : Spaced S true ts cs) :
      Spaced S behind (.number a :: ts) (gap ++ (S.text a ++ cs))

theorem numeralText_text (n : Number.Numeral) : NumeralText n.text := by
  have hdigits := List.forall_mem_append.mp n.isDigit
  have hsign : IsSign (Number.signText n.sign) := by
    rcases n.sign with _ | _ | _
    · exact .inl rfl
    · exact .inr (.inr rfl)
    · exact .inr (.inl rfl)
  unfold Number.Numeral.text Number.Digits.text Number.Digits.pointed
  split
  · rename_i hfraction
    have hwhole : n.whole ≠ [] := by simpa [List.isEmpty_iff.mp hfraction] using n.nonempty
    rw [List.append_nil]
    exact .whole hsign hdigits.1 hwhole
  · rename_i hfraction
    exact .fraction hsign hdigits.1 hdigits.2 (by simpa using hfraction)

def plain : Spelling Number.Numeral where
  text := Number.Numeral.text
  numerals n := [n]
  laidOut n _ _ hcs h := .numeral (numeralText_text n) hcs h

theorem LaidOut.gaps {gap : List Char} {ps : List Piece} {cs : List Char}
    (hgap : ∀ c ∈ gap, isGap c = true) (h : LaidOut ps cs) : LaidOut ps (gap ++ cs) := by
  induction gap with
  | nil => exact h
  | cons c gap ih =>
      rw [List.forall_mem_cons] at hgap
      exact .gap hgap.1 (ih hgap.2)

theorem apart_gaps {gap cs : List Char} (hgap : ∀ c ∈ gap, isGap c = true) (hne : gap ≠ []) :
    Apart (gap ++ cs) := by
  obtain ⟨c, rest, rfl⟩ := List.exists_cons_of_ne_nil hne
  exact apart_gap (hgap c (by simp))

theorem apart_letter {gap cs : List Char} {c : Char} (hgap : ∀ c ∈ gap, isGap c = true)
    (hc : c ∈ commandLetters) : Apart (gap ++ c :: cs) := by
  by_cases hne : gap = []
  · subst hne
    rintro d ⟨⟩
    exact ⟨(command_chars hc).1, (command_chars hc).2.1⟩
  · exact apart_gaps hgap hne

section
variable {α : Type} {S : Spelling α}

def Token.pieces (S : Spelling α) : Token α → List Piece
  | .letter c => [.letter c]
  | .number a => (S.numerals a).map fun n => .numeral n.text

/-- A spaced text is laid out, and behind a number it does not continue it. -/
theorem Spaced.laidOut {behind : Bool} {ts : List (Token α)} {cs : List Char}
    (h : Spaced S behind ts cs) (hletters : ∀ c, .letter c ∈ ts → c ∈ commandLetters) :
    LaidOut (ts.flatMap (Token.pieces S)) cs ∧ (behind = true → Apart cs) := by
  induction h with
  | @done behind trail htrail =>
      have hgap : ∀ c ∈ trail, isGap c = true := fun c hc => by simp [isGap, htrail c hc]
      constructor
      · simpa using LaidOut.gaps hgap .nil
      · intro _
        by_cases hne : trail = []
        · simp [hne, Apart]
        · have hapart : Apart (trail ++ []) := apart_gaps hgap hne
          rwa [List.append_nil] at hapart
  | letter hgap _ ih =>
      have hc := hletters _ List.mem_cons_self
      obtain ⟨hlaid, -⟩ := ih fun c hc => hletters c (List.mem_cons_of_mem _ hc)
      exact ⟨.gaps hgap (.letter hc hlaid), fun _ => apart_letter hgap hc⟩
  | number hgap hne _ ih =>
      obtain ⟨hlaid, hapart⟩ := ih fun c hc => hletters c (List.mem_cons_of_mem _ hc)
      exact ⟨.gaps hgap (S.laidOut _ (hapart rfl) hlaid), fun hbehind => apart_gaps hgap (hne hbehind)⟩

theorem Spaced.ends_with {behind : Bool} {ts : List (Token α)} {c : Char} {cs : List Char}
    (h : Spaced S behind (ts ++ [.letter c]) cs) :
    ∃ front trail, cs = front ++ c :: trail ∧ ∀ d ∈ trail, Text.isBlank d = true := by
  induction ts generalizing behind cs with
  | nil =>
      cases h with
      | @letter _ gap _ _ _ hgap h =>
          cases h with
          | done htrail => exact ⟨gap, _, rfl, htrail⟩
  | cons t ts ih =>
      cases h with
      | @letter _ gap d _ cs hgap h =>
          obtain ⟨front, trail, rfl, htrail⟩ := ih h
          exact ⟨gap ++ d :: front, trail, by simp, htrail⟩
      | @number _ gap a _ cs hgap hne h =>
          obtain ⟨front, trail, rfl, htrail⟩ := ih h
          exact ⟨gap ++ (S.text a ++ front), trail, by simp, htrail⟩

end

theorem isClosed_of_ends_with {front trail : List Char} {c : Char} (hc : c = 'Z' ∨ c = 'z')
    (htrail : ∀ d ∈ trail, Text.isBlank d = true) :
    isClosed (String.ofList (front ++ c :: trail)) = true := by
  have hblank : Text.isBlank c = false := by rcases hc with rfl | rfl <;> decide
  have hdrop : (trail.reverse ++ c :: front.reverse).dropWhile Text.isBlank = c :: front.reverse := by
    rw [List.dropWhile_append_of_pos (by simpa using htrail), List.dropWhile_cons, hblank]
    rfl
  have hstrip : (Text.stripEnd (front ++ c :: trail)).getLast? = some c := by
    simp [Text.stripEnd, hdrop]
  rw [isClosed, String.toList_ofList, hstrip]
  rcases hc with rfl | rfl <;> rfl

/-! ## The numbers of a command -/

theorem groups_append {α : Type} {n : Nat} {g : List α} (hn : 0 < n) (hg : g.length = n)
    (rest : List α) : groups n (g ++ rest) = g :: groups n rest := by
  subst hg
  rw [groups, dif_pos ⟨hn, by simp⟩, List.take_left, List.drop_left]

theorem groups_flatten {α : Type} {n : Nat} (hn : 0 < n) {gs : List (List α)}
    (h : ∀ g ∈ gs, g.length = n) : groups n gs.flatten = gs := by
  induction gs with
  | nil =>
      rw [List.flatten_nil, groups, dif_neg]
      simp only [List.length_nil]
      omega
  | cons g gs ih =>
      rw [List.forall_mem_cons] at h
      rw [List.flatten_cons, groups_append hn h.1, ih h.2]

theorem groups_map {α β : Type} (f : α → β) (n : Nat) (xs : List α) :
    groups n (xs.map f) = (groups n xs).map (List.map f) := by
  fun_induction groups n xs with
  | case1 xs h ih =>
      rw [groups, dif_pos (by simpa using h), ← List.map_take, ← List.map_drop, ih, List.map_cons]
  | case2 xs h =>
      rw [groups, dif_neg (by simpa using h), List.map_nil]

def lastPair? {α : Type} (group : List α) : Option (α × α) :=
  match group.reverse with
  | y :: x :: _ => some (x, y)
  | _ => none

/-- The last two of every complete group that a command takes from its numbers. -/
def CommandKind.ends {α : Type} (kind : CommandKind) (numbers : List α) : List (α × α) :=
  match kind.groupSize? with
  | some n => (groups n numbers).filterMap lastPair?
  | none => []

theorem lastPair?_map {α β : Type} (f : α → β) (group : List α) :
    lastPair? (group.map f) = (lastPair? group).map (Prod.map f f) := by
  simp only [lastPair?, ← List.map_reverse]
  rcases group.reverse with _ | ⟨y, _ | ⟨x, rest⟩⟩ <;> rfl

theorem CommandKind.ends_map {α β : Type} (kind : CommandKind) (f : α → β) (numbers : List α) :
    kind.ends (numbers.map f) = (kind.ends numbers).map (Prod.map f f) := by
  unfold CommandKind.ends
  cases kind.groupSize? with
  | none => rfl
  | some n =>
      simp only [groups_map, List.filterMap_map, List.map_filterMap]
      congr 1
      funext group
      exact lastPair?_map f group

def pointOf {α : Type} (value : α → Float) (p : α × α) : Point := ⟨value p.1, value p.2⟩

theorem CommandKind.endPoints_eq (kind : CommandKind) (numbers : List Float) :
    kind.endPoints numbers = (kind.ends numbers).map (pointOf id) := by
  have hgroup (group : List Float) : groupEnd? group = (lastPair? group).map (pointOf id) := by
    unfold groupEnd? lastPair?
    rcases group.reverse with _ | ⟨y, _ | ⟨x, rest⟩⟩ <;> rfl
  unfold CommandKind.endPoints CommandKind.ends
  cases kind.groupSize? with
  | none => rfl
  | some n => simp only [hgroup, List.map_filterMap]

namespace Arguments

variable {α : Type} {kind : CommandKind}

theorem groupSize?_eq {n : Nat} (h : kind.groupSize? = some n) (g : Arguments α kind) :
    g.toList.length = n := by
  cases g <;> cases h <;> rfl

theorem endPoint?_eq_none (h : kind.groupSize? = none) (g : Arguments α kind) :
    g.endPoint? = none := by
  cases g <;> first | rfl | cases h

theorem lastPair?_toList (g : Arguments α kind) : lastPair? g.toList = g.endPoint? := by
  cases g <;> rfl

end Arguments

theorem CommandKind.groupSize?_pos {kind : CommandKind} {n : Nat} (h : kind.groupSize? = some n) :
    0 < n := by
  cases kind <;> cases h <;> decide

/-- Numbers that are given in complete groups are taken in these groups. -/
theorem CommandKind.ends_toList {α : Type} {kind : CommandKind} (gs : List (Arguments α kind)) :
    kind.ends (gs.flatMap Arguments.toList) = gs.filterMap Arguments.endPoint? := by
  unfold CommandKind.ends
  cases hsize : kind.groupSize? with
  | none =>
      have hnone (g : Arguments α kind) : g.endPoint? = none := g.endPoint?_eq_none hsize
      simp [hnone]
  | some n =>
      have hlength : ∀ g ∈ gs.map Arguments.toList, g.length = n := by
        intro g hg
        obtain ⟨g', -, rfl⟩ := List.mem_map.mp hg
        exact g'.groupSize?_eq hsize
      simp only [List.flatMap_def, groups_flatten (groupSize?_pos hsize) hlength, List.filterMap_map]
      congr 1
      funext g
      exact g.lastPair?_toList

theorem CommandKind.ofText?_letter (kind : CommandKind) (relative : Bool) :
    CommandKind.ofText? [kind.letter relative] = some kind := by
  cases kind <;> cases relative <;> decide

theorem CommandKind.letter_mem (kind : CommandKind) (relative : Bool) :
    kind.letter relative ∈ commandLetters := by
  cases kind <;> cases relative <;> decide

namespace Command

variable {α : Type}

def readEnds (S : Spelling α) : Command α → List (Number.Numeral × Number.Numeral)
  | .draw kind groups => kind.ends ((groups.flatMap Arguments.toList).flatMap S.numerals)
  | .close _ => []

theorem endPoints_numbers (S : Spelling α) (relative : Bool) (c : Command α) :
    Outline.endPoints [c.letter relative]
        ((c.numbers.flatMap S.numerals).map Number.Numeral.value) =
      (c.readEnds S).map (pointOf Number.Numeral.value) := by
  cases c with
  | close lower => cases lower <;> rfl
  | draw kind groups =>
      simp only [Outline.endPoints, letter, CommandKind.ofText?_letter, numbers, readEnds,
        CommandKind.endPoints_eq, CommandKind.ends_map, List.map_map]
      rfl

/-- A command leads to the end points of its groups if each number is read as one numeral. -/
theorem readEnds_of_single {S : Spelling α} (numeral : α → Number.Numeral) (c : Command α)
    (h : ∀ a ∈ c.numbers, S.numerals a = [numeral a]) :
    c.readEnds S = c.endPoints.map (Prod.map numeral numeral) := by
  cases c with
  | close lower => rfl
  | draw kind groups =>
      have hnumerals : (groups.flatMap Arguments.toList).flatMap S.numerals =
          (groups.flatMap Arguments.toList).map numeral := by
        rw [List.map_eq_flatMap]
        exact List.flatMap_congr h
      rw [readEnds, hnumerals, CommandKind.ends_map, CommandKind.ends_toList, endPoints]

theorem letter_mem (relative : Bool) (c : Command α) : c.letter relative ∈ commandLetters := by
  cases c with
  | close lower =>
      change (if lower then 'z' else 'Z') ∈ commandLetters
      cases lower <;> decide
  | draw kind groups => exact kind.letter_mem relative

end Command

section
variable {α : Type} {S : Spelling α}

/-- A path in a text; the commands that are marked are written with their lower letter. -/
def Spells (S : Spelling α) (path : List (Bool × Command α)) (text : String) : Prop :=
  Spaced S false (path.flatMap fun c => c.2.tokens c.1) text.toList

theorem readings_text (ns : List Number.Numeral) :
    readings (ns.map Number.Numeral.text) = ns.map Number.Numeral.value := by
  induction ns with
  | nil => rfl
  | cons n ns ih =>
      unfold readings at ih ⊢
      rw [List.map_cons, List.filterMap_cons, Number.readFloat?_numeral, ih]
      rfl

/-- The reader finds the commands of a path, whatever the numerals in them stand for. -/
theorem Spells.points_eq {path : List (Bool × Command α)} {text : String} (h : Spells S path text) :
    points text = (path.flatMap fun c => c.2.readEnds S).map (pointOf Number.Numeral.value) := by
  have hletters : ∀ c, .letter c ∈ (path.flatMap fun c => c.2.tokens c.1) → c ∈ commandLetters := by
    intro c hc
    obtain ⟨command, -, hc⟩ := List.mem_flatMap.mp hc
    have hfirst : c = command.2.letter command.1 := by simpa [Command.tokens] using hc
    rw [hfirst]
    exact command.2.letter_mem command.1
  have hlaid := (Spaced.laidOut h hletters).1
  have hpieces : (path.flatMap fun c => c.2.tokens c.1).flatMap (Token.pieces S) =
      (path.map fun c => (c.2.letter c.1,
        (c.2.numbers.flatMap S.numerals).map Number.Numeral.text)).flatMap fun c =>
          commandPieces c.1 c.2 := by
    rw [List.flatMap_assoc, List.flatMap_map]
    congr 1
    funext c
    simp only [Command.tokens, List.flatMap_cons, List.flatMap_map, Token.pieces, commandPieces,
      List.map_map, List.map_flatMap]
    rfl
  rw [hpieces] at hlaid
  rw [points, hlaid.commands_eq, List.map_map, List.flatMap_map, List.map_flatMap]
  simp only [Function.comp_apply, readings_text, Command.endPoints_numbers]

def Token.text (S : Spelling α) : Token α → List Char
  | .letter c => [c]
  | .number a => S.text a

/-- A path with a blank before each letter and each number. -/
def written (S : Spelling α) (path : List (Bool × Command α)) : String :=
  String.ofList ((path.flatMap fun c => c.2.tokens c.1).flatMap fun t => ' ' :: t.text S)

theorem spells_written (S : Spelling α) (path : List (Bool × Command α)) :
    Spells S path (written S path) := by
  have hspaced (behind : Bool) (ts : List (Token α)) :
      Spaced S behind ts (ts.flatMap fun t => ' ' :: t.text S) := by
    have hgap : ∀ c ∈ [' '], isGap c = true := List.all_eq_true.mp (by decide)
    induction ts generalizing behind with
    | nil => exact .done nofun
    | cons t ts ih =>
        cases t with
        | letter c => exact .letter hgap (ih false)
        | number a => exact .number hgap (fun _ => List.cons_ne_nil _ _) (ih true)
  rw [Spells, written, String.toList_ofList]
  exact hspaced false _

theorem Spells.isClosed {path : List (Bool × Command α)} {relative lower : Bool} {text : String}
    (h : Spells S (path ++ [(relative, .close lower)]) text) : isClosed text = true := by
  unfold Spells at h
  rw [List.flatMap_append] at h
  obtain ⟨front, trail, htext, htrail⟩ := Spaced.ends_with h
  rw [← String.ofList_toList (s := text), htext]
  apply isClosed_of_ends_with _ htrail
  cases lower with
  | false => exact .inl rfl
  | true => exact .inr rfl

end

/-- The centre of a closed path is the mean of the points that are read. -/
theorem Spells.centre_eq {α : Type} {S : Spelling α} {path : List (Bool × Command α)}
    {relative lower : Bool} {text : String} (h : Spells S (path ++ [(relative, .close lower)]) text) :
    centreOfData text =
      centroid ((path.flatMap fun c => c.2.readEnds S).map (pointOf Number.Numeral.value)) := by
  rw [centreOfData, if_pos h.isClosed, h.points_eq, List.flatMap_append]
  simp [Command.readEnds]

/-- The centre of a closed path that is written with upper letters: the mean of its end points. -/
theorem centreOfData_spaced (path : List (Command Number.Numeral)) (lower : Bool) (text : String)
    (h : Spells plain ((path ++ [Command.close lower]).map fun c => (false, c)) text) :
    let ends := path.flatMap Command.endPoints
    centreOfData text =
      if ends.isEmpty then .error .noCoordinates
      else .ok ⟨(ends.map fun p => p.1.value).foldl (· + ·) 0.0 / Float.ofNat ends.length,
        (ends.map fun p => p.2.value).foldl (· + ·) 0.0 / Float.ofNat ends.length⟩ := by
  intro ends
  have hread (c : Command Number.Numeral) : c.readEnds plain = c.endPoints := by
    rw [c.readEnds_of_single id fun _ _ => rfl, Prod.map_id, List.map_id]
  rw [List.map_append, List.map_singleton] at h
  rw [h.centre_eq, centroid]
  simp only [List.flatMap_map, hread, List.isEmpty_map, List.length_map, List.map_map]
  rfl

/-- `.5`, `-3`, `+10`, `2.50` and `7`, as they are written below. -/
def half : Number.Numeral := ⟨⟨[], ['5'], List.all_eq_true.mp (by decide), by simp⟩, none⟩
def minusThree : Number.Numeral := ⟨⟨['3'], [], List.all_eq_true.mp (by decide), by simp⟩, some true⟩
def plusTen : Number.Numeral := ⟨⟨['1', '0'], [], List.all_eq_true.mp (by decide), by simp⟩, some false⟩
def twoAndHalf : Number.Numeral := ⟨⟨['2'], ['5', '0'], List.all_eq_true.mp (by decide), by simp⟩, none⟩
def seven : Number.Numeral := ⟨⟨['7'], [], List.all_eq_true.mp (by decide), by simp⟩, none⟩

/-- Two moves in one command, a line that leads to no end point, a command without groups. -/
def densePath : List (Command Number.Numeral) :=
  [.draw .move [.move half minusThree, .move plusTen twoAndHalf],
    .draw .horizontal [.horizontal seven], .close false, .draw .line []]

theorem densePath_centre :
    Spells plain ((densePath ++ [Command.close true]).map fun c => (false, c))
        ", M.5,-3\n+10 2.50H7Z,L z\t" ∧
      centreOfData ", M.5,-3\n+10 2.50H7Z,L z\t" = .ok ⟨5.25, -0.25⟩ := by
  have hspells : Spells plain ((densePath ++ [Command.close true]).map fun c => (false, c))
      ", M.5,-3\n+10 2.50H7Z,L z\t" := by
    have gaps {cs : List Char} (h : cs.all isGap = true) : ∀ c ∈ cs, isGap c = true :=
      List.all_eq_true.mp h
    have htext : ", M.5,-3\n+10 2.50H7Z,L z\t".toList =
        [',', ' '] ++ 'M' :: ([] ++ (half.text ++ ([','] ++ (minusThree.text ++ (['\n'] ++
          (plusTen.text ++ ([' '] ++ (twoAndHalf.text ++ ([] ++ 'H' :: ([] ++ (seven.text ++ ([] ++
            'Z' :: ([','] ++ 'L' :: ([' '] ++ 'z' :: ['\t'])))))))))))))) := by
      decide +kernel
    unfold Spells
    rw [htext]
    exact .letter (gaps (by decide)) (.number (gaps rfl) nofun (.number (gaps (by decide)) (by simp)
      (.number (gaps (by decide)) (by simp) (.number (gaps (by decide)) (by simp) (.letter (gaps rfl)
        (.number (gaps rfl) nofun (.letter (gaps rfl) (.letter (gaps (by decide)) (.letter
          (gaps (by decide)) (.done (List.all_eq_true.mp (by decide))))))))))))
  refine ⟨hspells, ?_⟩
  rw [centreOfData_spaced densePath true _ hspells]
  exact Outcome.toOption_eq_some.mp (by decide +kernel)

end Outline
end SvgDiagram
