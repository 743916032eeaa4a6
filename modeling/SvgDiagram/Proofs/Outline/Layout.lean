import Mathlib.Data.List.TakeWhile
import SvgDiagram.Outline.Data
import SvgDiagram.Proofs.Position.Numeral

/-!
How outline data is laid out. Characters that begin no piece, such as blanks and commas, may stand before the
pieces and after the last of them; a numeral must not be followed by what could continue it. A text that is
laid out so is cut into exactly these pieces.
-/

namespace SvgDiagram
namespace Outline

/-- Characters that keep pieces apart. -/
def isGap (c : Char) : Bool := Text.isBlank c || c == ','

theorem gap_chars : ∀ n ∈ 44 :: Text.blanks,
    commandLetters.contains (Char.ofNat n) = false ∧ Text.isDigit (Char.ofNat n) = false ∧
      Char.ofNat n ≠ '.' ∧ Char.ofNat n ≠ '-' ∧ Char.ofNat n ≠ '+' := by
  decide

theorem isGap_spec {c : Char} (h : isGap c = true) :
    commandLetters.contains c = false ∧ Text.isDigit c = false ∧ c ≠ '.' ∧ c ≠ '-' ∧ c ≠ '+' := by
  have hm : c.toNat ∈ 44 :: Text.blanks := by
    simp only [isGap, Text.isBlank, Bool.or_eq_true, List.contains_eq_mem, decide_eq_true_eq,
      beq_iff_eq] at h
    rcases h with h | rfl
    · exact List.mem_cons_of_mem _ h
    · exact List.mem_cons_self
  have hc := gap_chars c.toNat hm
  rwa [Char.ofNat_toNat] at hc

/-- What follows a numeral does not continue it. -/
def Apart (cs : List Char) : Prop := ∀ c ∈ cs.head?, Text.isDigit c = false ∧ c ≠ '.'

theorem apart_gap {c : Char} {cs : List Char} (h : isGap c = true) : Apart (c :: cs) := by
  intro d hd
  obtain rfl : c = d := by simpa using hd
  exact ⟨(isGap_spec h).2.1, (isGap_spec h).2.2.1⟩

def IsSign (cs : List Char) : Prop := cs = [] ∨ cs = ['-'] ∨ cs = ['+']

/-- A sign or none, and digits, with a point before the last of them or without one. -/
inductive NumeralText : List Char → Prop
  | whole {sign digits : List Char} (hs : IsSign sign)
      (hd : ∀ c ∈ digits, Text.isDigit c = true) (hne : digits ≠ []) : NumeralText (sign ++ digits)
  | fraction {sign whole fraction : List Char} (hs : IsSign sign)
      (hw : ∀ c ∈ whole, Text.isDigit c = true) (hf : ∀ c ∈ fraction, Text.isDigit c = true)
      (hne : fraction ≠ []) : NumeralText (sign ++ (whole ++ '.' :: fraction))

theorem splitSign_append {sign body : List Char} (hs : IsSign sign)
    (hb : ∀ c ∈ body.head?, c ≠ '-' ∧ c ≠ '+') : splitSign (sign ++ body) = (sign, body) := by
  rcases hs with rfl | rfl | rfl
  · cases body with
    | nil => rfl
    | cons c cs =>
        have hc := hb c rfl
        simp [splitSign, hc.1, hc.2]
  · rfl
  · rfl

theorem ne_sign_of_isDigit {c : Char} (h : Text.isDigit c = true) : c ≠ '-' ∧ c ≠ '+' := by
  constructor
  · rintro rfl
    revert h
    decide
  · rintro rfl
    revert h
    decide

theorem takeWhile_digits {ds cs : List Char} (hd : ∀ c ∈ ds, Text.isDigit c = true)
    (hcs : ∀ c ∈ cs.head?, Text.isDigit c = false) : (ds ++ cs).takeWhile Text.isDigit = ds := by
  rw [List.takeWhile_append_of_pos hd]
  cases cs with
  | nil => simp
  | cons c cs => simp [hcs c rfl]

theorem dropWhile_digits {ds cs : List Char} (hd : ∀ c ∈ ds, Text.isDigit c = true)
    (hcs : ∀ c ∈ cs.head?, Text.isDigit c = false) : (ds ++ cs).dropWhile Text.isDigit = cs := by
  rw [List.dropWhile_append_of_pos hd]
  cases cs with
  | nil => rfl
  | cons c cs => simp [hcs c rfl]

theorem takeWhile_append_stop {p : Char → Bool} {c : Char} (hc : p c = false) (front back : List Char) :
    (front ++ c :: back).takeWhile p = front.takeWhile p := by
  induction front with
  | nil => simp [hc]
  | cons d front ih => simp only [List.cons_append, List.takeWhile_cons, ih]

theorem dropWhile_append_stop {p : Char → Bool} {c : Char} (hc : p c = false) (front back : List Char) :
    (front ++ c :: back).dropWhile p = front.dropWhile p ++ c :: back := by
  induction front with
  | nil => simp [hc]
  | cons d front ih =>
      simp only [List.cons_append, List.dropWhile_cons, ih]
      split <;> rfl

theorem takeNumeral?_append {n cs : List Char} (hn : NumeralText n) (hcs : Apart cs) :
    takeNumeral? (n ++ cs) = some (n, cs) := by
  have hdigit : ∀ c ∈ cs.head?, Text.isDigit c = false := fun c hc => (hcs c hc).1
  cases hn with
  | @whole sign digits hs hd hne =>
      have hsplit : splitSign (sign ++ (digits ++ cs)) = (sign, digits ++ cs) := by
        apply splitSign_append hs
        intro c hc
        obtain ⟨d, ds, rfl⟩ := List.exists_cons_of_ne_nil hne
        obtain rfl : d = c := by simpa using hc
        exact ne_sign_of_isDigit (hd d (by simp))
      rw [List.append_assoc, takeNumeral?, hsplit]
      simp only [takeWhile_digits hd hdigit, dropWhile_digits hd hdigit]
      have hempty : digits.isEmpty = false := by simpa using hne
      split
      · exact absurd rfl (hcs '.' rfl).2
      · simp [hempty]
  | @fraction sign whole fraction hs hw hf hne =>
      have hpoint : ∀ c ∈ ('.' :: (fraction ++ cs)).head?, Text.isDigit c = false := by
        intro c hc
        obtain rfl : '.' = c := by simpa using hc
        decide
      have hsplit : splitSign (sign ++ (whole ++ '.' :: (fraction ++ cs))) =
          (sign, whole ++ '.' :: (fraction ++ cs)) := by
        apply splitSign_append hs
        intro c hc
        cases whole with
        | nil =>
            obtain rfl : '.' = c := by simpa using hc
            decide
        | cons d ds =>
            obtain rfl : d = c := by simpa using hc
            exact ne_sign_of_isDigit (hw d (by simp))
      have hempty : fraction.isEmpty = false := by simpa using hne
      have htext : sign ++ (whole ++ '.' :: fraction) ++ cs =
          sign ++ (whole ++ '.' :: (fraction ++ cs)) := by simp
      rw [htext, takeNumeral?, hsplit]
      simp [takeWhile_digits hw hpoint, dropWhile_digits hw hpoint, takeWhile_digits hf hdigit,
        dropWhile_digits hf hdigit, hempty]

/-- Characters that begin no piece. -/
def isSkipped (c : Char) : Bool :=
  !commandLetters.contains c && (!Text.isDigit c && (c != '.' && (c != '-' && c != '+')))

theorem isSkipped_of_isGap {c : Char} (h : isGap c = true) : isSkipped c = true := by
  obtain ⟨hletter, hdigit, hpoint, hminus, hplus⟩ := isGap_spec h
  rw [isSkipped, hletter, hdigit]
  simp [hpoint, hminus, hplus]

theorem takeNumeral?_skipped {c : Char} (h : isSkipped c = true) (cs : List Char) :
    takeNumeral? (c :: cs) = none := by
  simp only [isSkipped, Bool.and_eq_true, Bool.not_eq_true', bne_iff_ne, ne_eq] at h
  obtain ⟨_, hdigit, hpoint, hminus, hplus⟩ := h
  have hsplit : splitSign (c :: cs) = ([], c :: cs) := by simp [splitSign, hminus, hplus]
  simp only [takeNumeral?, hsplit, List.takeWhile_cons, List.dropWhile_cons, hdigit]
  split
  · rename_i heq
    exact absurd (List.cons.inj heq).1 hpoint
  · rfl

theorem command_chars {c : Char} (h : c ∈ commandLetters) :
    Text.isDigit c = false ∧ c ≠ '.' ∧ c ≠ '-' ∧ c ≠ '+' := by
  have hall : (commandLetters.all fun c =>
      !Text.isDigit c && (c != '.' && (c != '-' && c != '+'))) = true := by
    decide
  simpa using List.all_eq_true.mp hall c h

theorem NumeralText.head {n : List Char} (hn : NumeralText n) :
    ∃ c cs, n = c :: cs ∧ c ∉ commandLetters := by
  have hdigit {c : Char} (h : Text.isDigit c = true) : c ∉ commandLetters := by
    intro hc
    simp [(command_chars hc).1] at h
  have hsign {sign body : List Char} (hs : IsSign sign)
      (hb : ∃ c cs, body = c :: cs ∧ c ∉ commandLetters) :
      ∃ c cs, sign ++ body = c :: cs ∧ c ∉ commandLetters := by
    rcases hs with rfl | rfl | rfl
    · exact hb
    · exact ⟨'-', body, rfl, by decide⟩
    · exact ⟨'+', body, rfl, by decide⟩
  cases hn with
  | @whole sign digits hs hd hne =>
      obtain ⟨d, ds, rfl⟩ := List.exists_cons_of_ne_nil hne
      exact hsign hs ⟨d, ds, rfl, hdigit (hd d (by simp))⟩
  | @fraction sign whole fraction hs hw hf hne =>
      cases whole with
      | nil => exact hsign hs ⟨'.', fraction, rfl, by decide⟩
      | cons d ds => exact hsign hs ⟨d, _, rfl, hdigit (hw d (by simp))⟩

theorem pieces_letter {c : Char} (hc : c ∈ commandLetters) (cs : List Char) :
    pieces (c :: cs) = .letter c :: pieces cs := by
  rw [pieces, if_pos (by simpa using hc)]

theorem pieces_skipped {c : Char} (h : isSkipped c = true) (cs : List Char) :
    pieces (c :: cs) = pieces cs := by
  have hc : ¬ commandLetters.contains c = true := by
    simp only [isSkipped, Bool.and_eq_true, Bool.not_eq_true'] at h
    rw [h.1]
    exact Bool.false_ne_true
  rw [pieces, if_neg hc]
  split
  · rename_i heq
    simp [takeNumeral?_skipped h] at heq
  · rfl

theorem pieces_numeral {n cs : List Char} (hn : NumeralText n) (hcs : Apart cs) :
    pieces (n ++ cs) = .numeral n :: pieces cs := by
  have htake := takeNumeral?_append hn hcs
  obtain ⟨c, rest, rfl, hc⟩ := hn.head
  rw [List.cons_append] at htake ⊢
  rw [pieces, if_neg (by simpa using hc)]
  split
  · rename_i n' rest' heq
    rw [htake] at heq
    cases heq
    rfl
  · rename_i heq
    simp [htake] at heq

inductive LaidOut : List Piece → List Char → Prop
  | nil : LaidOut [] []
  | skip {c : Char} {ps : List Piece} {cs : List Char} (hc : isSkipped c = true) (h : LaidOut ps cs) :
      LaidOut ps (c :: cs)
  | letter {c : Char} {ps : List Piece} {cs : List Char} (hc : c ∈ commandLetters)
      (h : LaidOut ps cs) : LaidOut (.letter c :: ps) (c :: cs)
  | numeral {n : List Char} {ps : List Piece} {cs : List Char} (hn : NumeralText n)
      (hcs : Apart cs) (h : LaidOut ps cs) : LaidOut (.numeral n :: ps) (n ++ cs)

theorem LaidOut.gap {c : Char} {ps : List Piece} {cs : List Char} (hc : isGap c = true)
    (h : LaidOut ps cs) : LaidOut ps (c :: cs) :=
  .skip (isSkipped_of_isGap hc) h

theorem LaidOut.pieces_eq {ps : List Piece} {cs : List Char} (h : LaidOut ps cs) :
    pieces cs = ps := by
  induction h with
  | nil => rw [pieces]
  | skip hc _ ih => rw [pieces_skipped hc, ih]
  | letter hc _ ih => rw [pieces_letter hc, ih]
  | numeral hn hcs _ ih => rw [pieces_numeral hn hcs, ih]

def commandPieces (c : Char) (numerals : List (List Char)) : List Piece :=
  .letter c :: numerals.map .numeral

/-- The numbers that numerals stand for. -/
def readings (numerals : List (List Char)) : List Float :=
  numerals.filterMap fun n => Number.readFloat? (String.ofList n)

theorem foldr_collect_numerals (numerals : List (List Char))
    (after : List Float × List (Char × List Float)) :
    (numerals.map Piece.numeral).foldr collect after = (readings numerals ++ after.1, after.2) := by
  induction numerals with
  | nil => rfl
  | cons n rest ih =>
      rw [List.map_cons, List.foldr_cons, ih]
      cases h : Number.readFloat? (String.ofList n) <;> simp [collect, readings, h]

theorem foldr_collect_commands (cmds : List (Char × List (List Char))) :
    (cmds.flatMap fun c => commandPieces c.1 c.2).foldr collect ([], []) =
      ([], cmds.map fun c => (c.1, readings c.2)) := by
  induction cmds with
  | nil => rfl
  | cons c rest ih =>
      rw [List.flatMap_cons, List.foldr_append, ih, commandPieces, List.foldr_cons,
        foldr_collect_numerals]
      simp [collect]

theorem LaidOut.commands_eq {cmds : List (Char × List (List Char))} {cs : List Char}
    (h : LaidOut (cmds.flatMap fun c => commandPieces c.1 c.2) cs) :
    commands cs = cmds.map fun c => (c.1, readings c.2) := by
  rw [commands, h.pieces_eq, foldr_collect_commands]

end Outline
end SvgDiagram
