import SvgDiagram.Proofs.Outline.Path

/-!
Outline data from the side of its reader, which takes any text. A command letter is part of no numeral, so it
cuts the text in two, and every other piece is a numeral that can be read. The reader keeps the numbers that it
meets until the next letter and hands them to the command before it. Main statement: it never meets a piece
that it cannot read, and at the end of a closed outline no number waits, so that every number behind a command
has been handed over once, in order.
-/

namespace SvgDiagram
namespace Outline

/-! ## What the pieces are -/

theorem isSign_splitSign (cs : List Char) : IsSign (splitSign cs).1 := by
  cases cs with
  | nil => exact .inl rfl
  | cons c cs =>
      simp only [splitSign, Bool.or_eq_true, beq_iff_eq]
      split
      · rename_i hc
        rcases hc with rfl | rfl
        · exact .inr (.inl rfl)
        · exact .inr (.inr rfl)
      · exact .inl rfl

/-- What is taken from the front of a text is a numeral. -/
theorem numeralText_of_takeNumeral? {cs n rest : List Char} (h : takeNumeral? cs = some (n, rest)) :
    NumeralText n := by
  have hsign := isSign_splitSign cs
  have hdigits (ds : List Char) : ∀ c ∈ ds.takeWhile Text.isDigit, Text.isDigit c = true :=
    fun c hc => List.mem_takeWhile_imp hc
  simp only [takeNumeral?, Bool.not_eq_true', List.isEmpty_eq_false_iff] at h
  split at h
  · split at h
    · rename_i hfraction
      cases h
      rw [List.append_assoc]
      exact .fraction hsign (hdigits _) (hdigits _) hfraction
    · split at h
      · rename_i hwhole
        cases h
        exact .whole hsign (hdigits _) hwhole
      · cases h
  · split at h
    · rename_i hwhole
      cases h
      exact .whole hsign (hdigits _) hwhole
    · cases h

theorem exists_signText {sign : List Char} (h : IsSign sign) : ∃ s, sign = Number.signText s := by
  rcases h with rfl | rfl | rfl
  · exact ⟨none, rfl⟩
  · exact ⟨some true, rfl⟩
  · exact ⟨some false, rfl⟩

theorem NumeralText.exists_numeral {n : List Char} (h : NumeralText n) :
    ∃ m : Number.Numeral, n = m.text := by
  cases h with
  | @whole sign digits hs hd hne =>
      obtain ⟨s, rfl⟩ := exists_signText hs
      exact ⟨⟨⟨digits, [], by simpa using hd, by simpa using hne⟩, s⟩,
        by simp [Number.Numeral.text, Number.Digits.text, Number.Digits.pointed]⟩
  | @fraction sign whole fraction hs hw hf hne =>
      obtain ⟨s, rfl⟩ := exists_signText hs
      exact ⟨⟨⟨whole, fraction, List.forall_mem_append.mpr ⟨hw, hf⟩, by simp [hne]⟩, s⟩,
        by simp [Number.Numeral.text, Number.Digits.text, Number.Digits.pointed, hne]⟩

/-- Pieces that the reader can do something with: a letter of a command, or a numeral. -/
def Piece.IsSound : Piece → Prop
  | .letter c => c ∈ commandLetters
  | .numeral n => ∃ m : Number.Numeral, n = m.text

theorem isSound_of_mem_pieces {cs : List Char} {p : Piece} (h : p ∈ pieces cs) : p.IsSound := by
  fun_induction pieces cs with
  | case1 => cases h
  | case2 c rest hc ih =>
      rcases List.mem_cons.mp h with rfl | h
      · simpa [Piece.IsSound] using hc
      · exact ih h
  | case3 c rest hc n rest' htake _ ih =>
      rcases List.mem_cons.mp h with rfl | h
      · exact (numeralText_of_takeNumeral? htake).exists_numeral
      · exact ih h
  | case4 c rest hc htake ih => exact ih h

/-! ## Where a letter cuts the text -/

section
variable {c : Char} (hc : c ∈ commandLetters) (front back : List Char)
include hc

theorem splitSign_append_letter :
    splitSign (front ++ c :: back) = ((splitSign front).1, (splitSign front).2 ++ c :: back) := by
  obtain ⟨-, -, hminus, hplus⟩ := command_chars hc
  cases front with
  | nil => simp [splitSign, hminus, hplus]
  | cons d front =>
      simp only [List.cons_append, splitSign]
      split <;> rfl

/-- A numeral ends before the letter of a command. -/
theorem takeNumeral?_append_letter :
    takeNumeral? (front ++ c :: back) =
      (takeNumeral? front).map fun r => (r.1, r.2 ++ c :: back) := by
  obtain ⟨hdigit, hpoint, -, -⟩ := command_chars hc
  simp only [takeNumeral?, splitSign_append_letter hc, takeWhile_append_stop hdigit,
    dropWhile_append_stop hdigit]
  rcases (splitSign front).2.dropWhile Text.isDigit with _ | ⟨d, rest⟩
  · simp [hpoint]
  · by_cases hd : d = '.'
    · subst hd
      simp only [List.cons_append, takeWhile_append_stop hdigit, dropWhile_append_stop hdigit]
      split
      · rfl
      · split <;> rfl
    · simp [hd]

/-- The letter of a command is a piece wherever it stands. -/
theorem pieces_append_letter :
    pieces (front ++ c :: back) = pieces front ++ .letter c :: pieces back := by
  fun_induction pieces front with
  | case1 => exact pieces_letter hc back
  | case2 d rest hd ih => rw [List.cons_append, pieces_letter (by simpa using hd), ih, List.cons_append]
  | case3 d rest hd n rest' htake _ ih =>
      have hwhole := takeNumeral?_append_letter hc (d :: rest) back
      rw [htake, Option.map_some, List.cons_append] at hwhole
      rw [List.cons_append, pieces, if_neg hd]
      split
      · rename_i heq
        rw [hwhole] at heq
        cases heq
        rw [ih, List.cons_append]
      · rename_i heq
        simp [hwhole] at heq
  | case4 d rest hd htake ih =>
      have hwhole := takeNumeral?_append_letter hc (d :: rest) back
      rw [htake, Option.map_none, List.cons_append] at hwhole
      rw [List.cons_append, pieces, if_neg hd]
      split
      · rename_i heq
        simp [hwhole] at heq
      · exact ih

end

theorem pieces_blanks {cs : List Char} (h : ∀ c ∈ cs, Text.isBlank c = true) : pieces cs = [] := by
  have hgap : ∀ c ∈ cs, isGap c = true := fun c hc => by simp [isGap, h c hc]
  have hlaid : LaidOut [] (cs ++ []) := .gaps hgap .nil
  rw [List.append_nil] at hlaid
  exact hlaid.pieces_eq

/-- The data up to its last character that is no blank. -/
theorem exists_last {cs : List Char} {c : Char} (h : (Text.stripEnd cs).getLast? = some c) :
    ∃ front trail, cs = front ++ c :: trail ∧ ∀ d ∈ trail, Text.isBlank d = true := by
  rw [Text.stripEnd, List.getLast?_reverse] at h
  obtain ⟨rest, hrest⟩ := List.head?_eq_some_iff.mp h
  refine ⟨rest.reverse, (cs.reverse.takeWhile Text.isBlank).reverse, ?_, ?_⟩
  · have hsplit := List.takeWhile_append_dropWhile (p := Text.isBlank) (l := cs.reverse)
    rw [hrest] at hsplit
    simpa using (congrArg List.reverse hsplit).symm
  · intro d hd
    exact List.mem_takeWhile_imp (List.mem_reverse.mp hd)

theorem isClosed_iff {data : String} :
    isClosed data = true ↔ ∃ c, (c = 'Z' ∨ c = 'z') ∧ (Text.stripEnd data.toList).getLast? = some c := by
  unfold isClosed
  cases (Text.stripEnd data.toList).getLast? with
  | none => simp
  | some c => simp only [Bool.or_eq_true, beq_iff_eq, Option.some.injEq, exists_eq_right']

/-- A text that ends with the letter of a command, blanks aside, has it as its last piece. -/
theorem pieces_of_last {cs : List Char} {c : Char} (hc : c ∈ commandLetters)
    (h : (Text.stripEnd cs).getLast? = some c) : ∃ ps, pieces cs = ps ++ [.letter c] := by
  obtain ⟨front, trail, rfl, htrail⟩ := exists_last h
  exact ⟨pieces front, by rw [pieces_append_letter hc, pieces_blanks htrail]⟩

/-! ## Commands with their numbers -/

/-- The pieces of a command with its numbers. -/
def numberedPieces (c : Char × List Number.Numeral) : List Piece :=
  commandPieces c.1 (c.2.map Number.Numeral.text)

/-- Numerals in front of the first letter, and then each letter with the numerals behind it. -/
def parsedPieces (lead : List Number.Numeral) (commands : List (Char × List Number.Numeral)) :
    List Piece :=
  (lead.map Number.Numeral.text).map .numeral ++ commands.flatMap numberedPieces

theorem exists_parsedPieces {ps : List Piece} (h : ∀ p ∈ ps, p.IsSound) :
    ∃ lead commands, ps = parsedPieces lead commands := by
  induction ps with
  | nil => exact ⟨[], [], rfl⟩
  | cons p ps ih =>
      rw [List.forall_mem_cons] at h
      obtain ⟨lead, commands, rfl⟩ := ih h.2
      cases p with
      | letter c => exact ⟨[], (c, lead) :: commands, by simp [parsedPieces, numberedPieces, commandPieces]⟩
      | numeral n =>
          obtain ⟨m, rfl⟩ := h.1
          exact ⟨m :: lead, commands, by simp [parsedPieces]⟩

/-- The commands that have numbers, with what these stand for. -/
def entries (commands : List (Char × List Number.Numeral)) : List (Char × List Float) :=
  (commands.filter fun c => !c.2.isEmpty).map fun c => (c.1, c.2.map Number.Numeral.value)

theorem entries_cons (c : Char × List Number.Numeral) (commands : List (Char × List Number.Numeral)) :
    entries (c :: commands) =
      (if c.2.isEmpty then [] else [(c.1, c.2.map Number.Numeral.value)]) ++ entries commands := by
  unfold entries
  rw [List.filter_cons]
  cases c.2.isEmpty <;> rfl

theorem endPoints_nil (c : Char) : endPoints [c] [] = [] := by
  have hgroups (n : Nat) : groups n ([] : List Float) = [] := by
    rw [groups, dif_neg]
    simp only [List.length_nil]
    omega
  unfold endPoints CommandKind.endPoints
  split
  · split
    · rw [hgroups, List.filterMap_nil]
    · rfl
  · rfl

section
variable {data : String} {lead : List Number.Numeral} {commands : List (Char × List Number.Numeral)}

theorem commands_of_parsed (h : pieces data.toList = parsedPieces lead commands) :
    Outline.commands data.toList = commands.map fun c => (c.1, c.2.map Number.Numeral.value) := by
  have hmap : commands.flatMap numberedPieces =
      (commands.map fun c => (c.1, c.2.map Number.Numeral.text)).flatMap fun c =>
        commandPieces c.1 c.2 := by
    rw [List.flatMap_map]
    rfl
  rw [Outline.commands, h, parsedPieces, hmap, List.foldr_append, foldr_collect_commands,
    foldr_collect_numerals, List.map_map]
  simp only [Function.comp_def, readings_text]

/-- Commands without numbers lead to no points. -/
theorem points_of_parsed (h : pieces data.toList = parsedPieces lead commands) :
    points data = (entries commands).flatMap fun c => endPoints [c.1] c.2 := by
  rw [points, commands_of_parsed h]
  clear h
  induction commands with
  | nil => rfl
  | cons c commands ih =>
      rw [List.map_cons, List.flatMap_cons, ih, entries_cons]
      cases c.2 with
      | nil => simp [endPoints_nil]
      | cons n ns => simp

end

/-! ## The reader -/

/-- The reader between two pieces. -/
structure Reader where
  /-- The last letter that was met. -/
  command : Option Char
  /-- The numbers that were met since. -/
  pending : List Float
  /-- What was handed to the commands, in order. -/
  handed : List (Char × List Float)
  /-- What was met in the place of a numeral and stands for no number. -/
  refused : List (List Char)

namespace Reader

def start : Reader := ⟨none, [], [], []⟩

/-- What is to be handed over when the next letter or the end of the text is met. -/
def waiting (r : Reader) : List (Char × List Float) :=
  match r.command with
  | some c => if r.pending.isEmpty then [] else [(c, r.pending)]
  | none => []

def step (r : Reader) : Piece → Reader
  | .letter c => { r with command := some c, pending := [], handed := r.handed ++ r.waiting }
  | .numeral n =>
    match Number.readFloat? (String.ofList n) with
    | some x => { r with pending := r.pending ++ [x] }
    | none => { r with refused := r.refused ++ [n] }

/-- The reader after all pieces of some data. -/
def atEnd (data : String) : Reader := (pieces data.toList).foldl step start

theorem foldl_step_numerals (ns : List Number.Numeral) (r : Reader) :
    ((ns.map Number.Numeral.text).map Piece.numeral).foldl step r =
      { r with pending := r.pending ++ ns.map Number.Numeral.value } := by
  induction ns generalizing r with
  | nil => simp
  | cons n ns ih =>
      simp only [List.map_cons, List.foldl_cons, step, Number.readFloat?_numeral, ih]
      simp

theorem foldl_step_numberedPieces (c : Char × List Number.Numeral) (r : Reader) :
    (numberedPieces c).foldl step r =
      ⟨some c.1, c.2.map Number.Numeral.value, r.handed ++ r.waiting, r.refused⟩ := by
  rw [numberedPieces, commandPieces, List.foldl_cons, foldl_step_numerals]
  rfl

/-- Commands are handed their numbers when the one behind them begins; the last of them still waits. -/
theorem foldl_step_commands (commands : List (Char × List Number.Numeral)) (r : Reader) :
    let r' := (commands.flatMap numberedPieces).foldl step r
    r'.handed ++ r'.waiting = r.handed ++ r.waiting ++ entries commands ∧ r'.refused = r.refused := by
  induction commands generalizing r with
  | nil => simp [entries]
  | cons c commands ih =>
      rw [List.flatMap_cons, List.foldl_append, foldl_step_numberedPieces]
      obtain ⟨hhanded, hrefused⟩ := ih
        ⟨some c.1, c.2.map Number.Numeral.value, r.handed ++ r.waiting, r.refused⟩
      refine ⟨?_, hrefused⟩
      rw [hhanded, entries_cons, ← List.append_assoc]
      simp only [waiting, List.isEmpty_map]

/-- Numbers in front of the first letter are handed to no command. -/
theorem atEnd_of_parsed {data : String} {lead : List Number.Numeral}
    {commands : List (Char × List Number.Numeral)} (h : pieces data.toList = parsedPieces lead commands) :
    (atEnd data).handed ++ (atEnd data).waiting = entries commands ∧ (atEnd data).refused = [] := by
  rw [atEnd, h, parsedPieces, List.foldl_append, foldl_step_numerals]
  exact foldl_step_commands commands _

theorem pending_of_last_letter {data : String} {ps : List Piece} {c : Char}
    (h : pieces data.toList = ps ++ [.letter c]) : (atEnd data).pending = [] := by
  rw [atEnd, h, List.foldl_append]
  rfl

theorem waiting_of_pending {r : Reader} (h : r.pending = []) : r.waiting = [] := by
  unfold waiting
  rw [h]
  split <;> rfl

end Reader

/-- The reader meets only letters of commands and numerals that can be read; what it has handed over, and
what still waits at the end, gives the points. At the end of closed data nothing waits: the last piece is the
letter that closes it, and the numerals behind each letter have been handed to its command, in order. -/
theorem reader_at_end (data : String) :
    (∀ p ∈ pieces data.toList, (∃ c ∈ commandLetters, p = .letter c) ∨
      ∃ n x, p = .numeral n ∧ Number.readFloat? (String.ofList n) = some x) ∧
    (Reader.atEnd data).refused = [] ∧
    points data = ((Reader.atEnd data).handed ++ (Reader.atEnd data).waiting).flatMap
      (fun c => endPoints [c.1] c.2) ∧
    (isClosed data = true →
      (∃ c, (c = 'Z' ∨ c = 'z') ∧ (Text.stripEnd data.toList).getLast? = some c ∧
        (pieces data.toList).getLast? = some (.letter c)) ∧
      (Reader.atEnd data).pending = [] ∧ (Reader.atEnd data).waiting = [] ∧
      ∃ lead commands, pieces data.toList = parsedPieces lead commands ∧
        (Reader.atEnd data).handed = entries commands) := by
  have hsound : ∀ p ∈ pieces data.toList, p.IsSound := fun p hp => isSound_of_mem_pieces hp
  obtain ⟨lead, commands, hparsed⟩ := exists_parsedPieces hsound
  obtain ⟨hhanded, hrefused⟩ := Reader.atEnd_of_parsed hparsed
  refine ⟨?_, hrefused, ?_, ?_⟩
  · intro p hp
    cases p with
    | letter c => exact .inl ⟨c, hsound _ hp, rfl⟩
    | numeral n =>
        obtain ⟨m, rfl⟩ := hsound _ hp
        exact .inr ⟨m.text, m.value, rfl, Number.readFloat?_numeral m⟩
  · rw [hhanded, points_of_parsed hparsed]
  · intro hclosed
    obtain ⟨c, hc, hlast⟩ := isClosed_iff.mp hclosed
    have hletter : c ∈ commandLetters := by rcases hc with rfl | rfl <;> decide
    obtain ⟨ps, hps⟩ := pieces_of_last hletter hlast
    have hpending := Reader.pending_of_last_letter hps
    have hwaiting := Reader.waiting_of_pending hpending
    rw [hwaiting, List.append_nil] at hhanded
    exact ⟨⟨c, hc, hlast, by simp [hps]⟩, hpending, hwaiting, lead, commands, hparsed, hhanded⟩

/-- Numbers before the first letter, numerals that touch, digits of another script, and words in between. -/
def crowdedData : String := "7 M1,2-.5.5\tL٣ 4 junk z \n"

theorem crowdedData_all_handed :
    isClosed crowdedData = true ∧ (Reader.atEnd crowdedData).refused = [] ∧
      (Reader.atEnd crowdedData).waiting = [] ∧
      points crowdedData = (Reader.atEnd crowdedData).handed.flatMap fun c => endPoints [c.1] c.2 := by
  obtain ⟨-, hrefused, hpoints, hclosed⟩ := reader_at_end crowdedData
  have h : isClosed crowdedData = true := by decide +kernel
  obtain ⟨-, -, hwaiting, -⟩ := hclosed h
  rw [hwaiting, List.append_nil] at hpoints
  exact ⟨h, hrefused, hwaiting, hpoints⟩

example : (Reader.atEnd crowdedData).handed = [('M', [1.0, 2.0, -0.5, 0.5]), ('L', [3.0, 4.0])] := by
  decide +kernel

end Outline
end SvgDiagram
