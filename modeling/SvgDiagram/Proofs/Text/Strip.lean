import Mathlib.Data.List.DropRight
import SvgDiagram.Text.Blank
import SvgDiagram.Text.Word

/-!
Runs of characters in a text. A text without the blanks at its ends is what stands between a run of
blanks and another one; no word character is blank, so what begins in a word begins the stripped text.
-/

namespace SvgDiagram
namespace Text

section
variable {p : Char → Bool} {run rest : List Char}

theorem takeWhile_run (hrun : ∀ c ∈ run, p c = true)
    (hrest : ∀ c, rest.head? = some c → p c = false) : (run ++ rest).takeWhile p = run := by
  rw [List.takeWhile_append_of_pos hrun]
  cases rest with
  | nil => simp
  | cons c rest => simp [hrest c rfl]

theorem dropWhile_run (hrun : ∀ c ∈ run, p c = true)
    (hrest : ∀ c, rest.head? = some c → p c = false) : (run ++ rest).dropWhile p = rest := by
  rw [List.dropWhile_append_of_pos hrun]
  cases rest with
  | nil => rfl
  | cons c rest => simp [hrest c rfl]

end

/-- A text says where a run in front of it ends. -/
theorem run_inj {p : Char → Bool} {run run' rest rest' : List Char} (hrun : ∀ c ∈ run, p c = true)
    (hrun' : ∀ c ∈ run', p c = true) (hrest : ∀ c, rest.head? = some c → p c = false)
    (hrest' : ∀ c, rest'.head? = some c → p c = false) (h : run ++ rest = run' ++ rest') :
    run = run' ∧ rest = rest' := by
  have htake := congrArg (List.takeWhile p) h
  have hdrop := congrArg (List.dropWhile p) h
  rw [takeWhile_run hrun hrest, takeWhile_run hrun' hrest'] at htake
  rw [dropWhile_run hrun hrest, dropWhile_run hrun' hrest'] at hdrop
  exact ⟨htake, hdrop⟩

theorem isWord_blanks : (blanks.all fun n => !isWord (Char.ofNat n)) = true := by decide +kernel

theorem isBlank_of_isWord {c : Char} (h : isWord c = true) : isBlank c = false := by
  rw [Bool.eq_false_iff]
  intro hb
  have hm : c.toNat ∈ blanks := by simpa [isBlank] using hb
  have hn := List.all_eq_true.mp isWord_blanks c.toNat hm
  simp [h] at hn

theorem exists_strip_append (cs : List Char) :
    ∃ trail, (∀ c ∈ trail, isBlank c = true) ∧ cs.dropWhile isBlank = strip cs ++ trail :=
  ⟨(cs.dropWhile isBlank).rtakeWhile isBlank, fun _ hc => List.mem_rtakeWhile_imp hc,
    List.rdropWhile_append_rtakeWhile.symm⟩

theorem isBlank_of_getLast?_strip {cs : List Char} {c : Char} (h : (strip cs).getLast? = some c) :
    isBlank c = false := by
  have hne : strip cs ≠ [] := by
    intro hnil
    simp [hnil] at h
  have hlast := List.rdropWhile_last_not isBlank (cs.dropWhile isBlank) hne
  rw [List.getLast?_eq_some_getLast hne, Option.some.injEq] at h
  rw [← h]
  exact Bool.eq_false_iff.mpr hlast

theorem strip_between {lead mid trail : List Char} (hlead : ∀ c ∈ lead, isBlank c = true)
    (htrail : ∀ c ∈ trail, isBlank c = true) (hne : mid ≠ [])
    (hhead : ∀ c, mid.head? = some c → isBlank c = false)
    (hlast : ∀ c, mid.getLast? = some c → isBlank c = false) :
    strip (lead ++ (mid ++ trail)) = mid := by
  have hfront : (lead ++ (mid ++ trail)).dropWhile isBlank = mid ++ trail := by
    apply dropWhile_run hlead
    rwa [List.head?_append_of_ne_nil mid hne]
  have hback : (trail.reverse ++ mid.reverse).dropWhile isBlank = mid.reverse := by
    apply dropWhile_run (by simpa using htrail)
    rwa [List.head?_reverse]
  rw [strip, trimBoth, hfront, List.reverse_append, hback, List.reverse_reverse]

end Text
end SvgDiagram
