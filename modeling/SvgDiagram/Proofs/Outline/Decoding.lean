import SvgDiagram.Proofs.Number.Written
import SvgDiagram.Proofs.Outline.Encoding
import SvgDiagram.Proofs.Text.Strip

/-!
Outline data can be decoded. A segment begins with the letter of its kind, which says how many numbers follow,
and each of them ends at a comma, at a blank or with the text. So the data of a segment in front of any others
tells the segment and where it ends. Main statement: different lists of segments have different data.
-/

namespace SvgDiagram
namespace Outline

/-- A text that does not continue a number. -/
def Ends (rest : List Char) : Prop := ∀ c, rest.head? = some c → Number.isNumberChar c = false

theorem ends_nil : Ends [] := nofun

theorem ends_comma (cs : List Char) : Ends (',' :: cs) := by
  rintro c ⟨⟩
  decide

theorem ends_blank (cs : List Char) : Ends (' ' :: cs) := by
  rintro c ⟨⟩
  decide

/-- A way to write values as numbers, by which they can be told apart. -/
structure Distinguishes {α : Type} (text : α → String) : Prop where
  injective : Function.Injective text
  numeric : ∀ a, ∀ c ∈ (text a).toList, Number.isNumberChar c = true

theorem Distinguishes.append_inj {α : Type} {text : α → String} (h : Distinguishes text) {a b : α}
    {rest rest' : List Char} (hrest : Ends rest) (hrest' : Ends rest')
    (heq : (text a).toList ++ rest = (text b).toList ++ rest') : a = b ∧ rest = rest' := by
  obtain ⟨htext, hrests⟩ := Text.run_inj (h.numeric a) (h.numeric b) hrest hrest' heq
  exact ⟨h.injective (String.toList_inj.mp htext), hrests⟩

theorem distinguishes_written : Distinguishes Number.written :=
  ⟨Number.written_injective, Number.isNumberChar_written⟩

theorem distinguishes_rotationText : Distinguishes rotationText where
  injective := by
    intro r r' h
    cases r with
    | none =>
        cases r' with
        | none => rfl
        | some y => exact absurd h.symm (Number.written_ne_zero y)
    | some x =>
        cases r' with
        | none => exact absurd h (Number.written_ne_zero x)
        | some y => exact congrArg some (Number.written_injective h)
  numeric r := by
    cases r with
    | none => exact List.all_eq_true.mp (by decide)
    | some x => exact Number.isNumberChar_written x

theorem distinguishes_flagText : Distinguishes flagText where
  injective := by decide
  numeric b := by cases b <;> exact List.all_eq_true.mp (by decide)

theorem pairText_append_inj {x y x' y' : Float} {rest rest' : List Char} (hrest : Ends rest)
    (hrest' : Ends rest')
    (h : (pairText x y).toList ++ rest = (pairText x' y').toList ++ rest') :
    (x = x' ∧ y = y') ∧ rest = rest' := by
  simp only [pairText, String.toList_append, List.append_assoc] at h
  obtain ⟨hx, hcomma⟩ := distinguishes_written.append_inj (ends_comma _) (ends_comma _) h
  obtain ⟨hy, hrests⟩ := distinguishes_written.append_inj hrest hrest' (List.cons.inj hcomma).2
  exact ⟨⟨hx, hy⟩, hrests⟩

namespace Segment

theorem head?_data (s : Segment) : s.data.toList.head? = some s.letter := by
  cases s <;> simp [data, letter]

/-- The data of a segment, in front of a text that does not continue its last number, tells the segment and
the text. -/
theorem data_append_inj {s t : Segment} {rest rest' : List Char} (hrest : Ends rest)
    (hrest' : Ends rest') (h : s.data.toList ++ rest = t.data.toList ++ rest') :
    s = t ∧ rest = rest' := by
  have hletter : s.letter = t.letter := by
    have hhead := congrArg List.head? h
    rwa [List.head?_append, List.head?_append, head?_data, head?_data, Option.some_or, Option.some_or,
      Option.some_inj] at hhead
  have blank := ends_blank
  -- The letter leaves one kind of segment, and the numbers are cut off from the left.
  cases s with
  | move x y =>
      cases t with
      | move x' y' =>
          simp only [data, String.toList_append, List.append_assoc] at h
          obtain ⟨hpoint, h⟩ := pairText_append_inj hrest hrest' (List.cons.inj h).2
          exact ⟨by rw [hpoint.1, hpoint.2], h⟩
      | line | cubic | quadratic | arc | close => simp [letter] at hletter
  | line x y =>
      cases t with
      | line x' y' =>
          simp only [data, String.toList_append, List.append_assoc] at h
          obtain ⟨hpoint, h⟩ := pairText_append_inj hrest hrest' (List.cons.inj h).2
          exact ⟨by rw [hpoint.1, hpoint.2], h⟩
      | move | cubic | quadratic | arc | close => simp [letter] at hletter
  | cubic x1 y1 x2 y2 x y =>
      cases t with
      | cubic x1' y1' x2' y2' x' y' =>
          simp only [data, String.toList_append, List.append_assoc] at h
          obtain ⟨hcontrol, h⟩ := pairText_append_inj (blank _) (blank _) (List.cons.inj h).2
          obtain ⟨hcontrol', h⟩ := pairText_append_inj (blank _) (blank _) (List.cons.inj h).2
          obtain ⟨hpoint, h⟩ := pairText_append_inj hrest hrest' (List.cons.inj h).2
          exact ⟨by rw [hcontrol.1, hcontrol.2, hcontrol'.1, hcontrol'.2, hpoint.1, hpoint.2], h⟩
      | move | line | quadratic | arc | close => simp [letter] at hletter
  | quadratic x1 y1 x y =>
      cases t with
      | quadratic x1' y1' x' y' =>
          simp only [data, String.toList_append, List.append_assoc] at h
          obtain ⟨hcontrol, h⟩ := pairText_append_inj (blank _) (blank _) (List.cons.inj h).2
          obtain ⟨hpoint, h⟩ := pairText_append_inj hrest hrest' (List.cons.inj h).2
          exact ⟨by rw [hcontrol.1, hcontrol.2, hpoint.1, hpoint.2], h⟩
      | move | line | cubic | arc | close => simp [letter] at hletter
  | arc rx ry rotation large sweep x y =>
      cases t with
      | arc rx' ry' rotation' large' sweep' x' y' =>
          simp only [data, String.toList_append, List.append_assoc] at h
          obtain ⟨hradii, h⟩ := pairText_append_inj (blank _) (blank _) (List.cons.inj h).2
          obtain ⟨hrotation, h⟩ :=
            distinguishes_rotationText.append_inj (blank _) (blank _) (List.cons.inj h).2
          obtain ⟨hlarge, h⟩ :=
            distinguishes_flagText.append_inj (blank _) (blank _) (List.cons.inj h).2
          obtain ⟨hsweep, h⟩ :=
            distinguishes_flagText.append_inj (blank _) (blank _) (List.cons.inj h).2
          obtain ⟨hpoint, h⟩ := pairText_append_inj hrest hrest' (List.cons.inj h).2
          exact ⟨by rw [hradii.1, hradii.2, hrotation, hlarge, hsweep, hpoint.1, hpoint.2], h⟩
      | move | line | cubic | quadratic | close => simp [letter] at hletter
  | close =>
      cases t with
      | close => exact ⟨rfl, (List.cons.inj h).2⟩
      | move | line | cubic | quadratic | arc => simp [letter] at hletter

end Segment

/-- What follows the data of a segment: nothing, or a blank and the data of the others. -/
def following : List Segment → List Char
  | [] => []
  | s :: rest => ' ' :: (data (s :: rest)).toList

theorem ends_following (segments : List Segment) : Ends (following segments) := by
  cases segments with
  | nil => exact ends_nil
  | cons s rest => exact ends_blank _

theorem toList_data_cons (s : Segment) (rest : List Segment) :
    (data (s :: rest)).toList = s.data.toList ++ following rest := by
  cases rest with
  | nil => simp [data, following]
  | cons t rest => exact data_cons_cons s t rest

theorem data_cons_ne_nil (s : Segment) (rest : List Segment) : (data (s :: rest)).toList ≠ [] := by
  intro h
  rw [toList_data_cons] at h
  have hhead := s.head?_data
  rw [(List.append_eq_nil_iff.mp h).1] at hhead
  cases hhead

/-- Segments are known by their data: kinds, numbers and flags, in their order. A rotation that is left out is
not mistaken for one of zero degrees, nor an infinite number, or none, for another. -/
theorem data_eq_data_iff (ss ts : List Segment) : data ss = data ts ↔ ss = ts := by
  refine ⟨fun h => ?_, congrArg data⟩
  replace h := congrArg String.toList h
  induction ss generalizing ts with
  | nil =>
      cases ts with
      | nil => rfl
      | cons t ts => exact absurd h.symm (data_cons_ne_nil t ts)
  | cons s ss ih =>
      cases ts with
      | nil => exact absurd h (data_cons_ne_nil s ss)
      | cons t ts =>
          rw [toList_data_cons, toList_data_cons] at h
          obtain ⟨rfl, hrest⟩ := Segment.data_append_inj (ends_following ss) (ends_following ts) h
          cases ss with
          | nil =>
              cases ts with
              | nil => rfl
              | cons t ts => cases hrest
          | cons u ss =>
              cases ts with
              | nil => cases hrest
              | cons t ts => rw [ih (t :: ts) (List.cons.inj hrest).2]

end Outline
end SvgDiagram
