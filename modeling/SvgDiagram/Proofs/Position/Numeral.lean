import Mathlib.Data.List.TakeDrop
import Mathlib.Data.List.TakeWhile
import SvgDiagram.Position.Expression

/-!
The numeral of an offset always stands for a real, whatever the script of its digits.
-/

namespace SvgDiagram

namespace Text

theorem digitValue?_lt {c : Char} {d : Nat} (h : digitValue? c = some d) : d < 10 := by
  simp only [digitValue?] at h
  split at h
  · split at h
    · rename_i hd
      simp only [Char.isDigit, Bool.and_eq_true, decide_eq_true_eq, ge_iff_le,
        UInt32.le_iff_toNat_le] at hd
      have hc : c.toNat ≤ 57 := hd.2
      cases h
      omega
    · simp at h
  · obtain ⟨z, hz, rfl⟩ := Option.map_eq_some_iff.mp h
    have := List.find?_some hz
    simp only [Bool.and_eq_true, decide_eq_true_eq] at this
    omega

theorem digitValue?_of_ascii {c : Char} (h : c.isDigit = true) : digitValue? c = some (c.toNat - 48) := by
  have hlt : c.toNat < 128 := Nat.lt_of_le_of_lt (Char.isDigit_iff_toNat.mp h).2 (by decide)
  rw [digitValue?, if_pos hlt, if_pos h]

theorem isDigit_of_ascii {c : Char} (h : c.isDigit = true) : isDigit c = true := by
  rw [isDigit, digitValue?_of_ascii h, Option.isSome_some]

theorem digitValue?_blanks : ∀ n ∈ blanks, digitValue? (Char.ofNat n) = none := by decide

theorem isPadding_of_isDigit {c : Char} (h : isDigit c = true) : isPadding c = false := by
  cases hb : isBlank c with
  | false => simp [isPadding, hb]
  | true =>
      have hm : c.toNat ∈ blanks := by simpa [isBlank] using hb
      have hn := digitValue?_blanks c.toNat hm
      rw [Char.ofNat_toNat] at hn
      simp [isDigit, hn] at h

theorem trimBoth_eq_self {p : Char → Bool} {cs : List Char} (h : ∀ c ∈ cs, p c = false) :
    trimBoth p cs = cs := by
  have hd (ds : List Char) (hp : ∀ c ∈ ds, p c = false) : ds.dropWhile p = ds := by
    cases ds with
    | nil => rfl
    | cons c ds => simp [hp c (by simp)]
  rw [trimBoth, hd cs h, hd cs.reverse (by simpa using h), List.reverse_reverse]

end Text

namespace Number

theorem isDigit_plainDigit {c : Char} (h : Text.isDigit c = true) :
    (plainDigit c).isDigit = true := by
  obtain ⟨d, hd⟩ := Option.isSome_iff_exists.mp h
  have hlt := Text.digitValue?_lt hd
  simp only [plainDigit, hd]
  have hall : ∀ n < 10, (Char.ofNat (48 + n)).isDigit = true := by decide
  exact hall d hlt

theorem joinDigits?_eq_some {previous : Bool} {cs : List Char} (h : ∀ c ∈ cs, c ≠ '_') :
    joinDigits? previous cs = some cs := by
  induction cs generalizing previous with
  | nil => rfl
  | cons c cs ih =>
      have hc := h c (by simp)
      have hr : ∀ d ∈ cs, d ≠ '_' := fun d hd => h d (by simp [hd])
      rw [joinDigits?]
      · simp [hc, ih hr]
      · rintro d ds rfl
        exact absurd rfl hc

theorem takeSign_digit {c : Char} {cs : List Char} (h : c.isDigit = true) :
    takeSign (c :: cs) = (false, c :: cs) := by
  have hm : c ≠ '-' := by rintro rfl; simp [Char.isDigit] at h
  have hp : c ≠ '+' := by rintro rfl; simp [Char.isDigit] at h
  simp [takeSign, hm, hp]

theorem span_digits (ds rest : List Char) (h : ∀ c ∈ ds, c.isDigit = true)
    (hr : ∀ c ∈ rest.head?, c.isDigit = false) : (ds ++ rest).span Char.isDigit = (ds, rest) := by
  rw [List.span_eq_takeWhile_dropWhile, List.takeWhile_append_of_pos h,
    List.dropWhile_append_of_pos h]
  cases rest with
  | nil => simp
  | cons c rest => simp [hr c (by simp)]

/-- Digits, perhaps with a point and more digits after them. -/
def DigitText (isDigit : Char → Bool) (cs : List Char) : Prop :=
  ∃ whole, whole ≠ [] ∧ (∀ c ∈ whole, isDigit c = true) ∧
    (cs = whole ∨ ∃ fraction, (∀ c ∈ fraction, isDigit c = true) ∧ cs = whole ++ '.' :: fraction)

theorem readDecimal?_isSome {cs : List Char} (h : DigitText Char.isDigit cs) :
    (readDecimal? cs).isSome = true := by
  obtain ⟨whole, hne, hw, hcs⟩ := h
  have hempty : whole.isEmpty = false := by simpa using hne
  rcases hcs with rfl | ⟨fraction, hf, rfl⟩
  · have hs := span_digits cs [] hw (by simp)
    rw [List.append_nil] at hs
    simp only [readDecimal?, hs, hempty]
    rfl
  · have hs := span_digits whole ('.' :: fraction) hw (by simp)
    have hs' := span_digits fraction [] hf (by simp)
    rw [List.append_nil] at hs'
    simp only [readDecimal?, hs, hs', hempty]
    rfl

theorem readMagnitude?_isSome {cs : List Char} (h : (readDecimal? cs).isSome = true) :
    (readMagnitude? cs).isSome = true := by
  simp only [readMagnitude?]
  split
  · rfl
  · split
    · rfl
    · simpa using h

theorem DigitText.mem {isDigit : Char → Bool} {cs : List Char} (h : DigitText isDigit cs)
    {c : Char} (hc : c ∈ cs) : isDigit c = true ∨ c = '.' := by
  obtain ⟨whole, _, hw, rfl | ⟨fraction, hf, rfl⟩⟩ := h
  · exact .inl (hw c hc)
  · rcases List.mem_append.mp hc with hc | hc
    · exact .inl (hw c hc)
    · rcases List.mem_cons.mp hc with rfl | hc
      · exact .inr rfl
      · exact .inl (hf c hc)

theorem DigitText.head {isDigit : Char → Bool} {cs : List Char} (h : DigitText isDigit cs) :
    ∃ c rest, cs = c :: rest ∧ isDigit c = true := by
  obtain ⟨whole, hne, hw, hcs⟩ := h
  obtain ⟨c, rest, rfl⟩ := List.exists_cons_of_ne_nil hne
  have hc := hw c (by simp)
  rcases hcs with rfl | ⟨fraction, _, rfl⟩
  · exact ⟨c, rest, rfl, hc⟩
  · exact ⟨c, _, rfl, hc⟩

theorem DigitText.map_plainDigit {cs : List Char} (h : DigitText Text.isDigit cs) :
    DigitText Char.isDigit (cs.map plainDigit) := by
  have hmap (ds : List Char) (hd : ∀ c ∈ ds, Text.isDigit c = true) :
      ∀ c ∈ ds.map plainDigit, c.isDigit = true := by
    intro c hc
    obtain ⟨d, hm, rfl⟩ := List.mem_map.mp hc
    exact isDigit_plainDigit (hd d hm)
  obtain ⟨whole, hne, hw, hcs⟩ := h
  refine ⟨whole.map plainDigit, by simpa using hne, hmap whole hw, ?_⟩
  rcases hcs with rfl | ⟨fraction, hf, rfl⟩
  · exact .inl rfl
  · exact .inr ⟨fraction.map plainDigit, hmap fraction hf, by simp [plainDigit]; rfl⟩

/-- A text of digits in any script is a numeral of a real. -/
theorem readFloat?_isSome {cs : List Char} (h : DigitText Text.isDigit cs) :
    (readFloat? (String.ofList cs)).isSome = true := by
  have hpad : ∀ c ∈ cs, Text.isPadding c = false := by
    intro c hc
    rcases h.mem hc with hd | rfl
    · exact Text.isPadding_of_isDigit hd
    · decide
  have hn : normalised (String.ofList cs) = cs.map plainDigit := by
    rw [normalised, String.toList_ofList, Text.trimBoth_eq_self hpad]
  have hp := h.map_plainDigit
  have hj : ∀ c ∈ cs.map plainDigit, c ≠ '_' := by
    rintro _ hc rfl
    rcases hp.mem hc with hd | hd
    · simp [Char.isDigit] at hd
    · simp at hd
  have hm := readMagnitude?_isSome (readDecimal?_isSome hp)
  obtain ⟨x, hx⟩ := Option.isSome_iff_exists.mp hm
  have hs : takeSign (cs.map plainDigit) = (false, cs.map plainDigit) := by
    obtain ⟨c, rest, hc, hd⟩ := hp.head
    rw [hc]
    exact takeSign_digit hd
  simp [readFloat?, hn, joinDigits?_eq_some hj, hs, hx]

end Number

namespace Position

theorem digitText_of_isNumeral {cs : List Char} (h : isNumeral cs = true) :
    Number.DigitText Text.isDigit cs := by
  simp only [isNumeral, Bool.and_eq_true, Bool.not_eq_true', List.isEmpty_eq_false_iff] at h
  obtain ⟨hne, hrest⟩ := h
  have hcs := List.takeWhile_append_dropWhile (p := Text.isDigit) (l := cs)
  refine ⟨cs.takeWhile Text.isDigit, hne, fun c hc => List.mem_takeWhile_imp hc, ?_⟩
  cases hr : cs.dropWhile Text.isDigit with
  | nil => exact .inl (by simpa [hr] using hcs.symm)
  | cons c fraction =>
      simp only [hr, Bool.and_eq_true, beq_iff_eq, List.all_eq_true] at hrest
      obtain ⟨⟨rfl, _⟩, hf⟩ := hrest
      exact .inr ⟨fraction, hf, by rw [← hr, hcs]⟩

theorem isNumeral_of_readOffset? {cs : List Char} {o : Offset}
    (h : readOffset? cs = some (some o)) : isNumeral o.numeral = true := by
  simp only [readOffset?] at h
  split at h
  · simp at h
  · split at h
    · split at h
      · rename_i hn
        obtain rfl := Option.some.inj (Option.some.inj h)
        exact (Bool.and_eq_true _ _ ▸ hn).2
      · simp at h
    · simp at h

/-- The offset of an expression that can be read is a number. -/
theorem offset_isSome {text : String} {e : Expression} {o : Offset}
    (h : Expression.read? text = some e) (ho : e.offset = some o) :
    (Number.readFloat? (String.ofList o.numeral)).isSome = true := by
  apply Number.readFloat?_isSome
  apply digitText_of_isNumeral
  simp only [Expression.read?] at h
  split at h
  · split at h
    · simp at h
    · obtain ⟨offset, hr, rfl⟩ := Option.map_eq_some_iff.mp h
      simp only at ho
      subst ho
      exact isNumeral_of_readOffset? hr
  · simp at h

end Position
end SvgDiagram
