import SvgDiagram.Proofs.Number.Reading

/-!
Numerals in plain ASCII. Where only those are read, a numeral stands for the real that it stands for
everywhere: it is made of letters, digits, points and signs, and none of these is a blank, a digit of another
script or an underscore.
-/

namespace SvgDiagram
namespace Number

/-- What a numeral without blanks and underscores is made of. -/
def isMark (c : Char) : Bool := c.isAlphanum || c == '.' || c == '+' || c == '-'

theorem isMark_of_isDigit {c : Char} (h : c.isDigit = true) : isMark c = true := by
  simp [isMark, Char.isAlphanum, h]

theorem isMark_blanks : (Text.blanks.all fun n => !isMark (Char.ofNat n)) = true := by decide +kernel

theorem isPadding_of_isMark {c : Char} (h : isMark c = true) : Text.isPadding c = false := by
  rw [Bool.eq_false_iff]
  intro hpadding
  simp only [Text.isPadding, Text.isBlank, Bool.and_eq_true, List.contains_iff_mem] at hpadding
  have hblank := List.all_eq_true.mp isMark_blanks c.toNat hpadding.1
  simp [h] at hblank

theorem ne_underscore_of_isMark {c : Char} (h : isMark c = true) : c ≠ '_' := by
  rintro rfl
  cases h

theorem toNat_lt_of_isAlpha {c : Char} (h : c.isAlpha = true) : c.toNat < 128 := by
  have hz : 'z'.val.toNat = 122 ∧ 'Z'.val.toNat = 90 := by decide
  have hcases : c.isUpper = true ∨ c.isLower = true := Bool.or_eq_true_iff.mp h
  simp only [Char.toNat]
  rcases hcases with hupper | hlower
  · have hle : c.val ≤ 'Z'.val := (of_decide_eq_true hupper).2
    rw [UInt32.le_iff_toNat_le] at hle
    omega
  · have hle : c.val ≤ 'z'.val := of_decide_eq_true (Bool.and_eq_true_iff.mp hlower).2
    rw [UInt32.le_iff_toNat_le] at hle
    omega

theorem plainDigit_of_ascii {c : Char} (h : c.toNat < 128) : plainDigit c = c := by
  cases hd : c.isDigit with
  | true =>
      have hrange := Char.isDigit_iff_toNat.mp hd
      rw [plainDigit, Text.digitValue?_of_ascii hd]
      have hsum : 48 + (c.toNat - 48) = c.toNat := Nat.add_sub_cancel' hrange.1
      simp only [hsum, Char.ofNat_toNat]
  | false => simp [plainDigit, Text.digitValue?, h, hd]

theorem plainDigit_of_isMark {c : Char} (h : isMark c = true) : plainDigit c = c := by
  simp only [isMark, Char.isAlphanum, Bool.or_eq_true, beq_iff_eq] at h
  apply plainDigit_of_ascii
  rcases h with (((h | h) | rfl) | rfl) | rfl
  · exact toNat_lt_of_isAlpha h
  · exact Nat.lt_of_le_of_lt (Char.isDigit_iff_toNat.mp h).2 (by decide)
  all_goals decide

theorem isMark_of_toLower {c : Char} (h : isMark c.toLower = true) : isMark c = true := by
  by_cases hupper : 65 ≤ c.val ∧ c.val ≤ 90
  · have halpha : c.isAlpha = true := Bool.or_eq_true_iff.mpr (.inl (decide_eq_true hupper))
    simp [isMark, Char.isAlphanum, halpha]
  · have hsame : c.toLower = c := dif_neg hupper
    rwa [hsame] at h

/-- A word that is spelled in letters of any case is made of letters. -/
theorem isMark_of_word {cs : List Char} {word : String} (hword : (word.toList.all isMark) = true)
    (h : (String.ofList (cs.map Char.toLower) == word) = true) : ∀ c ∈ cs, isMark c = true := by
  intro c hc
  have hcs : cs.map Char.toLower = word.toList := by
    rw [← beq_iff_eq.mp h, String.toList_ofList]
  apply isMark_of_toLower
  apply List.all_eq_true.mp hword
  rw [← hcs]
  exact List.mem_map_of_mem hc

theorem isMark_of_takeSign {cs : List Char} (h : ∀ c ∈ (takeSign cs).2, isMark c = true) :
    ∀ c ∈ cs, isMark c = true := by
  unfold takeSign at h
  split at h
  · exact List.forall_mem_cons.mpr ⟨by decide, h⟩
  · exact List.forall_mem_cons.mpr ⟨by decide, h⟩
  · exact h

theorem isMark_of_readExponent? {cs : List Char} {e : Int} (h : readExponent? cs = some e) :
    ∀ c ∈ cs, isMark c = true := by
  cases cs with
  | nil => simp
  | cons c cs =>
      simp only [readExponent?] at h
      split at h
      · rename_i he
        split at h
        · rename_i hdigits
          simp only [Bool.and_eq_true, List.all_eq_true] at hdigits
          have hc : isMark c = true := by
            simp only [Bool.or_eq_true, beq_iff_eq] at he
            rcases he with rfl | rfl <;> decide
          exact List.forall_mem_cons.mpr ⟨hc, isMark_of_takeSign fun d hd =>
            isMark_of_isDigit (hdigits.2 d hd)⟩
        · cases h
      · cases h

/-- What stands before a text that is made of marks, and is made of digits, is made of marks too. -/
theorem isMark_of_span {cs : List Char} (h : ∀ c ∈ (cs.span Char.isDigit).2, isMark c = true) :
    ∀ c ∈ cs, isMark c = true := by
  rw [List.span_eq_takeWhile_dropWhile] at h
  rw [← List.takeWhile_append_dropWhile (p := Char.isDigit) (l := cs), List.forall_mem_append]
  exact ⟨fun c hc => isMark_of_isDigit (List.mem_takeWhile_imp hc), h⟩

theorem isMark_of_readDecimal? {cs : List Char} {d : Decimal} (h : readDecimal? cs = some d) :
    ∀ c ∈ cs, isMark c = true := by
  apply isMark_of_span
  simp only [readDecimal?] at h
  split at h
  · rename_i rest hpoint
    rw [hpoint]
    split at h
    · cases h
    · obtain ⟨e, he, -⟩ := Option.map_eq_some_iff.mp h
      exact List.forall_mem_cons.mpr ⟨by decide, isMark_of_span (isMark_of_readExponent? he)⟩
  · split at h
    · cases h
    · obtain ⟨e, he, -⟩ := Option.map_eq_some_iff.mp h
      exact isMark_of_readExponent? he

theorem isMark_of_readMagnitude? {cs : List Char} {x : Float} (h : readMagnitude? cs = some x) :
    ∀ c ∈ cs, isMark c = true := by
  simp only [readMagnitude?] at h
  split at h
  · rename_i hword
    rcases Bool.or_eq_true _ _ ▸ hword with hword | hword
    · exact isMark_of_word (by decide) hword
    · exact isMark_of_word (by decide) hword
  · split at h
    · rename_i hword
      exact isMark_of_word (by decide) hword
    · obtain ⟨d, hd, -⟩ := Option.map_eq_some_iff.mp h
      exact isMark_of_readDecimal? hd

/-- What is left after underscores are taken out is all that there was besides them. -/
theorem mem_of_joinDigits? {previous : Bool} {cs ds : List Char} (h : joinDigits? previous cs = some ds) :
    ∀ c ∈ cs, c = '_' ∨ c ∈ ds := by
  fun_induction joinDigits? previous cs generalizing ds with
  | case1 => simp
  | case2 previous c cs hdigit ih =>
      obtain ⟨es, hes, rfl⟩ := Option.map_eq_some_iff.mp h
      intro d hd
      rcases List.mem_cons.mp hd with rfl | hd
      · exact .inl rfl
      rcases List.mem_cons.mp hd with rfl | hd
      · exact .inr List.mem_cons_self
      · exact (ih hes d hd).imp_right (List.mem_cons_of_mem _)
  | case3 => cases h
  | case4 => cases h
  | case5 previous c cs _ _ ih =>
      obtain ⟨es, hes, rfl⟩ := Option.map_eq_some_iff.mp h
      intro d hd
      rcases List.mem_cons.mp hd with rfl | hd
      · exact .inr List.mem_cons_self
      · exact (ih hes d hd).imp_right (List.mem_cons_of_mem _)

theorem map_plainDigit_eq_self {cs : List Char} (h : ∀ c ∈ cs, c = '_' ∨ isMark c = true) :
    cs.map plainDigit = cs := by
  rw [List.map_congr_left (g := id), List.map_id]
  intro c hc
  rcases h c hc with rfl | hmark
  · decide
  · exact plainDigit_of_isMark hmark

/-- A numeral in plain ASCII stands for one real. -/
theorem readFloat?_of_readPlainFloat? {s : String} {x : Float} (h : readPlainFloat? s = some x) :
    readFloat? s = some x := by
  simp only [readPlainFloat?, Option.bind_eq_bind, Option.bind_eq_some_iff] at h
  obtain ⟨cs, hcs, y, hy, hx⟩ := h
  have hmarks := isMark_of_takeSign (isMark_of_readMagnitude? hy)
  have hjoined : joinDigits? false (normalised s) = some cs := by
    rw [plainBody?] at hcs
    split at hcs
    · have hchars : ∀ c ∈ s.toList, c = '_' ∨ isMark c = true := fun c hc =>
        (mem_of_joinDigits? hcs c hc).imp_right (hmarks c)
      have hpadding : ∀ c ∈ s.toList, Text.isPadding c = false := by
        intro c hc
        rcases hchars c hc with rfl | hmark
        · decide
        · exact isPadding_of_isMark hmark
      rw [normalised, Text.trimBoth_eq_self hpadding, map_plainDigit_eq_self hchars, hcs]
    · cases hcs
      rw [normalised, map_plainDigit_eq_self fun c hc => .inr (hmarks c hc)]
      exact joinDigits?_eq_some fun c hc => ne_underscore_of_isMark (hmarks c hc)
  simp only [readFloat?, hjoined, Option.bind_eq_bind, Option.bind_some, hy]
  exact hx

end Number
end SvgDiagram
