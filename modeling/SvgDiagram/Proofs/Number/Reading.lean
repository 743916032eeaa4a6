import SvgDiagram.Proofs.Position.Numeral

/-!
The double that a numeral stands for. A numeral without an exponent is a sign or none, and digits of any
script with a point before the last of them or without one; it is read as the double nearest to the decimal
that its digits spell.
-/

namespace SvgDiagram
namespace Number

/-- Digits of any script, some before a point and some after it. -/
@[ext]
structure Digits where
  whole : List Char
  fraction : List Char
  isDigit : ∀ c ∈ whole ++ fraction, Text.isDigit c = true
  nonempty : whole ++ fraction ≠ []

namespace Digits

/-- The point stands only where digits follow it. -/
def pointed (fraction : List Char) : List Char := if fraction.isEmpty then [] else '.' :: fraction

def text (d : Digits) : List Char := d.whole ++ pointed d.fraction

def value (d : Digits) : Float :=
  Decimal.toFloat ⟨ofDigits 10 (d.whole ++ d.fraction), -(d.fraction.length : Int)⟩

theorem mem_text {d : Digits} {c : Char} (hc : c ∈ d.text) : Text.isDigit c = true ∨ c = '.' := by
  have hdigits := d.isDigit
  simp only [List.mem_append] at hdigits
  simp only [text, pointed, List.mem_append] at hc
  rcases hc with hc | hc
  · exact .inl (hdigits c (.inl hc))
  · split at hc
    · cases hc
    · rcases List.mem_cons.mp hc with rfl | hc
      · exact .inr rfl
      · exact .inl (hdigits c (.inr hc))

theorem text_ne_nil (d : Digits) : d.text ≠ [] := by
  have hne := d.nonempty
  intro h
  simp only [text, pointed, List.append_eq_nil_iff] at h
  cases hf : d.fraction with
  | nil => exact hne (by rw [h.1, hf]; rfl)
  | cons c cs => simp [hf] at h

end Digits

theorem digitValue?_plainDigit {c : Char} (h : Text.isDigit c = true) :
    Text.digitValue? (plainDigit c) = Text.digitValue? c := by
  obtain ⟨d, hd⟩ := Option.isSome_iff_exists.mp h
  have hall : ∀ n < 10, Text.digitValue? (Char.ofNat (48 + n)) = some n := by decide
  simp only [plainDigit, hd]
  exact hall d (Text.digitValue?_lt hd)

theorem ofDigits_map_plainDigit {ds : List Char} (h : ∀ c ∈ ds, Text.isDigit c = true) :
    ofDigits 10 (ds.map plainDigit) = ofDigits 10 ds := by
  have hfold (n : Nat) : (ds.map plainDigit).foldl
      (fun n d => n * 10 + (Text.digitValue? d).getD 0) n =
        ds.foldl (fun n d => n * 10 + (Text.digitValue? d).getD 0) n := by
    induction ds generalizing n with
    | nil => rfl
    | cons c ds ih =>
        rw [List.forall_mem_cons] at h
        rw [List.map_cons, List.foldl_cons, List.foldl_cons, digitValue?_plainDigit h.1, ih h.2]
  exact hfold 0

/-- Digits with a point among them, in front of a text that does not continue them. -/
theorem readDecimal?_append {whole fraction : List Char} (tail : List Char)
    (hw : ∀ c ∈ whole, c.isDigit = true) (hf : ∀ c ∈ fraction, c.isDigit = true) (hne : whole ++ fraction ≠ [])
    (htail : ∀ c, tail.head? = some c → c.isDigit = false ∧ c ≠ '.') :
    readDecimal? (whole ++ (Digits.pointed fraction ++ tail)) = (readExponent? tail).map fun e =>
      ⟨ofDigits 10 (whole ++ fraction), e - (fraction.length : Int)⟩ := by
  cases fraction with
  | nil =>
      have hspan := span_digits whole tail hw fun c hc => (htail c hc).1
      have hempty : whole.isEmpty = false := by simpa using hne
      simp only [Digits.pointed, List.isEmpty_nil, ite_true, List.nil_append, readDecimal?, hspan,
        hempty, Bool.false_and, Bool.false_eq_true, ite_false]
      split
      · exact absurd rfl (htail '.' rfl).2
      · rfl
  | cons c cs =>
      have hspan := span_digits whole ('.' :: c :: (cs ++ tail)) hw (by simp)
      have hrest := span_digits (c :: cs) tail hf fun c hc => (htail c hc).1
      rw [List.cons_append] at hrest
      simp only [Digits.pointed, List.isEmpty_cons, Bool.false_eq_true, ite_false, List.cons_append,
        readDecimal?, hspan, hrest, Bool.and_false]

theorem readDecimal?_pointed {whole fraction : List Char} (hw : ∀ c ∈ whole, c.isDigit = true)
    (hf : ∀ c ∈ fraction, c.isDigit = true) (hne : whole ++ fraction ≠ []) :
    readDecimal? (whole ++ Digits.pointed fraction) =
      some ⟨ofDigits 10 (whole ++ fraction), -(fraction.length : Int)⟩ := by
  have hread := readDecimal?_append [] hw hf hne (by simp)
  rwa [List.append_nil, readExponent?, Option.map_some, Int.zero_sub] at hread

/-- The words for infinity and for no number begin with a letter. -/
theorem readMagnitude?_of_head {cs : List Char} {c : Char} (hc : cs.head? = some c)
    (hletter : c.toLower ≠ 'i' ∧ c.toLower ≠ 'n') :
    readMagnitude? cs = (readDecimal? cs).map Decimal.toFloat := by
  obtain ⟨rest, rfl⟩ : ∃ rest, cs = c :: rest := by
    cases cs with
    | nil => cases hc
    | cons d rest =>
        cases hc
        exact ⟨rest, rfl⟩
  have hword (d : Char) (w : List Char) (hd : c.toLower ≠ d) :
      (String.ofList ((c :: rest).map Char.toLower) == String.ofList (d :: w)) = false := by
    rw [beq_eq_false_iff_ne, ne_eq, String.ofList_inj, List.map_cons, List.cons.injEq]
    exact fun h => hd h.1
  have hinf := hword 'i' ['n', 'f'] hletter.1
  have hinfinity := hword 'i' ['n', 'f', 'i', 'n', 'i', 't', 'y'] hletter.1
  have hnan := hword 'n' ['a', 'n'] hletter.2
  simp only [readMagnitude?]
  rw [show "inf" = String.ofList ['i', 'n', 'f'] from rfl,
    show "infinity" = String.ofList ['i', 'n', 'f', 'i', 'n', 'i', 't', 'y'] from rfl,
    show "nan" = String.ofList ['n', 'a', 'n'] from rfl, hinf, hinfinity, hnan]
  rfl

/-- A numeral: a sign or none, and digits. -/
@[ext]
structure Numeral extends Digits where
  /-- Whether the sign that is written is a minus. -/
  sign : Option Bool

def signText : Option Bool → List Char
  | none => []
  | some negative => if negative then ['-'] else ['+']

namespace Numeral

def text (n : Numeral) : List Char := signText n.sign ++ n.toDigits.text

def value (n : Numeral) : Float :=
  if n.sign.getD false then -n.toDigits.value else n.toDigits.value

end Numeral

theorem toLower_of_isDigit {c : Char} (h : c.isDigit = true) :
    c.toLower ≠ 'i' ∧ c.toLower ≠ 'n' := by
  have hupper : ¬ (65 ≤ c.val ∧ c.val ≤ 90) := by
    simp only [Char.isDigit, Bool.and_eq_true, decide_eq_true_eq] at h
    rintro ⟨hlow, -⟩
    exact absurd (UInt32.le_trans hlow h.2) (by decide)
  have hsame : c.toLower = c := dif_neg hupper
  rw [hsame]
  constructor
  · rintro rfl
    cases h
  · rintro rfl
    cases h

theorem readMagnitude?_digits (d : Digits) :
    readMagnitude? (d.text.map plainDigit) = some d.value := by
  have hdigits := d.isDigit
  simp only [List.forall_mem_append] at hdigits
  have hplain (ds : List Char) (h : ∀ c ∈ ds, Text.isDigit c = true) :
      ∀ c ∈ ds.map plainDigit, c.isDigit = true := by
    intro c hc
    obtain ⟨d, hd, rfl⟩ := List.mem_map.mp hc
    exact isDigit_plainDigit (h d hd)
  have htext : d.text.map plainDigit =
      d.whole.map plainDigit ++ Digits.pointed (d.fraction.map plainDigit) := by
    have hpoint : plainDigit '.' = '.' := by decide
    simp only [Digits.text, Digits.pointed, List.map_append, List.isEmpty_map]
    split <;> simp [hpoint]
  have hread := readDecimal?_pointed (hplain _ hdigits.1) (hplain _ hdigits.2)
    (by simpa [List.map_append] using d.nonempty)
  rw [← List.map_append, ofDigits_map_plainDigit d.isDigit, List.length_map, ← htext] at hread
  obtain ⟨c, rest, hcs⟩ := List.exists_cons_of_ne_nil d.text_ne_nil
  -- The first character is a digit or a point, and neither begins a word.
  have hletter : (plainDigit c).toLower ≠ 'i' ∧ (plainDigit c).toLower ≠ 'n' := by
    rcases Digits.mem_text (d := d) (c := c) (by simp [hcs]) with hc | rfl
    · exact toLower_of_isDigit (isDigit_plainDigit hc)
    · decide
  rw [readMagnitude?_of_head (by rw [hcs]; rfl) hletter, hread, Option.map_some, Digits.value]

theorem takeSign_text (n : Numeral) :
    takeSign (n.text.map plainDigit) = (n.sign.getD false, n.toDigits.text.map plainDigit) := by
  rw [Numeral.text, List.map_append]
  cases n.sign with
  | none =>
      obtain ⟨c, rest, hcs⟩ := List.exists_cons_of_ne_nil n.text_ne_nil
      rw [hcs]
      rcases Digits.mem_text (d := n.toDigits) (c := c) (by simp [hcs]) with hc | rfl
      · exact takeSign_digit (isDigit_plainDigit hc)
      · rfl
  | some negative => cases negative <;> rfl

/-- A numeral is read as the double nearest to the decimal that it spells. -/
theorem readFloat?_numeral (n : Numeral) : readFloat? (String.ofList n.text) = some n.value := by
  have hchars : ∀ c ∈ n.text, Text.isDigit c = true ∨ c = '.' ∨ c = '-' ∨ c = '+' := by
    intro c hc
    rcases List.mem_append.mp hc with hc | hc
    · cases hsign : n.sign with
      | none => simp [hsign, signText] at hc
      | some negative => cases negative <;> simp [hsign, signText] at hc <;> simp [hc]
    · exact (Digits.mem_text hc).imp_right .inl
  have hpad : ∀ c ∈ n.text, Text.isPadding c = false := by
    intro c hc
    rcases hchars c hc with hd | rfl | rfl | rfl
    · exact Text.isPadding_of_isDigit hd
    all_goals decide
  have hjoin : ∀ c ∈ n.text.map plainDigit, c ≠ '_' := by
    intro c hc
    obtain ⟨d, hd, rfl⟩ := List.mem_map.mp hc
    rcases hchars d hd with hd | rfl | rfl | rfl
    · rintro h
      have := isDigit_plainDigit hd
      rw [h] at this
      cases this
    all_goals decide
  have hnormal : normalised (String.ofList n.text) = n.text.map plainDigit := by
    rw [normalised, String.toList_ofList, Text.trimBoth_eq_self hpad]
  simp only [readFloat?, hnormal, joinDigits?_eq_some hjoin, takeSign_text, readMagnitude?_digits,
    Option.bind_eq_bind, Option.bind_some, Numeral.value]
  rfl

end Number
end SvgDiagram
