import SvgDiagram.Proofs.Number.Bits
import SvgDiagram.Proofs.Number.Whole

/-!
A double can be told from its text. The text of a decimal is read as a decimal of the same value, whether it
has an exponent or not, and the text of a double is that of its shortest decimal, which rounds to no other
double. Main statement: different doubles have different texts.
-/

namespace SvgDiagram
namespace Number

/-! ## Decimals -/

theorem ofDigits_append (ds es : List Char) :
    ofDigits 10 (ds ++ es) = ofDigits 10 ds * 10 ^ es.length + ofDigits 10 es := by
  have hfold (n : ℕ) : es.foldl (fun n d => n * 10 + (Text.digitValue? d).getD 0) n =
      n * 10 ^ es.length + ofDigits 10 es := by
    induction es generalizing n with
    | nil => simp [ofDigits]
    | cons e es ih =>
        rw [ofDigits, List.foldl_cons, List.foldl_cons, ih, ih, List.length_cons]
        ring
  rw [ofDigits, List.foldl_append]
  exact hfold _

theorem ofDigits_zeros (n : ℕ) : ofDigits 10 (List.replicate n '0') = 0 := by
  induction n with
  | zero => rfl
  | succ n ih => rwa [List.replicate_succ]

theorem isDigit_toDigits (n : ℕ) : ∀ c ∈ Nat.toDigits 10 n, c.isDigit = true := fun _ hc =>
  Nat.isDigit_of_mem_toDigits (by decide) (by decide) hc

theorem readExponent?_exponentText (width : ℕ) (e : ℤ) : readExponent? (exponentText width e) = some e := by
  have hdigits : ∀ c ∈ List.replicate (width - (Nat.toDigits 10 e.natAbs).length) '0' ++
      Nat.toDigits 10 e.natAbs, c.isDigit = true :=
    List.forall_mem_append.mpr ⟨isDigit_zeros _, isDigit_toDigits _⟩
  have hvalue : ofDigits 10 (List.replicate (width - (Nat.toDigits 10 e.natAbs).length) '0' ++
      Nat.toDigits 10 e.natAbs) = e.natAbs := by
    rw [ofDigits_append, ofDigits_zeros, ofDigits_toDigits, Nat.zero_mul, Nat.zero_add]
  have hall := List.all_eq_true.mpr hdigits
  have hsome : (List.replicate (width - (Nat.toDigits 10 e.natAbs).length) '0' ++
      Nat.toDigits 10 e.natAbs).isEmpty = false := by simp [Nat.toDigits_ne_nil]
  by_cases hneg : e < 0
  · have habs : -(e.natAbs : ℤ) = e := by omega
    simp only [exponentText, hneg, ite_true, List.cons_append, readExponent?, takeSign, hall, hsome, hvalue,
      beq_self_eq_true, Bool.true_or, Bool.not_false, Bool.and_self, habs]
  · have habs : (e.natAbs : ℤ) = e := by omega
    simp only [exponentText, hneg, ite_false, ite_true, List.cons_append, readExponent?, takeSign, hall,
      hsome, hvalue, beq_self_eq_true, Bool.true_or, Bool.not_false, Bool.and_self, Bool.false_eq_true, habs]

/-- Digits with a point among them, and no exponent. -/
theorem readDecimal?_point {whole fraction : List Char} (hw : ∀ c ∈ whole, c.isDigit = true)
    (hf : ∀ c ∈ fraction, c.isDigit = true) (hne : fraction ≠ []) :
    readDecimal? (whole ++ '.' :: fraction) =
      some ⟨ofDigits 10 (whole ++ fraction), -(fraction.length : Int)⟩ := by
  have hread := readDecimal?_pointed hw hf (List.append_ne_nil_of_right_ne_nil _ hne)
  rwa [Digits.pointed, if_neg (by simpa using hne)] at hread

/-- The point after `n` digits: zeros fill up to it, and one stands after it if no digit is left. -/
theorem readDecimal?_fill {digits : List Char} (hdigits : ∀ c ∈ digits, c.isDigit = true) (n : ℕ) :
    ∃ d, readDecimal? (digits.take n ++ List.replicate (n - digits.length) '0' ++
        '.' :: (if (digits.drop n).isEmpty then ['0'] else digits.drop n)) = some d ∧
      d.value = ofDigits 10 digits * 10 ^ (n - digits.length : ℤ) := by
  have hwhole : ∀ c ∈ digits.take n ++ List.replicate (n - digits.length) '0', c.isDigit = true :=
    List.forall_mem_append.mpr ⟨fun c hc => hdigits c (List.mem_of_mem_take hc), isDigit_zeros _⟩
  by_cases hshort : digits.length ≤ n
  · have hread := readDecimal?_point hwhole (isDigit_zeros 1) (by simp)
    rw [List.drop_eq_nil_of_le hshort, List.isEmpty_nil, if_pos rfl]
    refine ⟨_, hread, ?_⟩
    rw [List.take_of_length_le hshort, List.append_assoc, ← List.replicate_add, ofDigits_append, ofDigits_zeros,
      List.length_replicate, Decimal.value, Nat.add_zero, List.length_replicate]
    have hexp : ((n - digits.length + 1 : ℕ) : ℤ) + -((1 : ℕ) : ℤ) = n - digits.length := by omega
    rw [← hexp, zpow_add₀ (by norm_num), zpow_natCast]
    push_cast
    ring
  · have hne : digits.drop n ≠ [] := by simpa using hshort
    have hread := readDecimal?_point hwhole (fun c hc => hdigits c (List.mem_of_mem_drop hc)) hne
    have hzeros : n - digits.length = 0 := by omega
    rw [hzeros, List.replicate_zero, List.append_nil, List.take_append_drop, List.length_drop] at hread
    rw [if_neg (by simpa using hshort), hzeros, List.replicate_zero, List.append_nil]
    refine ⟨_, hread, ?_⟩
    simp only [Decimal.value]
    congr 2
    omega

/-- The text of a decimal is read as a decimal of the same value. -/
theorem readDecimal?_text (l : Layout) (d : Decimal) :
    ∃ d', readDecimal? (d.text l) = some d' ∧ d'.value = d.value := by
  have hpos : 0 < (Nat.toDigits 10 d.digits).length := List.length_pos_iff.mpr Nat.toDigits_ne_nil
  have hdigit := isDigit_toDigits d.digits
  have hvalue := ofDigits_toDigits d.digits
  unfold Decimal.text
  generalize Nat.toDigits 10 d.digits = digits at hpos hdigit hvalue ⊢
  simp only
  split
  · -- With an exponent, the point stands after the first digit.
    have htail : ∀ c, (exponentText l.exponentWidth (d.exponent + digits.length - 1)).head? = some c →
        c.isDigit = false ∧ c ≠ '.' := by
      rintro c ⟨⟩
      decide
    have hread := readDecimal?_append _ (fun c hc => hdigit c (List.mem_of_mem_take hc))
      (fun c hc => hdigit c (List.mem_of_mem_drop hc))
      (by rw [List.take_append_drop 1]; exact List.length_pos_iff.mp hpos) htail
    rw [readExponent?_exponentText, List.take_append_drop, hvalue, ← List.append_assoc] at hread
    refine ⟨d, hread.trans ?_, rfl⟩
    rw [Option.map_some, List.length_drop]
    congr 2
    omega
  · split
    · -- Below one, zeros stand between the point and the digits.
      have hread := readDecimal?_point (isDigit_zeros 1)
        (List.forall_mem_append.mpr ⟨isDigit_zeros (-(d.exponent + digits.length - 1) - 1).toNat, hdigit⟩)
        (List.append_ne_nil_of_right_ne_nil _ (List.length_pos_iff.mp hpos))
      rw [← List.append_assoc, ← List.replicate_add, ofDigits_append, ofDigits_zeros, hvalue, Nat.zero_mul,
        Nat.zero_add, List.length_append, List.length_replicate] at hread
      refine ⟨d, hread.trans ?_, rfl⟩
      congr 2
      omega
    · obtain ⟨d', hread, hsame⟩ := readDecimal?_fill hdigit ((d.exponent + digits.length - 1).toNat + 1)
      refine ⟨d', hread, ?_⟩
      rw [hsame, hvalue, Decimal.value]
      congr 2
      push_cast
      omega

/-! ## Doubles -/

/-- The text of a number without its sign. -/
def Decoded.body : Decoded → List Char
  | .nan => ['n', 'a', 'n']
  | .infinite _ => ['i', 'n', 'f']
  | .finite b => if b.mantissa == 0 then ['0', '.', '0'] else (shortest b).text layout

theorem toList_written (x : Float) :
    (written x).toList = (if (decode x).negative then ['-'] else []) ++ (decode x).body := by
  unfold written
  cases decode x with
  | nan => rfl
  | infinite s => cases s <;> rfl
  | finite b =>
      rw [String.toList_ofList]
      cases hs : b.negative <;> simp [Decoded.negative, Decoded.body, hs]

/-- Zero is read as zero, and every other number as one that rounds to it. -/
theorem exists_readDecimal?_body {x : Float} {b : Binary} (h : decode x = .finite b) :
    ∃ d, readDecimal? (Decoded.finite b).body = some d ∧
      if b.mantissa = 0 then d.value = 0 else b.Attracts d.value := by
  simp only [Decoded.body, beq_iff_eq]
  split
  · have hread : readDecimal? ['0', '.', '0'] = some ⟨0, -1⟩ := by decide
    exact ⟨_, hread, by simp [Decimal.value]⟩
  · rename_i hzero
    obtain ⟨d, hread, hvalue⟩ := readDecimal?_text layout (shortest b)
    refine ⟨d, hread, ?_⟩
    rw [hvalue]
    exact attracts_shortest (normal_decode h) (Nat.pos_of_ne_zero hzero)

theorem finite_eq_of_body {x y : Float} {b c : Binary} (hx : decode x = .finite b)
    (hy : decode y = .finite c) (hsign : b.negative = c.negative)
    (hbody : (Decoded.finite b).body = (Decoded.finite c).body) : b = c := by
  obtain ⟨d, hd, hb⟩ := exists_readDecimal?_body hx
  obtain ⟨d', hd', hc⟩ := exists_readDecimal?_body hy
  rw [hbody, hd'] at hd
  cases hd
  have hnb := normal_decode hx
  have hnc := normal_decode hy
  have hsame : b.mantissa = c.mantissa ∧ b.exponent = c.exponent := by
    by_cases hb0 : b.mantissa = 0 <;> by_cases hc0 : c.mantissa = 0
    · refine ⟨hb0.trans hc0.symm, ?_⟩
      rw [hnb.full.resolve_right (by omega), hnc.full.resolve_right (by omega)]
    · rw [if_pos hb0] at hb
      rw [if_neg hc0] at hc
      exact absurd hb (hc.pos (Nat.pos_of_ne_zero hc0)).ne'
    · rw [if_neg hb0] at hb
      rw [if_pos hc0] at hc
      exact absurd hc (hb.pos (Nat.pos_of_ne_zero hb0)).ne'
    · rw [if_neg hb0] at hb
      rw [if_neg hc0] at hc
      exact hb.unique hc hnb hnc
  obtain ⟨negative, mantissa, exponent⟩ := b
  obtain ⟨negative', mantissa', exponent'⟩ := c
  simp only at hsign hsame
  rw [hsign, hsame.1, hsame.2]

theorem head?_body (x : Float) : (decode x).body.head? ≠ some '-' := by
  cases hx : decode x with
  | nan | infinite _ => exact fun h => by cases h
  | finite b =>
      obtain ⟨d, hd, -⟩ := exists_readDecimal?_body hx
      intro hhead
      obtain ⟨cs, hcs⟩ := List.head?_eq_some_iff.mp hhead
      rw [hcs] at hd
      cases hd

theorem decode_eq_of_body {x y : Float} (hsign : (decode x).negative = (decode y).negative)
    (hbody : (decode x).body = (decode y).body) : decode x = decode y := by
  cases hx : decode x with
  | nan =>
      cases hy : decode y with
      | nan => rfl
      | infinite _ =>
          rw [hx, hy] at hbody
          cases hbody
      | finite c =>
          obtain ⟨d, hd, -⟩ := exists_readDecimal?_body hy
          rw [← hy, ← hbody, hx] at hd
          cases hd
  | infinite s =>
      cases hy : decode y with
      | nan =>
          rw [hx, hy] at hbody
          cases hbody
      | infinite _ =>
          rw [hx, hy] at hsign
          exact congrArg _ hsign
      | finite c =>
          obtain ⟨d, hd, -⟩ := exists_readDecimal?_body hy
          rw [← hy, ← hbody, hx] at hd
          cases hd
  | finite b =>
      cases hy : decode y with
      | nan | infinite _ =>
          obtain ⟨d, hd, -⟩ := exists_readDecimal?_body hx
          rw [← hx, hbody, hy] at hd
          cases hd
      | finite c =>
          rw [hx, hy] at hsign hbody
          rw [finite_eq_of_body hx hy hsign hbody]

/-- No two doubles have the same text. -/
theorem written_injective : Function.Injective written := by
  intro x y h
  have htext := congrArg String.toList h
  rw [toList_written, toList_written] at htext
  have hx := head?_body x
  have hy := head?_body y
  apply decode_injective
  cases hsx : (decode x).negative <;> cases hsy : (decode y).negative <;>
    simp only [hsx, hsy, Bool.false_eq_true, ite_true, ite_false, List.nil_append, List.cons_append,
      List.cons.injEq, true_and] at htext
  · exact decode_eq_of_body (hsx.trans hsy.symm) htext
  · rw [htext] at hx
    exact absurd rfl hx
  · rw [← htext] at hy
    exact absurd rfl hy
  · exact decode_eq_of_body (hsx.trans hsy.symm) htext

/-! ## Characters -/

/-- The characters that numbers are written with. -/
def isNumberChar (c : Char) : Bool := c.isDigit || ['.', 'e', '+', '-', 'i', 'n', 'f', 'a'].contains c

theorem isNumberChar_of_isDigit {c : Char} (h : c.isDigit = true) : isNumberChar c = true := by
  rw [isNumberChar, h, Bool.true_or]

theorem isNumberChar_toDigits (n : ℕ) : ∀ c ∈ Nat.toDigits 10 n, isNumberChar c = true := fun c hc =>
  isNumberChar_of_isDigit (isDigit_toDigits n c hc)

theorem isNumberChar_zeros (n : ℕ) : ∀ c ∈ List.replicate n '0', isNumberChar c = true := fun c hc =>
  isNumberChar_of_isDigit (isDigit_zeros n c hc)

theorem isNumberChar_exponentText (width : ℕ) (e : ℤ) :
    ∀ c ∈ exponentText width e, isNumberChar c = true := by
  have hsign : isNumberChar (if e < 0 then '-' else '+') = true := by split <;> decide
  unfold exponentText
  simp only [List.cons_append, List.forall_mem_cons, List.forall_mem_append]
  exact ⟨by decide, hsign, isNumberChar_zeros _, isNumberChar_toDigits _⟩

theorem isNumberChar_text (l : Layout) (d : Decimal) : ∀ c ∈ d.text l, isNumberChar c = true := by
  have hdigits := isNumberChar_toDigits d.digits
  have htake (n : ℕ) : ∀ c ∈ (Nat.toDigits 10 d.digits).take n, isNumberChar c = true := fun c hc =>
    hdigits c (List.mem_of_mem_take hc)
  have hdrop (n : ℕ) : ∀ c ∈ (Nat.toDigits 10 d.digits).drop n, isNumberChar c = true := fun c hc =>
    hdigits c (List.mem_of_mem_drop hc)
  have hpoint : isNumberChar '.' = true := by decide
  have hzero : isNumberChar '0' = true := by decide
  unfold Decimal.text
  simp only
  split
  · refine List.forall_mem_append.mpr ⟨List.forall_mem_append.mpr ⟨htake 1, ?_⟩,
      isNumberChar_exponentText _ _⟩
    split
    · exact nofun
    · exact List.forall_mem_cons.mpr ⟨hpoint, hdrop 1⟩
  · split
    · simp only [List.cons_append, List.forall_mem_cons, List.forall_mem_append]
      exact ⟨hzero, hpoint, isNumberChar_zeros _, hdigits⟩
    · simp only [List.forall_mem_cons, List.forall_mem_append]
      refine ⟨⟨htake _, isNumberChar_zeros _⟩, hpoint, ?_⟩
      split
      · exact List.forall_mem_singleton.mpr hzero
      · exact hdrop _

theorem isNumberChar_written (x : Float) : ∀ c ∈ (written x).toList, isNumberChar c = true := by
  rw [toList_written, List.forall_mem_append]
  constructor
  · split
    · exact List.all_eq_true.mp (by decide)
    · exact nofun
  · unfold Decoded.body
    split
    · exact List.all_eq_true.mp (by decide)
    · exact List.all_eq_true.mp (by decide)
    · split
      · exact List.all_eq_true.mp (by decide)
      · exact isNumberChar_text _ _

/-- Zero too is written with a point. -/
theorem written_ne_zero (x : Float) : written x ≠ "0" := by
  intro h
  have htext := congrArg String.toList h
  rw [toList_written] at htext
  have hbody : (decode x).body = ['0'] := by
    split at htext
    · cases htext
    · exact htext
  cases hx : decode x with
  | nan | infinite _ =>
      rw [hx] at hbody
      cases hbody
  | finite b =>
      rw [hx] at hbody
      obtain ⟨d, hd, hvalue⟩ := exists_readDecimal?_body hx
      rw [hbody] at hd
      obtain rfl : d = ⟨0, 0⟩ := by
        cases hd
        rfl
      have hzero : b.mantissa = 0 := by
        by_contra hne
        rw [if_neg hne] at hvalue
        have hpos := hvalue.pos (Nat.pos_of_ne_zero hne)
        simp [Decimal.value] at hpos
      simp [Decoded.body, hzero] at hbody

end Number
end SvgDiagram
