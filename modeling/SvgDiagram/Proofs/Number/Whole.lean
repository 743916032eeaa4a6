import SvgDiagram.Proofs.Number.Positional
import SvgDiagram.Proofs.Number.Reading
import SvgDiagram.Proofs.Number.Rounding

/-!
Whole numbers as doubles. A numeral without a fraction is read as its whole number, and sums of whole numbers
are exact as long as they have at most 53 bits. Main statement: the quotients of two such sums are the same
double only if they are the same rational.
-/

namespace SvgDiagram
namespace Number

open Float.Model (Format UnpackedFloat)
open Float.Model.UnpackedFloat (Sign)

/-! ## The bits of a double -/

/-- The first bit of a mantissa of 53 bits is not stored. -/
theorem toNat_implicit {m : ℕ} (hlow : 2 ^ 52 ≤ m) (hhigh : m < 2 ^ 53) :
    (1#1 ++ BitVec.ofNat 52 m).toNat = m := by
  have hrest : (BitVec.ofNat 52 m).toNat = m - 2 ^ 52 := by
    rw [BitVec.toNat_ofNat]
    omega
  have hone : (1#1).toNat = 1 := rfl
  rw [BitVec.toNat_append, hrest, hone, Nat.shiftLeft_eq, Nat.mul_comm,
    ← Nat.two_pow_add_eq_or_of_lt (by omega)]
  omega

theorem unpack_packComponents (s : Sign) {b m : ℕ} (hb : 0 < b) (hb' : b < 2047)
    (hlow : 2 ^ 52 ≤ m) (hhigh : m < 2 ^ 53) :
    UnpackedFloat.unpack Format.binary64 (UnpackedFloat.packComponents Format.binary64 s
      (BitVec.ofNat 11 b) (BitVec.ofNat 52 m)) = .finite s m (b - 1075) (by omega) := by
  have hbits : (BitVec.ofNat 11 b).toNat = b := Nat.mod_eq_of_lt (by omega)
  -- Exponents of ones and of zeros alone are kept for infinities and for small numbers.
  have hone : BitVec.ofNat 11 b ≠ -1#11 := by
    intro h
    have hnat : b = 2047 := by rw [← hbits, h]; rfl
    omega
  have hzero : BitVec.ofNat 11 b ≠ 0#11 := by
    intro h
    have hnat : b = 0 := by rw [← hbits, h]; rfl
    omega
  simp only [UnpackedFloat.unpack, UnpackedFloat.unpackMantissa_packComponents,
    UnpackedFloat.unpackExponent_packComponents, UnpackedFloat.unpackSign_packComponents,
    Sign.ofBitVec_toBitVec, if_neg hone, if_neg hzero, toNat_implicit hlow hhigh, hbits]
  rfl

/-- Zero, and the numbers between `2 ^ -53` and `2 ^ 53`. -/
def Moderate (x : ℚ) : Prop := x = 0 ∨ 2 ^ (-53 : ℤ) ≤ |x| ∧ |x| < 2 ^ (53 : ℤ)

theorem Nears.unpack_pack {u : UnpackedFloat} {x : ℚ} (h : Nears u x) (hx : Moderate x) :
    (Float.Model.pack u).unpack = u := by
  obtain ⟨rfl, -⟩ | ⟨s, m, e, hm, rfl, hrounds⟩ := h.zero_or_finite
  · rfl
  obtain ⟨hlow, hhigh⟩ := hrounds.normal
  obtain ⟨hleast, hmost⟩ : -105 ≤ e ∧ e < 2 := by
    have hpos := hrounds.pos
    rcases hx with rfl | ⟨hx, hx'⟩
    · simp at hpos
    · rw [← abs_signed s, abs_of_pos hpos] at hx hx'
      exact hrounds.exponent_bounds hx hx'
  obtain ⟨b, rfl⟩ : ∃ b : ℕ, e = b - 1075 := ⟨(e + 1075).toNat, by omega⟩
  have hbias : Format.binary64.exponentBias = 1023 := rfl
  have hbiased : ((b : ℤ) - 1075 + (Format.binary64.exponentBias : ℤ) + (52 : ℕ)).toNat = b := by
    rw [hbias]
    omega
  have hbits : Nat.log2 m + 1 = Format.binary64.mantissaBits := by
    rw [(Nat.log2_eq_iff (by omega)).mpr ⟨hlow, hhigh⟩]
    rfl
  change UnpackedFloat.unpack Format.binary64 (UnpackedFloat.pack Format.binary64 _) = _
  simp only [UnpackedFloat.pack, hbiased, if_pos hbits]
  rw [if_neg (by simp only [Nat.reducePow]; omega)]
  exact unpack_packComponents s (by omega) (by omega) hlow hhigh

theorem Holds.unpack_pack {u : UnpackedFloat} {x : ℚ} (h : Holds u x) (hx : Moderate x) :
    (Float.Model.pack u).unpack = u := by
  rcases h with h | ⟨rfl, -⟩
  · exact h.unpack_pack hx
  · rfl

theorem moderate_intCast {a : ℤ} (ha : |a| < 2 ^ 53) : Moderate a := by
  by_cases hzero : a = 0
  · exact .inl (by exact_mod_cast hzero)
  · have hone : (1 : ℚ) ≤ |(a : ℚ)| := by exact_mod_cast Int.one_le_abs hzero
    refine .inr ⟨le_trans (by norm_num) hone, ?_⟩
    exact_mod_cast ha

theorem moderate_div {a : ℤ} {n : ℕ} (ha : |a| < 2 ^ 53) (hn : 0 < n) (hn' : n < 2 ^ 53) :
    Moderate (a / n) := by
  have hnpos : (0 : ℚ) < n := by exact_mod_cast hn
  by_cases hzero : a = 0
  · exact .inl (by rw [hzero]; simp)
  · have hone : (1 : ℚ) ≤ |(a : ℚ)| := by exact_mod_cast Int.one_le_abs hzero
    have ha' : |(a : ℚ)| < 2 ^ 53 := by exact_mod_cast ha
    have hnone : (1 : ℚ) ≤ n := by exact_mod_cast hn
    have hnlt : (n : ℚ) ≤ 2 ^ 53 := by exact_mod_cast hn'.le
    rw [Moderate, abs_div, abs_of_pos hnpos]
    refine .inr ⟨?_, ?_⟩
    · rw [le_div_iff₀ hnpos]
      calc (2 : ℚ) ^ (-53 : ℤ) * n ≤ 2 ^ (-53 : ℤ) * 2 ^ 53 := by gcongr
        _ = 1 := by norm_num
        _ ≤ |(a : ℚ)| := hone
    · rw [div_lt_iff₀ hnpos]
      calc |(a : ℚ)| < 2 ^ 53 := ha'
        _ = 2 ^ (53 : ℤ) * 1 := by norm_num
        _ ≤ 2 ^ (53 : ℤ) * n := by gcongr

/-! ## Doubles -/

/-- The double nearest to a number. -/
def IsNearest (f : Float) (x : ℚ) : Prop := ∃ u, f = .ofModel (.pack u) ∧ Nears u x

/-- A double with the given value, be it the negative zero. -/
def HasValue (f : Float) (x : ℚ) : Prop := ∃ u, f = .ofModel (.pack u) ∧ Holds u x

theorem IsNearest.hasValue {f : Float} {x : ℚ} (h : IsNearest f x) : HasValue f x := by
  obtain ⟨u, hf, hu⟩ := h
  exact ⟨u, hf, .inl hu⟩

theorem IsNearest.unique {f g : Float} {x : ℚ} (hf : IsNearest f x) (hg : IsNearest g x) : f = g := by
  obtain ⟨u, rfl, hu⟩ := hf
  obtain ⟨v, rfl, hv⟩ := hg
  rw [hu.unique hv]

theorem IsNearest.dist_le {f : Float} {x y : ℚ} (hx : IsNearest f x) (hy : IsNearest f y)
    (hx' : Moderate x) (hy' : Moderate y) : |x - y| ≤ (|x| + |y|) / 2 ^ 53 := by
  obtain ⟨u, rfl, hu⟩ := hx
  obtain ⟨v, huv, hv⟩ := hy
  have hmodel : Float.Model.pack u = Float.Model.pack v := congrArg Float.toModel huv
  obtain rfl : u = v := by rw [← hu.unpack_pack hx', hmodel, hv.unpack_pack hy']
  exact hu.dist_le hv

theorem isNearest_zero : IsNearest 0.0 0 := ⟨.zero .positive, rfl, rfl⟩

theorem HasValue.neg {f : Float} {x : ℚ} (h : IsNearest f x) (hx : Moderate x) :
    HasValue (-f) (-x) := by
  obtain ⟨u, rfl, hu⟩ := h
  refine ⟨u.neg, ?_, hu.neg⟩
  change Float.ofModel (.pack (Float.Model.pack u).unpack.neg) = _
  rw [hu.unpack_pack hx]

theorem IsNearest.add {f g : Float} {a b : ℤ} (hf : IsNearest f a) (hg : HasValue g b)
    (ha : |a| < 2 ^ 53) (hb : |b| < 2 ^ 53) : IsNearest (f + g) (a + b : ℤ) := by
  obtain ⟨u, rfl, hu⟩ := hf
  obtain ⟨v, rfl, hv⟩ := hg
  refine ⟨_, ?_, add_nears hu hv ha hb⟩
  change Float.ofModel (.pack (UnpackedFloat.add Format.binary64 (Float.Model.pack u).unpack
    (Float.Model.pack v).unpack)) = _
  rw [hu.unpack_pack (moderate_intCast ha), hv.unpack_pack (moderate_intCast hb)]

theorem IsNearest.div {f g : Float} {a : ℤ} {n : ℕ} (hf : IsNearest f a) (hg : IsNearest g n)
    (ha : |a| < 2 ^ 53) (hn : 0 < n) (hn' : n < 2 ^ 53) : IsNearest (f / g) (a / n) := by
  obtain ⟨u, rfl, hu⟩ := hf
  obtain ⟨v, rfl, hv⟩ := hg
  refine ⟨_, ?_, div_nears hu hv ha hn hn'⟩
  have hmoderate : Moderate n := moderate_intCast (a := n) (by rw [abs_of_nonneg (by omega)]; omega)
  change Float.ofModel (.pack (UnpackedFloat.div Format.binary64 (Float.Model.pack u).unpack
    (Float.Model.pack v).unpack)) = _
  rw [hu.unpack_pack (moderate_intCast ha), hv.unpack_pack hmoderate]

theorem ofUInt64_isNearest {n : ℕ} (hn : n < 2 ^ 53) : IsNearest n.toUInt64.toFloat n := by
  refine ⟨_, rfl, ?_⟩
  have htoNat : n.toUInt64.toNat = n := by
    rw [Nat.toUInt64, UInt64.toNat_ofNat']
    omega
  simp only [UnpackedFloat.ofUInt64, UnpackedFloat.ofNat, htoNat]
  exact_mod_cast ofInt_nears n

theorem ofScientific_isNearest {n : ℕ} (hn : n < 2 ^ 53) :
    IsNearest (Float.ofScientific n false 0) n := by
  obtain ⟨u, hu, hnears⟩ := ofUInt64_isNearest hn
  have habs : |(n : ℤ)| < 2 ^ 53 := by
    rw [Nat.abs_cast]
    exact_mod_cast hn
  have hnears : Nears u (n : ℤ) := by exact_mod_cast hnears
  have hone : Float.exactlyRepresentablePowersOfTen[0] =
      .ofModel (.pack (.finite .positive (2 ^ 52) (-52) (Nat.two_pow_pos 52))) := by
    decide +kernel
  have hunpack : (Float.Model.pack (.finite .positive (2 ^ 52) (-52) (Nat.two_pow_pos 52))).unpack =
      .finite .positive (2 ^ 52) (-52) (Nat.two_pow_pos 52) := rfl
  -- The number is multiplied by the power of ten, here by one.
  refine ⟨_, ?_, mul_one_nears hnears habs⟩
  rw [Float.ofScientific, dif_pos ⟨hn, by norm_num⟩, hone, hu]
  change Float.ofModel (.pack (UnpackedFloat.mul Format.binary64 (Float.Model.pack u).unpack
    (Float.Model.pack _).unpack)) = _
  rw [hnears.unpack_pack (moderate_intCast habs), hunpack]

theorem decimal_isNearest {n : ℕ} (hn : n < 2 ^ 53) : IsNearest (Decimal.toFloat ⟨n, 0⟩) n := by
  by_cases hzero : n = 0
  · subst hzero
    exact_mod_cast isNearest_zero
  have hcount : digitCount n ≤ 16 := by
    by_contra h
    have hpow : 10 ^ 16 ≤ 10 ^ (digitCount n - 1) := Nat.pow_le_pow_right (by norm_num) (by omega)
    have := pow_digitCount_le (Nat.pos_of_ne_zero hzero)
    omega
  have hleast : leastOrder ≤ (digitCount n : ℤ) := by
    unfold leastOrder
    omega
  have hnonzero : ¬ (n == 0 || (0 : ℤ) + (digitCount n : ℤ) < leastOrder) = true := by
    simp [hzero, hleast]
  have hmost : ¬ greatestOrder < (0 : ℤ) + (digitCount n : ℤ) := by
    unfold greatestOrder
    omega
  have htoFloat : Decimal.toFloat ⟨n, 0⟩ = Float.ofScientific n false 0 :=
    (if_neg hnonzero).trans (if_neg hmost)
  rw [htoFloat]
  exact ofScientific_isNearest hn

theorem div_eq_div_of_dist_lt {a b : ℤ} {n m : ℕ} (hn : 0 < n) (hm : 0 < m)
    (h : |(a : ℚ) / n - b / m| < 1 / (n * m)) : (a : ℚ) / n = b / m := by
  have hnpos : (0 : ℚ) < n := by exact_mod_cast hn
  have hmpos : (0 : ℚ) < m := by exact_mod_cast hm
  have hpos := mul_pos hnpos hmpos
  rw [div_sub_div _ _ hnpos.ne' hmpos.ne', abs_div, abs_of_pos hpos, div_lt_div_iff_of_pos_right hpos] at h
  have hcross : |a * m - n * b| < 1 := by exact_mod_cast h
  have hzero : a * m = n * b := sub_eq_zero.mp (Int.abs_lt_one_iff.mp hcross)
  rw [div_eq_div_iff hnpos.ne' hmpos.ne', mul_comm (b : ℚ)]
  exact_mod_cast hzero

/-- Quotients that differ, differ by more than rounding makes up for. -/
theorem IsNearest.quotient_eq_iff {f g f' g' : Float} {a b : ℤ} {n m : ℕ} (hf : IsNearest f a)
    (hg : IsNearest g n) (hf' : IsNearest f' b) (hg' : IsNearest g' m) (hn : 0 < n) (hm : 0 < m)
    (hsize : |a| * m + |b| * n < 2 ^ 53) (hn' : n < 2 ^ 53) (hm' : m < 2 ^ 53) :
    f / g = f' / g' ↔ (a : ℚ) / n = b / m := by
  have hone : (1 : ℤ) ≤ n := by exact_mod_cast hn
  have hone' : (1 : ℤ) ≤ m := by exact_mod_cast hm
  have ha : |a| < 2 ^ 53 := by nlinarith [abs_nonneg a, abs_nonneg b]
  have hb : |b| < 2 ^ 53 := by nlinarith [abs_nonneg a, abs_nonneg b]
  have hquotient := hf.div hg ha hn hn'
  have hquotient' := hf'.div hg' hb hm hm'
  constructor
  · intro heq
    rw [heq] at hquotient
    have hnpos : (0 : ℚ) < n := by exact_mod_cast hn
    have hmpos : (0 : ℚ) < m := by exact_mod_cast hm
    have hsize' : (|(a : ℚ)| * m + |(b : ℚ)| * n) < 2 ^ 53 := by exact_mod_cast hsize
    -- Different fractions are at least `1 / (n * m)` apart.
    apply div_eq_div_of_dist_lt hn hm
    calc |(a : ℚ) / n - b / m| ≤ (|(a : ℚ) / n| + |(b : ℚ) / m|) / 2 ^ 53 :=
          hquotient.dist_le hquotient' (moderate_div ha hn hn') (moderate_div hb hm hm')
      _ = (|(a : ℚ)| * m + |(b : ℚ)| * n) / 2 ^ 53 * (1 / (n * m)) := by
          rw [abs_div, abs_div, abs_of_pos hnpos, abs_of_pos hmpos]
          field_simp
      _ < 1 * (1 / (n * m)) := by
          have := (div_lt_one (by norm_num)).mpr hsize'
          gcongr
      _ = 1 / (n * m) := one_mul _
  · intro heq
    rw [heq] at hquotient
    exact hquotient.unique hquotient'

/-! ## Numerals without a fraction -/

namespace Numeral

def integer (n : Numeral) : ℤ :=
  if n.sign.getD false then -(ofDigits 10 n.whole : ℤ) else ofDigits 10 n.whole

def number (n : Numeral) : ℚ :=
  (if n.sign.getD false then -1 else 1) *
    (ofDigits 10 (n.whole ++ n.fraction) / 10 ^ n.fraction.length)

theorem number_eq_integer {n : Numeral} (h : n.fraction = []) : n.number = n.integer := by
  simp only [number, integer, h, List.append_nil, List.length_nil, pow_zero, div_one]
  split <;> simp

/-- Up to 53 bits a numeral without a fraction is read exactly. -/
theorem hasValue {n : Numeral} (h : n.fraction = []) (hn : |n.integer| < 2 ^ 53) :
    HasValue n.value n.integer := by
  have hsize : |(ofDigits 10 n.whole : ℤ)| < 2 ^ 53 := by
    unfold integer at hn
    split at hn
    · rwa [abs_neg] at hn
    · exact hn
  have hdigits : IsNearest n.toDigits.value (ofDigits 10 n.whole) := by
    have hvalue : n.toDigits.value = Decimal.toFloat ⟨ofDigits 10 n.whole, 0⟩ := by
      simp only [Digits.value, h, List.append_nil, List.length_nil]
      rfl
    rw [hvalue]
    rw [Nat.abs_cast] at hsize
    exact decimal_isNearest (by exact_mod_cast hsize)
  unfold Numeral.value integer
  split
  · push_cast
    exact .neg hdigits (moderate_intCast hsize)
  · exact_mod_cast hdigits.hasValue

end Numeral

structure Whole extends Numeral where
  fraction_eq : fraction = []

theorem ofDigits_toDigits (n : ℕ) : ofDigits 10 (Nat.toDigits 10 n) = n := by
  have hstep : ∀ m : ℕ, ∀ c ∈ Nat.toDigits 10 n,
      m * 10 + (Text.digitValue? c).getD 0 = 10 * m + (c.toNat - '0'.toNat) := by
    intro m c hc
    have hdigit : c.isDigit = true := Nat.isDigit_of_mem_toDigits (by decide) (by decide) hc
    rw [Text.digitValue?_of_ascii hdigit, Nat.mul_comm]
    rfl
  have hchars : ofDigits 10 (Nat.toDigits 10 n) = Nat.ofDigitChars 10 (Nat.toDigits 10 n) 0 := by
    rw [ofDigits, Nat.ofDigitChars_eq_foldl]
    exact List.foldl_ext _ _ _ hstep
  rw [hchars, Nat.ofDigitChars_ten_toDigits]

namespace Whole

/-- An integer in ASCII digits. -/
def ofInt (z : ℤ) : Whole where
  whole := Nat.toDigits 10 z.natAbs
  fraction := []
  isDigit c hc := by
    rw [List.append_nil] at hc
    exact Text.isDigit_of_ascii (Nat.isDigit_of_mem_toDigits (by decide) (by decide) hc)
  nonempty := by simp [Nat.toDigits_ne_nil]
  sign := if z < 0 then some true else none
  fraction_eq := rfl

theorem integer_ofInt (z : ℤ) : (ofInt z).integer = z := by
  have hsize : ofDigits 10 (ofInt z).whole = z.natAbs := ofDigits_toDigits z.natAbs
  rw [Numeral.integer, hsize]
  by_cases hz : z < 0
  · have hsign : (ofInt z).sign = some true := if_pos hz
    rw [hsign, Option.getD_some, if_pos rfl]
    omega
  · have hsign : (ofInt z).sign = none := if_neg hz
    rw [hsign, Option.getD_none, if_neg Bool.false_ne_true]
    omega

end Whole

/-- A numeral with a power of ten behind it, or none. -/
structure Scientific where
  mantissa : Numeral
  /-- Whether the letter is the upper one, and the power. -/
  exponent : Option (Bool × Whole)

namespace Scientific

def text (s : Scientific) : List Char :=
  s.mantissa.text ++ match s.exponent with
    | none => []
    | some (upper, w) => (if upper then 'E' else 'e') :: w.text

/-- The numerals that the reader finds. -/
def numerals (s : Scientific) : List Numeral :=
  s.mantissa :: match s.exponent with
    | none => []
    | some (_, w) => [w.toNumeral]

def number (s : Scientific) : ℚ :=
  s.mantissa.number * match s.exponent with
    | none => 1
    | some (_, w) => 10 ^ w.integer

theorem number_eq_integer {s : Scientific} (hplain : s.exponent = none)
    (hwhole : s.mantissa.fraction = []) : s.number = s.mantissa.integer := by
  simp only [number, hplain, mul_one, Numeral.number_eq_integer hwhole]

end Scientific

end Number
end SvgDiagram
