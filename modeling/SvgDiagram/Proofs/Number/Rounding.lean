import Mathlib

/-!
Which double an exact result becomes. A positive rational is rounded to a mantissa of 53 bits, to the even
one of two that are equally near; a carry makes the mantissa a bit longer and is shifted out again. Main
statements: sums and quotients of doubles are the exact results rounded once.
-/

namespace SvgDiagram
namespace Number

open Float.Model (Format UnpackedFloat totalExponent)
open Float.Model.UnpackedFloat (Sign Accuracy ExtendedMantissa)

/-- `k` is the whole number nearest to `y`, and the even one of two. -/
def Nearest (y : ℚ) (k : ℕ) : Prop := |y - k| < 1 / 2 ∨ |y - k| = 1 / 2 ∧ k % 2 = 0

theorem Nearest.le {y : ℚ} {k : ℕ} (h : Nearest y k) : |y - k| ≤ 1 / 2 :=
  h.elim le_of_lt fun h => h.1.le

theorem nearest_natCast (k : ℕ) : Nearest k k := .inl (by norm_num)

theorem Nearest.unique {y : ℚ} {k l : ℕ} (hk : Nearest y k) (hl : Nearest y l) : k = l := by
  by_contra hne
  have hkl : (1 : ℚ) ≤ |(k : ℚ) - l| := by
    have h : (1 : ℤ) ≤ |(k : ℤ) - l| := Int.one_le_abs (by omega)
    exact_mod_cast h
  have htri : |(k : ℚ) - l| ≤ |y - k| + |y - l| := by
    have := abs_sub_le (k : ℚ) y l
    rwa [abs_sub_comm (k : ℚ) y] at this
  unfold Nearest at hk hl
  rcases hk with hk | ⟨hk, hke⟩ <;> rcases hl with hl | ⟨hl, hle⟩
  · linarith
  · linarith
  · linarith
  · -- Two neighbours at the same distance are not both even.
    have hone : |(k : ℚ) - l| = 1 := le_antisymm (by linarith) hkl
    have hone : |(k : ℤ) - l| = 1 := by exact_mod_cast hone
    rcases (abs_eq (by norm_num)).mp hone with h | h <;> omega

/-! ## The bits behind the mantissa -/

/-- What a mantissa and the two bits behind it tell of a number. -/
def Describes (em : ExtendedMantissa) (y : ℚ) : Prop :=
  match em.roundBit, em.stickyBit with
  | false, false => y = em.mantissa
  | false, true => em.mantissa < y ∧ y < em.mantissa + 1 / 2
  | true, false => y = em.mantissa + 1 / 2
  | true, true => em.mantissa + 1 / 2 < y ∧ y < em.mantissa + 1

theorem Describes.bounds {em : ExtendedMantissa} {y : ℚ} (h : Describes em y) :
    em.mantissa ≤ y ∧ y < em.mantissa + 1 := by
  obtain ⟨m, r, s⟩ := em
  cases r <;> cases s <;> simp only [Describes] at h ⊢ <;> constructor <;> linarith

theorem Describes.nearest {em : ExtendedMantissa} {y : ℚ} (h : Describes em y) :
    Nearest y em.roundedMantissa := by
  obtain ⟨m, r, s⟩ := em
  cases r <;> cases s
  · obtain rfl : y = m := h
    exact nearest_natCast m
  · obtain ⟨hlow, hhigh⟩ : (m : ℚ) < y ∧ y < m + 1 / 2 := h
    have hrounded : ExtendedMantissa.roundedMantissa ⟨m, false, true⟩ = m := rfl
    rw [hrounded]
    exact .inl (abs_lt.mpr ⟨by linarith, by linarith⟩)
  · obtain rfl : y = m + 1 / 2 := h
    have hrounded : ExtendedMantissa.roundedMantissa ⟨m, true, false⟩ = m + m % 2 := rfl
    rw [hrounded]
    refine .inr ⟨?_, by omega⟩
    rcases Nat.mod_two_eq_zero_or_one m with hm | hm
    · rw [hm]
      norm_num
    · rw [hm]
      push_cast
      rw [abs_of_neg (by linarith)]
      linarith
  · obtain ⟨hlow, hhigh⟩ : (m : ℚ) + 1 / 2 < y ∧ y < m + 1 := h
    have hrounded : ExtendedMantissa.roundedMantissa ⟨m, true, true⟩ = m + 1 := rfl
    rw [hrounded, Nearest, Nat.cast_add, Nat.cast_one]
    exact .inl (abs_lt.mpr ⟨by linarith, by linarith⟩)

theorem Describes.shiftRightOne {em : ExtendedMantissa} {y : ℚ} (h : Describes em y) :
    Describes em.shiftRightOne (y / 2) := by
  obtain ⟨m, r, s⟩ := em
  -- The last bit of the mantissa becomes the first one behind it, and the bits that were there stick together.
  have hm : (m : ℚ) = 2 * (m / 2 : ℕ) + (m % 2 : ℕ) := by exact_mod_cast (Nat.div_add_mod m 2).symm
  rcases Nat.mod_two_eq_zero_or_one m with hbit | hbit <;> rw [hbit] at hm <;>
    cases r <;> cases s <;>
    simp only [Describes, ExtendedMantissa.shiftRightOne, hbit] at h ⊢ <;>
    norm_num at h hm ⊢ <;> grind

theorem Describes.shiftRight {em : ExtendedMantissa} {y : ℚ} (h : Describes em y) (n : ℕ) :
    Describes (em >>> n) (y / 2 ^ n) := by
  change Describes (n.repeat ExtendedMantissa.shiftRightOne em) _
  induction n with
  | zero => simpa [Nat.repeat] using h
  | succ n ih =>
      rw [Nat.repeat, pow_succ, ← div_div]
      exact ih.shiftRightOne

theorem describes_div (m : ℕ) {d : ℕ} (hd : 0 < d) :
    Describes (.ofMantissaAndAccuracy (m / d) (UnpackedFloat.accuracyOfFraction (m % d) d))
      ((m : ℚ) / d) := by
  have hdq : (0 : ℚ) < d := by exact_mod_cast hd
  have hm : (m : ℚ) / d = (m / d : ℕ) + (m % d : ℕ) / d := by
    rw [div_eq_iff hdq.ne', add_mul, div_mul_cancel₀ _ hdq.ne']
    exact_mod_cast (Nat.div_add_mod' m d).symm
  rw [hm]
  unfold UnpackedFloat.accuracyOfFraction
  split
  · rename_i hzero
    simp [Describes, ExtendedMantissa.ofMantissaAndAccuracy, hzero]
  · rename_i hzero
    have hpos : (0 : ℚ) < (m % d : ℕ) / d :=
      div_pos (by exact_mod_cast Nat.pos_of_ne_zero hzero) hdq
    have hone : ((m % d : ℕ) : ℚ) / d < 1 :=
      (div_lt_one hdq).mpr (by exact_mod_cast Nat.mod_lt m hd)
    cases hc : compare (2 * (m % d)) d with
    | lt =>
        have h : (2 : ℚ) * (m % d : ℕ) < d := by exact_mod_cast Nat.compare_eq_lt.mp hc
        have hhalf : ((m % d : ℕ) : ℚ) / d < 1 / 2 := (div_lt_iff₀ hdq).mpr (by linarith)
        simp only [Describes, ExtendedMantissa.ofMantissaAndAccuracy]
        constructor <;> linarith
    | eq =>
        have h : (2 : ℚ) * (m % d : ℕ) = d := by exact_mod_cast Nat.compare_eq_eq.mp hc
        have hhalf : ((m % d : ℕ) : ℚ) / d = 1 / 2 := (div_eq_iff hdq.ne').mpr (by linarith)
        simp only [Describes, ExtendedMantissa.ofMantissaAndAccuracy, hhalf]
    | gt =>
        have h : (d : ℚ) < 2 * (m % d : ℕ) := by exact_mod_cast Nat.compare_eq_gt.mp hc
        have hhalf : 1 / 2 < ((m % d : ℕ) : ℚ) / d := (lt_div_iff₀ hdq).mpr (by linarith)
        simp only [Describes, ExtendedMantissa.ofMantissaAndAccuracy]
        constructor <;> linarith

/-! ## Mantissas of 53 bits -/

/-- `m * 2 ^ e` is the positive double nearest to `x`: the mantissa `n` at the exponent `k` of `x`, or half of
it at the next exponent when it has become one bit too long. -/
def Rounds (x : ℚ) (m : ℕ) (e : ℤ) : Prop :=
  ∃ (n : ℕ) (k : ℤ), 2 ^ 52 * (2 : ℚ) ^ k ≤ x ∧ x < 2 ^ 53 * (2 : ℚ) ^ k ∧ Nearest (x / 2 ^ k) n ∧
    (n < 2 ^ 53 ∧ m = n ∧ e = k ∨ n = 2 ^ 53 ∧ m = 2 ^ 52 ∧ e = k + 1)

theorem two_zpow_mul (n : ℕ) (k : ℤ) : (2 : ℚ) ^ n * 2 ^ k = 2 ^ (n + k) := by
  rw [zpow_add₀ (by norm_num), zpow_natCast]

theorem nearest_bounds {x : ℚ} {n : ℕ} {k : ℤ} (hlow : 2 ^ 52 * (2 : ℚ) ^ k ≤ x)
    (hhigh : x < 2 ^ 53 * (2 : ℚ) ^ k) (h : Nearest (x / 2 ^ k) n) : 2 ^ 52 ≤ n ∧ n ≤ 2 ^ 53 := by
  have hk : (0 : ℚ) < 2 ^ k := by positivity
  have h52 : (2 : ℚ) ^ 52 ≤ x / 2 ^ k := (le_div_iff₀ hk).mpr hlow
  have h53 : x / 2 ^ k < (2 : ℚ) ^ 53 := (div_lt_iff₀ hk).mpr hhigh
  obtain ⟨hleast, hmost⟩ := abs_le.mp h.le
  constructor
  · have : 2 ^ 52 < n + 1 := by exact_mod_cast (show (2 : ℚ) ^ 52 < n + 1 by linarith)
    omega
  · have : n < 2 ^ 53 + 1 := by exact_mod_cast (show (n : ℚ) < 2 ^ 53 + 1 by linarith)
    omega

namespace Rounds

theorem pos {x : ℚ} {m : ℕ} {e : ℤ} (h : Rounds x m e) : 0 < x := by
  obtain ⟨n, k, hlow, -⟩ := h
  exact lt_of_lt_of_le (by positivity) hlow

theorem normal {x : ℚ} {m : ℕ} {e : ℤ} (h : Rounds x m e) : 2 ^ 52 ≤ m ∧ m < 2 ^ 53 := by
  obtain ⟨n, k, hlow, hhigh, hn, hcarry⟩ := h
  have := nearest_bounds hlow hhigh hn
  omega

theorem exponent_bounds {x : ℚ} {m : ℕ} {e i j : ℤ} (h : Rounds x m e) (hi : 2 ^ i ≤ x)
    (hj : x < 2 ^ j) : i - 52 ≤ e ∧ e < j - 51 := by
  obtain ⟨n, k, hlow, hhigh, -, hcarry⟩ := h
  rw [two_zpow_mul] at hlow hhigh
  have hlt : i < 53 + k := by
    have := lt_of_le_of_lt hi hhigh
    exact_mod_cast (zpow_lt_zpow_iff_right₀ (by norm_num)).mp this
  have hlt' : 52 + k < j := by
    have := lt_of_le_of_lt hlow hj
    exact_mod_cast (zpow_lt_zpow_iff_right₀ (by norm_num)).mp this
  omega

theorem unique {x : ℚ} {m m' : ℕ} {e e' : ℤ} (h : Rounds x m e) (h' : Rounds x m' e') :
    m = m' ∧ e = e' := by
  obtain ⟨n, k, hlow, hhigh, hn, hcarry⟩ := h
  obtain ⟨n', k', hlow', hhigh', hn', hcarry'⟩ := h'
  have hle {k k' : ℤ} (hlow : 2 ^ 52 * (2 : ℚ) ^ k ≤ x) (hhigh : x < 2 ^ 53 * (2 : ℚ) ^ k') :
      k ≤ k' := by
    rw [two_zpow_mul] at hlow hhigh
    have := (zpow_lt_zpow_iff_right₀ (by norm_num)).mp (lt_of_le_of_lt hlow hhigh)
    omega
  obtain rfl : k = k' := le_antisymm (hle hlow hhigh') (hle hlow' hhigh)
  obtain rfl := hn.unique hn'
  omega

/-- Rounding changes a number by half a unit in the last place at most. -/
theorem error {x : ℚ} {m : ℕ} {e : ℤ} (h : Rounds x m e) : |x - m * 2 ^ e| ≤ x / 2 ^ 53 := by
  obtain ⟨n, k, hlow, hhigh, hn, hcarry⟩ := h
  have hk : (0 : ℚ) < 2 ^ k := by positivity
  have hvalue : (m : ℚ) * 2 ^ e = n * 2 ^ k := by
    rcases hcarry with ⟨-, rfl, rfl⟩ | ⟨rfl, rfl, rfl⟩
    · rfl
    · rw [zpow_add₀ (by norm_num)]
      push_cast
      ring
  have hscaled : |x - n * 2 ^ k| = |x / 2 ^ k - n| * 2 ^ k := by
    rw [← abs_of_pos hk, ← abs_mul, abs_of_pos hk, sub_mul, div_mul_cancel₀ _ hk.ne']
  rw [hvalue, hscaled]
  calc |x / 2 ^ k - n| * 2 ^ k ≤ 1 / 2 * 2 ^ k := by
        gcongr
        exact hn.le
    _ ≤ x / 2 ^ 53 := by
        rw [le_div_iff₀ (by norm_num)]
        linarith

/-- A whole number of at most 53 bits is not changed. -/
theorem natCast {a m : ℕ} {e : ℤ} (h : Rounds a m e) (ha : a < 2 ^ 53) :
    (m : ℚ) * 2 ^ e = a ∧ -52 ≤ e ∧ e ≤ 0 := by
  have hpos : 1 ≤ a := by exact_mod_cast h.pos
  obtain ⟨n, k, hlow, hhigh, hn, hcarry⟩ := h
  have hk : k ≤ 0 := by
    have ha : (a : ℚ) < 2 ^ ((53 : ℕ) : ℤ) := by exact_mod_cast ha
    rw [two_zpow_mul] at hlow
    have := (zpow_lt_zpow_iff_right₀ (by norm_num)).mp (lt_of_le_of_lt hlow ha)
    omega
  have hk' : -52 ≤ k := by
    have hone : (2 : ℚ) ^ (0 : ℤ) ≤ a := by exact_mod_cast hpos
    rw [two_zpow_mul] at hhigh
    have := (zpow_lt_zpow_iff_right₀ (by norm_num)).mp (lt_of_le_of_lt hone hhigh)
    omega
  -- The unit is a power of two that divides the number.
  obtain ⟨j, rfl⟩ := Int.exists_eq_neg_ofNat hk
  have hscaled : (a : ℚ) / 2 ^ (-(j : ℤ)) = (a * 2 ^ j : ℕ) := by
    rw [zpow_neg, div_inv_eq_mul, zpow_natCast]
    push_cast
    rfl
  rw [hscaled] at hn
  obtain rfl := hn.unique (nearest_natCast _)
  have hlt : a * 2 ^ j < 2 ^ 53 := by
    have := (div_lt_iff₀ (by positivity)).mpr hhigh
    rw [hscaled] at this
    exact_mod_cast this
  obtain ⟨rfl, rfl⟩ : m = a * 2 ^ j ∧ e = -(j : ℤ) := by omega
  refine ⟨?_, hk', hk⟩
  rw [← hscaled, div_mul_cancel₀]
  positivity

end Rounds

theorem targetExponent_eq {q j : ℕ} {t : ℤ} (hq : q.log2 = 52 + j) (ht : -1074 ≤ t) :
    Format.binary64.targetExponent (totalExponent q t) = t + j := by
  have hmin : Format.binary64.minExponent = -1074 := rfl
  have hbits : Format.binary64.mantissaBits = 53 := rfl
  rw [Format.targetExponent, totalExponent, hmin, hbits, hq]
  omega

theorem shiftToTargetExponent_eq {q j : ℕ} {t : ℤ} (acc : Accuracy) (hq : q.log2 = 52 + j)
    (ht : -1074 ≤ t) :
    UnpackedFloat.shiftToTargetExponent Format.binary64 q t acc =
      (ExtendedMantissa.ofMantissaAndAccuracy q acc >>> j, t + j) := by
  have hshift : (t + j - t).toNat = j := by omega
  rw [UnpackedFloat.shiftToTargetExponent, targetExponent_eq hq ht, UnpackedFloat.shiftToExponent,
    hshift]

/-- A mantissa with at least 53 bits is cut to 53 of them and rounded. -/
theorem roundWithAccuracy_rounds (s : Sign) {q : ℕ} {t : ℤ} {acc : Accuracy} {x : ℚ}
    (hx : Describes (.ofMantissaAndAccuracy q acc) (x / 2 ^ t)) (hq : 2 ^ 52 ≤ q) (ht : -1074 ≤ t) :
    ∃ m e hm, UnpackedFloat.roundWithAccuracy Format.binary64 s q t acc = .finite s m e hm ∧
      Rounds x m e := by
  obtain ⟨j, hj⟩ : ∃ j, q.log2 = 52 + j :=
    Nat.exists_eq_add_of_le ((Nat.le_log2 (by omega)).mpr hq)
  obtain ⟨hleast, hmost⟩ := (Nat.log2_eq_iff (by omega)).mp hj
  have ht2 : (0 : ℚ) < 2 ^ t := by positivity
  have hpow : (2 : ℚ) ^ (t + j) = 2 ^ t * 2 ^ j := by rw [zpow_add₀ (by norm_num), zpow_natCast]
  have hmantissa : (ExtendedMantissa.ofMantissaAndAccuracy q acc).mantissa = q := by
    rcases acc with _ | _ | _ | _ <;> rfl
  obtain ⟨hlow, hhigh⟩ := hx.bounds
  rw [hmantissa] at hlow hhigh
  have hlow' : 2 ^ 52 * (2 : ℚ) ^ (t + j) ≤ x := by
    have hq' : (2 : ℚ) ^ (52 + j) ≤ q := by exact_mod_cast hleast
    calc (2 : ℚ) ^ 52 * 2 ^ (t + j) = 2 ^ (52 + j) * 2 ^ t := by rw [hpow]; ring
      _ ≤ x := (le_div_iff₀ ht2).mp (le_trans hq' hlow)
  have hhigh' : x < 2 ^ 53 * (2 : ℚ) ^ (t + j) := by
    have hq' : (q : ℚ) + 1 ≤ 2 ^ (52 + j + 1) := by exact_mod_cast hmost
    calc x < 2 ^ (52 + j + 1) * 2 ^ t := (div_lt_iff₀ ht2).mp (lt_of_lt_of_le hhigh hq')
      _ = 2 ^ 53 * 2 ^ (t + j) := by rw [hpow]; ring
  have hnearest : Nearest (x / 2 ^ (t + j))
      (ExtendedMantissa.ofMantissaAndAccuracy q acc >>> j).roundedMantissa := by
    rw [hpow, ← div_div]
    exact (hx.shiftRight j).nearest
  generalize hn : (ExtendedMantissa.ofMantissaAndAccuracy q acc >>> j).roundedMantissa = n at hnearest
  obtain ⟨hnlow, hnhigh⟩ := nearest_bounds hlow' hhigh' hnearest
  -- A carry makes the mantissa one bit longer, and that bit is taken off again.
  rcases hnhigh.lt_or_eq with hlt | rfl
  · have hlog : n.log2 = 52 + 0 := (Nat.log2_eq_iff (by omega)).mpr ⟨hnlow, hlt⟩
    refine ⟨n, t + j, by omega, ?_, n, t + j, hlow', hhigh', hnearest, .inl ⟨hlt, rfl, rfl⟩⟩
    have hmantissa : (ExtendedMantissa.ofMantissaAndAccuracy n .exact >>> 0).mantissa = n := rfl
    simp only [UnpackedFloat.roundWithAccuracy, shiftToTargetExponent_eq acc hj ht, hn,
      shiftToTargetExponent_eq .exact hlog (show -1074 ≤ t + j by omega), hmantissa]
    rw [dif_neg (by omega)]
    simp
  · have hlog : (2 ^ 53).log2 = 52 + 1 := Nat.log2_two_pow
    refine ⟨2 ^ 52, t + j + 1, by omega, ?_, 2 ^ 53, t + j, hlow', hhigh', hnearest,
      .inr ⟨rfl, rfl, rfl⟩⟩
    have hmantissa : (ExtendedMantissa.ofMantissaAndAccuracy (2 ^ 53) .exact >>> 1).mantissa = 2 ^ 52 := rfl
    simp only [UnpackedFloat.roundWithAccuracy, shiftToTargetExponent_eq acc hj ht, hn,
      shiftToTargetExponent_eq .exact hlog (show -1074 ≤ t + j by omega), hmantissa]
    rw [dif_neg (by omega)]
    simp

theorem describes_exact (q : ℕ) : Describes (.ofMantissaAndAccuracy q .exact) q := rfl

theorem round_rounds (s : Sign) {m : ℕ} {e : ℤ} (hm : 0 < m) (he : -1022 ≤ e) :
    ∃ m' e' hm', UnpackedFloat.round Format.binary64 s m e = .finite s m' e' hm' ∧
      Rounds (m * 2 ^ e) m' e' := by
  have hlog : 2 ^ m.log2 ≤ m := Nat.log2_self_le (by omega)
  have hshift : (e - Format.binary64.targetExponent (totalExponent m e)).toNat = 52 - m.log2 := by
    have hmin : Format.binary64.minExponent = -1074 := rfl
    have hbits : Format.binary64.mantissaBits = 53 := rfl
    rw [Format.targetExponent, totalExponent, hmin, hbits]
    omega
  have hround : UnpackedFloat.round Format.binary64 s m e =
      UnpackedFloat.roundWithAccuracy Format.binary64 s (m * 2 ^ (52 - m.log2))
        (e - (52 - m.log2 : ℕ)) .exact := by
    rw [UnpackedFloat.round, UnpackedFloat.decreaseExponent, hshift, Nat.shiftLeft_eq]
  have hscaled : ((m : ℚ) * 2 ^ e) / 2 ^ (e - (52 - m.log2 : ℕ)) = (m * 2 ^ (52 - m.log2) : ℕ) := by
    rw [zpow_sub₀ (by norm_num), zpow_natCast]
    push_cast
    field_simp
  rw [hround]
  apply roundWithAccuracy_rounds
  · rw [hscaled]
    exact describes_exact _
  · calc 2 ^ 52 ≤ 2 ^ (m.log2 + (52 - m.log2)) := Nat.pow_le_pow_right (by norm_num) (by omega)
      _ = 2 ^ m.log2 * 2 ^ (52 - m.log2) := pow_add ..
      _ ≤ m * 2 ^ (52 - m.log2) := Nat.mul_le_mul_right _ hlog
  · omega

/-! ## Signed results -/

def signed : Sign → ℚ → ℚ
  | .positive, x => x
  | .negative, x => -x

theorem signed_apply (s : Sign) (m : ℕ) (y : ℚ) : (s.apply m : ℤ) * y = signed s (m * y) := by
  cases s <;> simp [Sign.apply, signed]

theorem signed_signed (s : Sign) (x : ℚ) : signed s (signed s x) = x := by
  cases s <;> simp [signed]

@[simp]
theorem signed_zero (s : Sign) : signed s 0 = 0 := by
  cases s <;> simp [signed]

theorem abs_signed (s : Sign) (x : ℚ) : |signed s x| = |x| := by
  cases s <;> simp [signed]

/-- A double is the one nearest to `x`; nothing becomes a zero but zero, and that is the positive one. -/
def Nears : UnpackedFloat → ℚ → Prop
  | .zero .positive, x => x = 0
  | .finite s m e _, x => Rounds (signed s x) m e
  | _, _ => False

namespace Nears

theorem zero_or_finite {u : UnpackedFloat} {x : ℚ} (h : Nears u x) :
    u = .zero .positive ∧ x = 0 ∨
      ∃ s m e hm, u = .finite s m e hm ∧ Rounds (signed s x) m e := by
  cases u with
  | infinity s => exact h.elim
  | notANumber => exact h.elim
  | zero s =>
      cases s with
      | negative => exact h.elim
      | positive => exact .inl ⟨rfl, h⟩
  | finite s m e hm => exact .inr ⟨s, m, e, hm, rfl, h⟩

theorem unique {u v : UnpackedFloat} {x : ℚ} (hu : Nears u x) (hv : Nears v x) : u = v := by
  obtain ⟨rfl, hx⟩ | ⟨s, m, e, hm, rfl, hrounds⟩ := hu.zero_or_finite <;>
    obtain ⟨rfl, hx'⟩ | ⟨s', m', e', hm', rfl, hrounds'⟩ := hv.zero_or_finite
  · rfl
  · have hpos := hrounds'.pos
    rw [hx, signed_zero] at hpos
    exact absurd hpos (lt_irrefl 0)
  · have hpos := hrounds.pos
    rw [hx', signed_zero] at hpos
    exact absurd hpos (lt_irrefl 0)
  · obtain rfl : s = s' := by
      have hpos := hrounds.pos
      have hpos' := hrounds'.pos
      cases s <;> cases s' <;> simp only [signed] at hpos hpos' <;> first | rfl | linarith
    obtain ⟨rfl, rfl⟩ := hrounds.unique hrounds'
    rfl

/-- Numbers with the same nearest double are close to each other. -/
theorem dist_le {u : UnpackedFloat} {x y : ℚ} (hx : Nears u x) (hy : Nears u y) :
    |x - y| ≤ (|x| + |y|) / 2 ^ 53 := by
  obtain ⟨rfl, rfl⟩ | ⟨s, m, e, hm, rfl, hroundsx⟩ := hx.zero_or_finite
  · obtain rfl : y = 0 := hy
    simp
  · have hroundsy : Rounds (signed s y) m e := hy
    have hsub : signed s x - signed s y = signed s (x - y) := by
      cases s
      · simp only [signed]
        ring
      · rfl
    have hx' : |signed s x - m * 2 ^ e| ≤ |x| / 2 ^ 53 := by
      rw [← abs_signed s x, abs_of_pos hroundsx.pos]
      exact hroundsx.error
    have hy' : |signed s y - m * 2 ^ e| ≤ |y| / 2 ^ 53 := by
      rw [← abs_signed s y, abs_of_pos hroundsy.pos]
      exact hroundsy.error
    calc |x - y| = |signed s x - signed s y| := by rw [hsub, abs_signed]
      _ ≤ |signed s x - m * 2 ^ e| + |m * 2 ^ e - signed s y| := abs_sub_le ..
      _ ≤ |x| / 2 ^ 53 + |y| / 2 ^ 53 := by
          rw [abs_sub_comm _ (signed s y)]
          exact add_le_add hx' hy'
      _ = (|x| + |y|) / 2 ^ 53 := by ring

end Nears

theorem normalize_nears (m : ℤ) {e : ℤ} (he : -1022 ≤ e) :
    Nears (UnpackedFloat.normalize Format.binary64 m e .positive) (m * 2 ^ e) := by
  unfold UnpackedFloat.normalize
  cases hm : compare m 0 with
  | lt =>
      have hneg := Int.compare_eq_lt.mp hm
      obtain ⟨m', e', hm', hround, hrounds⟩ :=
        round_rounds .negative (m := (-m).toNat) (by omega) he
      have hcast : (((-m).toNat : ℕ) : ℚ) = -m := by
        exact_mod_cast (show (((-m).toNat : ℕ) : ℤ) = -m by omega)
      simp only [hround]
      rwa [hcast, neg_mul] at hrounds
  | eq =>
      obtain rfl : m = 0 := Int.compare_eq_eq.mp hm
      simp [Nears]
  | gt =>
      have hpos := Int.compare_eq_gt.mp hm
      obtain ⟨m', e', hm', hround, hrounds⟩ :=
        round_rounds .positive (m := m.toNat) (by omega) he
      have hcast : ((m.toNat : ℕ) : ℚ) = m := by
        exact_mod_cast (show ((m.toNat : ℕ) : ℤ) = m by omega)
      simp only [hround]
      rwa [hcast] at hrounds

theorem ofInt_nears (a : ℤ) : Nears (UnpackedFloat.ofInt Format.binary64 a) a := by
  simpa [UnpackedFloat.ofInt] using normalize_nears a (e := 0) (by norm_num)

/-- A whole number of at most 53 bits is held exactly. -/
theorem Nears.intCast {u : UnpackedFloat} {a : ℤ} (h : Nears u a) (ha : |a| < 2 ^ 53) :
    u = .zero .positive ∧ a = 0 ∨ ∃ s m e hm, u = .finite s m e hm ∧ 2 ^ 52 ≤ m ∧ m < 2 ^ 53 ∧
      -52 ≤ e ∧ e ≤ 0 ∧ (a : ℚ) = (s.apply m : ℤ) * 2 ^ e := by
  obtain ⟨rfl, hzero⟩ | ⟨s, m, e, hm, rfl, hrounds⟩ := h.zero_or_finite
  · exact .inl ⟨rfl, by exact_mod_cast hzero⟩
  · have hcast : signed s a = (a.natAbs : ℕ) := by
      rw [← abs_of_pos hrounds.pos, abs_signed, Nat.cast_natAbs, Int.cast_abs]
    have hnormal := hrounds.normal
    rw [hcast] at hrounds
    rw [Int.abs_eq_natAbs] at ha
    obtain ⟨hvalue, hleast, hmost⟩ := hrounds.natCast (by omega)
    refine .inr ⟨s, m, e, hm, rfl, hnormal.1, hnormal.2, hleast, hmost, ?_⟩
    rw [signed_apply, hvalue, ← hcast, signed_signed]

theorem decreaseExponent_value (s : Sign) (m : ℕ) {e t : ℤ} (h : t ≤ e) :
    ((s.apply (UnpackedFloat.decreaseExponent m e t).1 : ℤ) : ℚ) * 2 ^ t = (s.apply m : ℤ) * 2 ^ e := by
  obtain ⟨j, rfl⟩ : ∃ j : ℕ, e = t + j := ⟨(e - t).toNat, by omega⟩
  have hshift : (t + j - t).toNat = j := by omega
  rw [signed_apply, signed_apply, UnpackedFloat.decreaseExponent, hshift, Nat.shiftLeft_eq,
    zpow_add₀ (by norm_num), zpow_natCast]
  push_cast
  congr 1
  ring

/-- A double that holds `x`, be it as the negative zero. -/
def Holds (u : UnpackedFloat) (x : ℚ) : Prop := Nears u x ∨ u = .zero .negative ∧ x = 0

theorem Nears.neg {u : UnpackedFloat} {x : ℚ} (h : Nears u x) : Holds u.neg (-x) := by
  obtain ⟨rfl, rfl⟩ | ⟨s, m, e, hm, rfl, hrounds⟩ := h.zero_or_finite
  · exact .inr ⟨rfl, neg_zero⟩
  · left
    cases s with
    | positive =>
        change Rounds (-(-x)) m e
        rwa [neg_neg]
    | negative => exact hrounds

/-- A sum of whole numbers is rounded once, and it is never the negative zero. -/
theorem add_nears {u v : UnpackedFloat} {a b : ℤ} (hu : Nears u a) (hv : Holds v b)
    (ha : |a| < 2 ^ 53) (hb : |b| < 2 ^ 53) :
    Nears (UnpackedFloat.add Format.binary64 u v) (a + b : ℤ) := by
  rcases hv with hv | ⟨rfl, hb⟩
  · obtain ⟨rfl, rfl⟩ | ⟨s, m, e, hm, rfl, -, -, he, -, ha⟩ := hu.intCast ha
    · rw [zero_add]
      obtain ⟨rfl, rfl⟩ | ⟨s', m', e', hm', rfl, -⟩ := hv.intCast hb <;> exact hv
    · obtain ⟨rfl, rfl⟩ | ⟨s', m', e', hm', rfl, -, -, he', -, hb⟩ := hv.intCast hb
      · rw [add_zero]
        exact hu
      · -- Both mantissas are brought to the smaller of the exponents, which loses nothing.
        have hsum : ((a + b : ℤ) : ℚ) =
            ((s.apply (UnpackedFloat.decreaseExponent m e (min e e')).1 +
              s'.apply (UnpackedFloat.decreaseExponent m' e' (min e e')).1 : ℤ) : ℚ) *
                2 ^ min e e' := by
          push_cast
          rw [add_mul, decreaseExponent_value s m (min_le_left e e'),
            decreaseExponent_value s' m' (min_le_right e e'), ha, hb]
        rw [hsum]
        exact normalize_nears _ (by omega)
  · obtain rfl : b = 0 := by exact_mod_cast hb
    rw [add_zero]
    obtain ⟨rfl, rfl⟩ | ⟨s, m, e, hm, rfl, -⟩ := hu.intCast ha <;> exact hu

theorem mul_one_nears {u : UnpackedFloat} {a : ℤ} (hu : Nears u a) (ha : |a| < 2 ^ 53) :
    Nears (UnpackedFloat.mul Format.binary64 u (.finite .positive (2 ^ 52) (-52) (Nat.two_pow_pos 52))) a := by
  obtain ⟨rfl, rfl⟩ | ⟨s, m, e, hm, rfl, hlow, -, hleast, -, hvalue⟩ := hu.intCast ha
  · exact Int.cast_zero
  · have hscaled : ((m : ℚ) * 2 ^ e) / 2 ^ (e + -52) = (m * 2 ^ 52 : ℕ) := by
      rw [zpow_add₀ (by norm_num), zpow_neg, Nat.cast_mul, Nat.cast_pow]
      field_simp
      norm_num
    have hx : Describes (.ofMantissaAndAccuracy (m * 2 ^ 52) .exact) (m * 2 ^ e / 2 ^ (e + -52)) := by
      rw [hscaled]
      exact describes_exact _
    obtain ⟨q, t, hq, hmul, hrounds⟩ := roundWithAccuracy_rounds s hx (by omega) (by omega)
    have hsign : s * Sign.positive = s := by cases s <;> rfl
    simp only [UnpackedFloat.mul, hsign, hmul]
    change Rounds (signed s a) q t
    rwa [hvalue, signed_apply, signed_signed]

theorem divCore_eq {m m' : ℕ} {e e' : ℤ} (hm : m.log2 = 52) (hm' : m'.log2 = 52) (he : -1021 ≤ e - e') :
    UnpackedFloat.divCore Format.binary64 m e m' e' =
      (m * 2 ^ 53 / m', e - e' - 53, UnpackedFloat.accuracyOfFraction (m * 2 ^ 53 % m') m') := by
  have hmin : Format.binary64.minExponent = -1074 := rfl
  have hbits : Format.binary64.mantissaBits = 53 := rfl
  have htarget : min (e - e')
      (Format.binary64.targetExponent (totalExponent m e - totalExponent m' e')) = e - e' - 53 := by
    rw [Format.targetExponent, totalExponent, totalExponent, hmin, hbits, hm, hm']
    omega
  have hshift : (e - e' - (e - e' - 53)).toNat = 53 := by omega
  rw [UnpackedFloat.divCore, htarget, hshift, Nat.shiftLeft_eq]

theorem div_rounds (s : Sign) {m m' : ℕ} {e e' : ℤ} (hlow : 2 ^ 52 ≤ m) (hhigh : m < 2 ^ 53)
    (hlow' : 2 ^ 52 ≤ m') (hhigh' : m' < 2 ^ 53) (he : -1021 ≤ e - e') (hm : 0 < m) (hm' : 0 < m') :
    ∃ q t hq, UnpackedFloat.div Format.binary64 (.finite s m e hm) (.finite .positive m' e' hm') =
        .finite s q t hq ∧
      Rounds ((m * 2 ^ e) / (m' * 2 ^ e')) q t := by
  have hlog {m : ℕ} (hlow : 2 ^ 52 ≤ m) (hhigh : m < 2 ^ 53) : m.log2 = 52 :=
    (Nat.log2_eq_iff (by omega)).mpr ⟨hlow, hhigh⟩
  have hdiv : UnpackedFloat.div Format.binary64 (.finite s m e hm) (.finite .positive m' e' hm') =
      UnpackedFloat.roundWithAccuracy Format.binary64 s (m * 2 ^ 53 / m') (e - e' - 53)
        (UnpackedFloat.accuracyOfFraction (m * 2 ^ 53 % m') m') := by
    have hsign : s / Sign.positive = s := by cases s <;> rfl
    simp only [UnpackedFloat.div, divCore_eq (hlog hlow hhigh) (hlog hlow' hhigh') he, hsign]
  have hscaled : ((m : ℚ) * 2 ^ e) / (m' * 2 ^ e') / 2 ^ (e - e' - 53) = (m * 2 ^ 53 : ℕ) / m' := by
    have hpos : (m' : ℚ) ≠ 0 := by exact_mod_cast hm'.ne'
    rw [zpow_sub₀ (by norm_num), zpow_sub₀ (by norm_num)]
    push_cast
    field_simp
  rw [hdiv]
  -- The quotient of two mantissas of 53 bits is above one half, so one bit more is enough.
  apply roundWithAccuracy_rounds
  · rw [hscaled]
    exact describes_div _ hm'
  · rw [Nat.le_div_iff_mul_le hm']
    omega
  · omega

/-- A quotient of whole numbers is rounded once. -/
theorem div_nears {u v : UnpackedFloat} {a : ℤ} {n : ℕ} (hu : Nears u a) (hv : Nears v n)
    (ha : |a| < 2 ^ 53) (hn : 0 < n) (hn' : n < 2 ^ 53) :
    Nears (UnpackedFloat.div Format.binary64 u v) (a / n) := by
  have hnpos : (0 : ℚ) < n := by exact_mod_cast hn
  obtain ⟨rfl, hzero⟩ | ⟨s', m', e', hm', rfl, hdivisor⟩ := hv.zero_or_finite
  · exact absurd hzero hnpos.ne'
  obtain rfl : s' = .positive := by
    cases s' with
    | positive => rfl
    | negative => exact absurd hdivisor.pos (by simp [signed])
  obtain ⟨hlow', hhigh'⟩ := hdivisor.normal
  obtain ⟨hvalue', hleast', hmost'⟩ := hdivisor.natCast hn'
  obtain ⟨rfl, rfl⟩ | ⟨s, m, e, hm, rfl, hlow, hhigh, hleast, hmost, hvalue⟩ := hu.intCast ha
  · rw [Int.cast_zero, zero_div]
    rfl
  · have hexponents : -1021 ≤ e - e' := by omega
    obtain ⟨q, t, hq, hdiv, hrounds⟩ := div_rounds s hlow hhigh hlow' hhigh' hexponents hm hm'
    have hquotient : signed s (a / n) = (m * 2 ^ e) / (m' * 2 ^ e') := by
      rw [hvalue', hvalue, signed_apply]
      cases s with
      | positive => rfl
      | negative => simp only [signed, neg_div, neg_neg]
    rw [hdiv]
    change Rounds (signed s (a / n)) q t
    rwa [hquotient]

end Number
end SvgDiagram
