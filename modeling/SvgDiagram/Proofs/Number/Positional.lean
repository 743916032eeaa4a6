import Mathlib.Algebra.Order.Field.Power
import Mathlib.Data.Rat.Cast.Order
import Mathlib.Tactic.FieldSimp
import Mathlib.Tactic.Linarith
import Mathlib.Tactic.NormNum
import Mathlib.Tactic.Positivity
import Mathlib.Tactic.Ring
import SvgDiagram.Number.Written

/-!
Which doubles are written without an exponent. A double from `10 ^ -4` up to but not including
`10 ^ 16` has a shortest decimal in the same range: that decimal is not below the power of ten that the
double reaches, and lies in the interval that rounds to the double. So the text is a sign or none,
digits, a point and digits.
-/

namespace SvgDiagram
namespace Number

/-- The size of a number, without its sign. -/
def Binary.magnitude (b : Binary) : ℚ := b.mantissa * 2 ^ b.exponent

def Decimal.value (d : Decimal) : ℚ := d.digits * 10 ^ d.exponent

/-- The exponent of the first digit. -/
def Decimal.first (d : Decimal) : ℤ := d.exponent + (digitCount d.digits : ℤ) - 1

theorem lt_pow_digitCount (n : ℕ) : n < 10 ^ digitCount n := by
  have hpos : 0 < digitCount n := List.length_pos_iff.mpr Nat.toDigits_ne_nil
  exact (Nat.length_toDigits_le_iff (by decide) hpos).mp le_rfl

theorem pow_digitCount_le {n : ℕ} (hn : 0 < n) : 10 ^ (digitCount n - 1) ≤ n := by
  by_cases h : digitCount n - 1 = 0
  · rw [h]
    exact hn
  · by_contra hlt
    have := (Nat.length_toDigits_le_iff (by decide) (Nat.pos_of_ne_zero h)).mpr (not_le.mp hlt)
    unfold digitCount at this h
    omega

theorem Decimal.first_bounds {d : Decimal} (hd : 0 < d.digits) :
    (10 : ℚ) ^ d.first ≤ d.value ∧ d.value < 10 ^ (d.first + 1) := by
  have hten : (0 : ℚ) < 10 ^ d.exponent := by positivity
  have hcount : 0 < digitCount d.digits := List.length_pos_iff.mpr Nat.toDigits_ne_nil
  have hfirst : d.first = (digitCount d.digits - 1 : ℕ) + d.exponent := by
    unfold Decimal.first
    omega
  have hnext : d.first + 1 = (digitCount d.digits : ℕ) + d.exponent := by
    unfold Decimal.first
    omega
  have hlow : ((10 ^ (digitCount d.digits - 1) : ℕ) : ℚ) ≤ d.digits := by
    exact_mod_cast pow_digitCount_le hd
  have hhigh : (d.digits : ℚ) < ((10 ^ digitCount d.digits : ℕ) : ℚ) := by
    exact_mod_cast lt_pow_digitCount d.digits
  push_cast at hlow hhigh
  constructor
  · rw [hfirst, zpow_add₀ (by norm_num), zpow_natCast]
    exact mul_le_mul_of_nonneg_right hlow hten.le
  · rw [hnext, zpow_add₀ (by norm_num), zpow_natCast]
    exact mul_lt_mul_of_pos_right hhigh hten

theorem Decimal.first_range {d : Decimal} (hd : 0 < d.digits) (hlow : (10 : ℚ) ^ (-4 : ℤ) ≤ d.value)
    (hhigh : d.value < 10 ^ (16 : ℤ)) : -4 ≤ d.first ∧ d.first ≤ 15 := by
  obtain ⟨hl, hh⟩ := Decimal.first_bounds hd
  have h1 : (-4 : ℤ) < d.first + 1 := by
    exact (zpow_lt_zpow_iff_right₀ (by norm_num)).mp (lt_of_le_of_lt hlow hh)
  have h2 : d.first < 16 := by
    exact (zpow_lt_zpow_iff_right₀ (by norm_num)).mp (lt_of_le_of_lt hl hhigh)
  omega

theorem Decimal.trim_spec (d : Decimal) (fuel : ℕ) :
    (d.trim fuel).value = d.value ∧ (0 < d.digits → 0 < (d.trim fuel).digits) := by
  induction fuel generalizing d with
  | zero => exact ⟨rfl, id⟩
  | succ fuel ih =>
      rw [Decimal.trim]
      split
      · rename_i h
        simp only [bne_iff_ne, ne_eq, Bool.and_eq_true, beq_iff_eq] at h
        have hdiv : d.digits = 10 * (d.digits / 10) := by omega
        have hvalue : Decimal.value ⟨d.digits / 10, d.exponent + 1⟩ = d.value := by
          simp only [Decimal.value]
          nth_rewrite 2 [hdiv]
          rw [zpow_add₀ (by norm_num), zpow_one]
          push_cast
          ring
        obtain ⟨hv, hp⟩ := ih ⟨d.digits / 10, d.exponent + 1⟩
        exact ⟨hv.trans hvalue, fun _ => hp (show 0 < d.digits / 10 by omega)⟩
      · exact ⟨rfl, id⟩

/-! ## The search for the shortest decimal -/

theorem leadingZeros_spec {n unit k fuel : ℕ} (h : unit ≤ n * 10 ^ k) (hk : k < fuel) :
    leadingZeros n unit fuel ≤ k ∧ unit ≤ n * 10 ^ leadingZeros n unit fuel := by
  induction fuel generalizing n k with
  | zero => omega
  | succ fuel ih =>
      rw [leadingZeros]
      by_cases hn : unit ≤ n
      · simp [hn]
      · obtain ⟨j, rfl⟩ : ∃ j, k = j + 1 := by
          apply Nat.exists_eq_succ_of_ne_zero
          rintro rfl
          simp at h
          omega
        have hj : unit ≤ n * 10 * 10 ^ j := by
          rwa [mul_assoc, ← pow_succ']
        obtain ⟨hle, hreach⟩ := ih hj (by omega)
        rw [if_neg hn, pow_succ', ← mul_assoc]
        exact ⟨by omega, hreach⟩

theorem firstExponent_spec {n unit k : ℕ} (hu : 0 < unit) (h : unit ≤ n * 10 ^ k) (hk : k < 400) :
    -(k : ℤ) ≤ firstExponent n unit ∧ (10 : ℚ) ^ firstExponent n unit * unit ≤ n := by
  unfold firstExponent
  split
  · rename_i hn
    have hcount : 0 < digitCount (n / unit) := List.length_pos_iff.mpr Nat.toDigits_ne_nil
    have hexp : (digitCount (n / unit) : ℤ) - 1 = (digitCount (n / unit) - 1 : ℕ) := by omega
    have hle : 10 ^ (digitCount (n / unit) - 1) * unit ≤ n :=
      le_trans (Nat.mul_le_mul_right unit (pow_digitCount_le (Nat.div_pos hn hu)))
        (Nat.div_mul_le_self n unit)
    refine ⟨by omega, ?_⟩
    rw [hexp, zpow_natCast]
    exact_mod_cast hle
  · obtain ⟨hk, hreach⟩ := leadingZeros_spec h hk
    refine ⟨by omega, ?_⟩
    have hten : (0 : ℚ) < 10 ^ leadingZeros n unit 400 := by positivity
    rw [zpow_neg, zpow_natCast, inv_mul_le_iff₀ hten, mul_comm]
    exact_mod_cast hreach

theorem pow_up_mul (e : ℤ) : (10 : ℚ) ^ (-e).toNat * 10 ^ e = 10 ^ e.toNat := by
  rw [← zpow_natCast, ← zpow_natCast, ← zpow_add₀ (by norm_num)]
  congr 1
  omega

namespace Interval

theorem nearest?_spec {i : Interval} {n : ℕ} (h : i.nearest? = some n) :
    i.centre / i.unit ≤ n ∧ n * i.unit ≤ i.high := by
  unfold nearest? at h
  have hmem := List.mem_of_find?_eq_some h
  have hin := List.find?_some h
  constructor
  · split at hmem <;> simp at hmem <;> omega
  · unfold contains at hin
    split at hin <;> simp only [Bool.and_eq_true, decide_eq_true_eq] at hin <;> omega

/-- The integer found for the power `10 ^ e` is at least every multiple of it up to the centre, and
does not leave the interval. -/
theorem nearest?_scale {i : Interval} {e : ℤ} {n : ℕ} (hu : 0 < i.unit)
    (h : (i.scale e).nearest? = some n) :
    (∀ k : ℕ, (k : ℚ) * 10 ^ e * i.unit ≤ i.centre → k ≤ n) ∧
      (n : ℚ) * 10 ^ e * i.unit ≤ i.high := by
  obtain ⟨hlow, hhigh⟩ := nearest?_spec h
  simp only [scale, Nat.pow_eq] at hlow hhigh
  have hup : (0 : ℚ) < 10 ^ (-e).toNat := by positivity
  have hshift (k : ℕ) :
      (k : ℚ) * 10 ^ e * i.unit * 10 ^ (-e).toNat = (k * (i.unit * 10 ^ e.toNat) : ℕ) := by
    push_cast
    rw [← pow_up_mul e]
    ring
  constructor
  · intro k hk
    apply le_trans _ hlow
    rw [Nat.le_div_iff_mul_le (by positivity)]
    have := mul_le_mul_of_nonneg_right hk hup.le
    rw [hshift] at this
    exact_mod_cast this
  · rw [← mul_le_mul_iff_left₀ hup, hshift]
    exact_mod_cast hhigh

end Interval

theorem shortestFrom_spec {i : Interval} {first : ℤ} (hu : 0 < i.unit)
    (hfirst : (10 : ℚ) ^ first * i.unit ≤ i.centre) {count fuel : ℕ} (hc : 1 ≤ count) {d : Decimal}
    (h : shortestFrom i first count fuel = some d) :
    (10 : ℚ) ^ first ≤ d.value ∧ d.value * i.unit ≤ i.high := by
  induction fuel generalizing count with
  | zero => simp [shortestFrom] at h
  | succ fuel ih =>
      rw [shortestFrom] at h
      split at h
      · rename_i n hn
        obtain rfl := Option.some.inj h
        obtain ⟨hlow, hhigh⟩ := Interval.nearest?_scale hu hn
        have hpow : ((10 ^ (count - 1) : ℕ) : ℚ) * 10 ^ (first - count + 1) = 10 ^ first := by
          push_cast
          rw [← zpow_natCast, ← zpow_add₀ (by norm_num)]
          congr 1
          omega
        refine ⟨?_, hhigh⟩
        have hle := hlow (10 ^ (count - 1)) (by rwa [hpow])
        rw [← hpow]
        exact mul_le_mul_of_nonneg_right (by exact_mod_cast hle) (by positivity)
      · exact ih (by omega) h

/-! ## Doubles -/

theorem decode_normal {x : Float} {b : Binary} (h : decode x = .finite b) :
    b.exponent = leastExponent ∨ 2 ^ 52 ≤ b.mantissa := by
  simp only [decode] at h
  split at h
  · split at h <;> cases h
  · split at h
    · cases h
      exact .inl rfl
    · cases h
      exact .inr (Nat.le_add_right _ _)

theorem exponent_le_one {b : Binary} (hn : b.exponent = leastExponent ∨ 2 ^ 52 ≤ b.mantissa)
    (hhigh : b.magnitude < 10 ^ (16 : ℤ)) : b.exponent ≤ 1 := by
  rcases hn with hn | hn
  · rw [hn]
    decide
  · by_contra hexp
    have hpow : (2 : ℚ) ^ (2 : ℤ) ≤ 2 ^ b.exponent := zpow_le_zpow_right₀ (by norm_num) (by omega)
    have hm : ((2 ^ 52 : ℕ) : ℚ) ≤ b.mantissa := by exact_mod_cast hn
    have : ((2 ^ 52 : ℕ) : ℚ) * 2 ^ (2 : ℤ) ≤ b.magnitude :=
      mul_le_mul hm hpow (by positivity) (by positivity)
    norm_num at this hhigh
    linarith

theorem magnitude_mul_unit {b : Binary} (h : b.exponent ≤ 1) :
    b.magnitude * (2 ^ (2 - b.exponent).toNat : ℕ) = (4 * b.mantissa : ℕ) := by
  have hexp : ((2 - b.exponent).toNat : ℤ) = 2 - b.exponent := by omega
  push_cast
  rw [Binary.magnitude, mul_assoc, ← zpow_natCast, hexp, ← zpow_add₀ (by norm_num)]
  norm_num
  ring

/-- The interval of a double below `10 ^ 16` ends below `10 ^ 16` too. -/
theorem high_lt {b : Binary} (h : b.exponent ≤ 1) (hhigh : b.magnitude < 10 ^ (16 : ℤ)) :
    4 * b.mantissa + 2 < 10 ^ 16 * 2 ^ (2 - b.exponent).toNat := by
  have hunit := magnitude_mul_unit h
  have hpos : (0 : ℚ) < (2 ^ (2 - b.exponent).toNat : ℕ) := by positivity
  have hlt := mul_lt_mul_of_pos_right hhigh hpos
  rw [hunit] at hlt
  -- Both sides are multiples of four, and the interval ends only two above its centre.
  have hcentre : 4 * b.mantissa < 10 ^ 16 * 2 ^ (2 - b.exponent).toNat := by exact_mod_cast hlt
  omega

theorem unit_le {b : Binary} (h : b.exponent ≤ 1) (hlow : (10 : ℚ) ^ (-4 : ℤ) ≤ b.magnitude) :
    2 ^ (2 - b.exponent).toNat ≤ 4 * b.mantissa * 10 ^ 4 := by
  have hunit := magnitude_mul_unit h
  have hpos : (0 : ℚ) < (2 ^ (2 - b.exponent).toNat : ℕ) := by positivity
  have hle := mul_le_mul_of_nonneg_right hlow hpos.le
  rw [hunit, zpow_neg, inv_mul_le_iff₀ (by positivity), mul_comm] at hle
  exact_mod_cast hle

theorem ofBinary_eq {b : Binary} (h : b.exponent ≤ 1) :
    (Interval.ofBinary b).centre = 4 * b.mantissa ∧ (Interval.ofBinary b).high = 4 * b.mantissa + 2 ∧
      (Interval.ofBinary b).unit = 2 ^ (2 - b.exponent).toNat := by
  have hup : (b.exponent - 2).toNat = 0 := by omega
  simp [Interval.ofBinary, hup]

theorem shortest_range {b : Binary} (hn : b.exponent = leastExponent ∨ 2 ^ 52 ≤ b.mantissa)
    (hlow : (10 : ℚ) ^ (-4 : ℤ) ≤ b.magnitude) (hhigh : b.magnitude < 10 ^ (16 : ℤ)) :
    -4 ≤ (shortest b).first ∧ (shortest b).first ≤ 15 := by
  have hexp := exponent_le_one hn hhigh
  obtain ⟨hcentre, hend, hunit⟩ := ofBinary_eq hexp
  have hpos : 0 < (Interval.ofBinary b).unit := by
    rw [hunit]
    positivity
  have hreach : (Interval.ofBinary b).unit ≤ (Interval.ofBinary b).centre * 10 ^ 4 := by
    rw [hunit, hcentre]
    exact unit_le hexp hlow
  obtain ⟨hfirst, hbelow⟩ := firstExponent_spec hpos hreach (by decide)
  unfold shortest
  simp only
  split
  · rename_i d hd
    obtain ⟨hleast, hmost⟩ := shortestFrom_spec hpos hbelow le_rfl hd
    have hvalue : (0 : ℚ) < d.value := lt_of_lt_of_le (by positivity) hleast
    have hdigits : 0 < d.digits := by
      by_contra hzero
      simp [Decimal.value, Nat.eq_zero_of_not_pos hzero] at hvalue
    have hmost' : d.value < 10 ^ (16 : ℤ) := by
      have hlt : ((Interval.ofBinary b).high : ℚ) <
          10 ^ (16 : ℤ) * (Interval.ofBinary b).unit := by
        rw [hend, hunit]
        exact_mod_cast high_lt hexp hhigh
      exact lt_of_mul_lt_mul_right (lt_of_le_of_lt hmost hlt) (Nat.cast_nonneg _)
    obtain ⟨htrim, hkeep⟩ := Decimal.trim_spec d (digitLimit + 1)
    apply Decimal.first_range (hkeep hdigits)
    · rw [htrim]
      exact le_trans (zpow_le_zpow_right₀ (by norm_num) hfirst) hleast
    · rw [htrim]
      exact hmost'
  · decide

/-! ## Text -/

/-- Digits, a point and digits. -/
def PointText (cs : List Char) : Prop :=
  ∃ whole fraction, cs = whole ++ '.' :: fraction ∧ whole ≠ [] ∧ fraction ≠ [] ∧
    (∀ c ∈ whole, c.isDigit = true) ∧ ∀ c ∈ fraction, c.isDigit = true

theorem isDigit_zeros (n : ℕ) : ∀ c ∈ List.replicate n '0', c.isDigit = true := by
  intro c hc
  rw [List.eq_of_mem_replicate hc]
  decide

theorem Decimal.text_positional {d : Decimal} (hlow : -4 ≤ d.first) (hhigh : d.first ≤ 15) :
    PointText (d.text layout) := by
  have hdigit : ∀ c ∈ Nat.toDigits 10 d.digits, c.isDigit = true := fun c hc =>
    Nat.isDigit_of_mem_toDigits (by decide) (by decide) hc
  have hpositional : (decide (d.first < layout.leastPositional) ||
      decide (layout.mostPositional < d.first)) = false := by
    exact Bool.or_eq_false_iff.mpr
      ⟨decide_eq_false (not_lt.mpr hlow), decide_eq_false (not_lt.mpr hhigh)⟩
  unfold Decimal.text
  change PointText (if (decide (d.first < layout.leastPositional) ||
    decide (layout.mostPositional < d.first)) = true then _ else if d.first < 0 then _ else _)
  rw [hpositional, if_neg Bool.false_ne_true]
  split
  · refine ⟨['0'], _, rfl, by simp, by simp [Nat.toDigits_ne_nil], isDigit_zeros 1, ?_⟩
    intro c hc
    exact (List.mem_append.mp hc).elim (isDigit_zeros _ c) (hdigit c)
  · refine ⟨_, _, rfl, by simp [Nat.toDigits_ne_nil], ?_, ?_, ?_⟩
    · split
      · simp
      · rename_i h
        simpa using h
    · intro c hc
      exact (List.mem_append.mp hc).elim (fun h => hdigit c (List.mem_of_mem_take h)) (isDigit_zeros _ c)
    · intro c hc
      split at hc
      · rw [List.mem_singleton.mp hc]
        decide
      · exact hdigit c (List.mem_of_mem_drop hc)

/-- Zero, or a number of a size that is written without an exponent. -/
def Decoded.Positional : Decoded → Prop
  | .finite b => b.mantissa = 0 ∨ (10 : ℚ) ^ (-4 : ℤ) ≤ b.magnitude ∧ b.magnitude < 10 ^ (16 : ℤ)
  | _ => False

instance : DecidablePred Decoded.Positional
  | .finite b => inferInstanceAs (Decidable (b.mantissa = 0 ∨ _ ∧ _))
  | .infinite _ | .nan => .isFalse id

def Positional (x : Float) : Prop := (decode x).Positional

instance (x : Float) : Decidable (Positional x) := inferInstanceAs (Decidable (decode x).Positional)

theorem written_positional {x : Float} (h : Positional x) :
    ∃ sign magnitude, (written x).toList = sign ++ magnitude ∧ (sign = [] ∨ sign = ['-']) ∧
      PointText magnitude := by
  unfold Positional at h
  cases hb : decode x with
  | nan => simp [hb, Decoded.Positional] at h
  | infinite negative => simp [hb, Decoded.Positional] at h
  | finite b =>
      rw [hb] at h
      have hmagnitude :
          PointText (if b.mantissa == 0 then ['0', '.', '0'] else (shortest b).text layout) := by
        split
        · exact ⟨['0'], ['0'], rfl, by simp, by simp, isDigit_zeros 1, isDigit_zeros 1⟩
        · rename_i hzero
          have hrange := h.resolve_left (by simpa using hzero)
          have hfirst := shortest_range (decode_normal hb) hrange.1 hrange.2
          exact Decimal.text_positional hfirst.1 hfirst.2
      simp only [written, hb, String.toList_ofList]
      cases b.negative with
      | false => exact ⟨[], _, rfl, .inl rfl, hmagnitude⟩
      | true => exact ⟨['-'], _, rfl, .inr rfl, hmagnitude⟩

example : Positional (-120.25) ∧ Positional 0.0001 ∧ Positional 0.0 ∧ ¬ Positional 1e16 := by
  decide +kernel

end Number
end SvgDiagram
