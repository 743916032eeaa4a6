import Mathlib.Algebra.Order.Floor.Semifield
import Mathlib.Data.Rat.Floor
import Mathlib.Tactic.LinearCombination
import SvgDiagram.Proofs.Number.Positional

/-!
The shortest decimal of a double lies in the interval of the numbers that round to it. Seventeen digits are
always enough: the multiples of a power of ten that is `10 ^ 16` times smaller than the double are closer
together than the ends of that interval. No number rounds to two doubles, so the shortest decimals of two
positive doubles differ.
-/

namespace SvgDiagram
namespace Number

/-- The mantissa has 53 bits, or fewer at the least exponent. -/
structure Binary.Normal (b : Binary) : Prop where
  lt : b.mantissa < 2 ^ 53
  least : leastExponent ≤ b.exponent
  full : b.exponent = leastExponent ∨ 2 ^ 52 ≤ b.mantissa

theorem normal_decode {x : Float} {b : Binary} (h : decode x = .finite b) : b.Normal := by
  have hfull := decode_normal h
  simp only [decode] at h
  split at h
  · split at h <;> cases h
  · split at h
    · cases h
      refine ⟨?_, le_rfl, hfull⟩
      simp only [Nat.pow_eq]
      omega
    · rename_i hbiased
      cases h
      refine ⟨?_, ?_, hfull⟩
      · simp only [Nat.pow_eq]
        omega
      · simp only [beq_iff_eq, leastExponent] at hbiased ⊢
        omega

namespace Binary

/-- How far below a double the midpoint to its lower neighbour is, in quarters of the last place. -/
def reach (b : Binary) : ℕ :=
  if b.mantissa == Nat.pow 2 52 && b.exponent != leastExponent then 1 else 2

/-- A number that rounds to a double: it lies between the midpoints to the two neighbours, or on one of them
if the mantissa is even. The last place is measured in quarters. -/
def Attracts (b : Binary) (x : ℚ) : Prop :=
  let y := x / 2 ^ (b.exponent - 2)
  if b.mantissa % 2 = 0 then 4 * b.mantissa - b.reach ≤ y ∧ y ≤ 4 * b.mantissa + 2
  else 4 * b.mantissa - b.reach < y ∧ y < 4 * b.mantissa + 2

theorem reach_cases (b : Binary) :
    b.reach = 2 ∧ (b.mantissa = 2 ^ 52 → b.exponent = leastExponent) ∨
      b.reach = 1 ∧ b.mantissa = 2 ^ 52 := by
  unfold reach
  split
  · rename_i h
    simp only [Nat.pow_eq, Bool.and_eq_true, beq_iff_eq] at h
    exact .inr ⟨rfl, h.1⟩
  · rename_i h
    refine .inl ⟨rfl, fun hm => ?_⟩
    simpa [hm] using h

theorem reach_le (b : Binary) : (b.reach : ℚ) ≤ 2 := by
  rcases b.reach_cases with ⟨h, -⟩ | ⟨h, -⟩ <;> norm_num [h]

variable {b c : Binary} {x : ℚ}

theorem Attracts.le (h : b.Attracts x) :
    4 * b.mantissa - b.reach ≤ x / 2 ^ (b.exponent - 2) ∧
      x / 2 ^ (b.exponent - 2) ≤ 4 * b.mantissa + 2 := by
  simp only [Attracts] at h
  split at h
  · exact h
  · exact ⟨h.1.le, h.2.le⟩

theorem Attracts.lt (h : b.Attracts x) (hodd : b.mantissa % 2 = 1) :
    4 * b.mantissa - b.reach < x / 2 ^ (b.exponent - 2) ∧
      x / 2 ^ (b.exponent - 2) < 4 * b.mantissa + 2 := by
  simp only [Attracts] at h
  rwa [if_neg (by omega)] at h

theorem attracts_of_lt (hlow : 4 * b.mantissa - b.reach < x / 2 ^ (b.exponent - 2))
    (hhigh : x / 2 ^ (b.exponent - 2) < 4 * b.mantissa + 2) : b.Attracts x := by
  simp only [Attracts]
  split
  · exact ⟨hlow.le, hhigh.le⟩
  · exact ⟨hlow, hhigh⟩

theorem Attracts.pos (h : b.Attracts x) (hb : 0 < b.mantissa) : 0 < x := by
  have hone : (1 : ℚ) ≤ b.mantissa := by exact_mod_cast hb
  have hy : 0 < x / 2 ^ (b.exponent - 2) := by linarith [h.le.1, b.reach_le]
  exact (div_pos_iff_of_pos_right (by positivity)).mp hy

/-- Of two doubles with one exponent that attract the same number, neither has the smaller mantissa. -/
theorem Attracts.mantissa_le (hb : b.Attracts x) (hc : c.Attracts x) (h : b.exponent = c.exponent) :
    c.mantissa ≤ b.mantissa := by
  by_contra hlt
  have hstep : (b.mantissa : ℚ) + 1 ≤ c.mantissa := by exact_mod_cast not_le.mp hlt
  have hhigh := hb.le.2
  rw [h] at hhigh
  -- The two meet at most in the midpoint between them, and one of the two mantissas is odd.
  have heq : c.mantissa = b.mantissa + 1 := by
    have : (c.mantissa : ℚ) = b.mantissa + 1 := by linarith [hc.le.1, c.reach_le]
    exact_mod_cast this
  rcases Nat.mod_two_eq_zero_or_one b.mantissa with heven | hodd
  · linarith [(hc.lt (by omega)).1, c.reach_le]
  · have hstrict := (hb.lt hodd).2
    rw [h] at hstrict
    linarith [hc.le.1, c.reach_le]

/-- The quarters of a double that is not of the least exponent begin next to those of the power of two. -/
theorem Attracts.quarters_ge (h : b.Attracts x) (hfull : 2 ^ 52 ≤ b.mantissa)
    (hexp : b.exponent ≠ leastExponent) : (2 ^ 54 - 1 : ℚ) ≤ x / 2 ^ (b.exponent - 2) := by
  have hlow := h.le.1
  rcases b.reach_cases with ⟨hr, hm⟩ | ⟨hr, hm⟩
  · have hne : b.mantissa ≠ 2 ^ 52 := fun h => hexp (hm h)
    have hmore : (2 ^ 52 + 1 : ℚ) ≤ b.mantissa := by
      have : 2 ^ 52 + 1 ≤ b.mantissa := by omega
      exact_mod_cast this
    rw [hr] at hlow
    push_cast at hlow
    linarith
  · rw [hr, hm] at hlow
    push_cast at hlow
    linarith

theorem Attracts.exponent_le (hb : b.Attracts x) (hc : c.Attracts x) (hnb : b.Normal)
    (hnc : c.Normal) : c.exponent ≤ b.exponent := by
  by_contra hlt
  rw [not_le] at hlt
  have hexp : c.exponent ≠ leastExponent := by
    have := hnb.least
    omega
  have hlow := hc.quarters_ge (hnc.full.resolve_left hexp) hexp
  obtain ⟨k, hk⟩ : ∃ k : ℕ, c.exponent - 2 = (b.exponent - 2) + (k + 1 : ℕ) :=
    ⟨(c.exponent - b.exponent - 1).toNat, by omega⟩
  have hscale : x / 2 ^ (b.exponent - 2) = x / 2 ^ (c.exponent - 2) * 2 ^ (k + 1) := by
    rw [hk, zpow_add₀ (by norm_num), zpow_natCast]
    field_simp
  have hbelow : (2 ^ 55 - 2 : ℚ) ≤ x / 2 ^ (b.exponent - 2) := by
    have hone : (1 : ℚ) ≤ 2 ^ k := one_le_pow₀ (by norm_num)
    calc (2 ^ 55 - 2 : ℚ) = (2 ^ 54 - 1) * (2 * 1) := by norm_num
      _ ≤ x / 2 ^ (c.exponent - 2) * (2 * 2 ^ k) := by gcongr
      _ = x / 2 ^ (b.exponent - 2) := by rw [hscale, pow_succ']
  -- Only the greatest mantissa reaches as far, and it is odd.
  have hmost : b.mantissa = 2 ^ 53 - 1 := by
    have hle := hb.le.2
    have hge : ((2 ^ 53 - 1 : ℕ) : ℚ) ≤ b.mantissa := by
      push_cast
      linarith
    have hge : 2 ^ 53 - 1 ≤ b.mantissa := by exact_mod_cast hge
    have := hnb.lt
    omega
  have hstrict := (hb.lt (by omega)).2
  rw [hmost] at hstrict
  push_cast at hstrict
  linarith

/-- No number rounds to two doubles. -/
theorem Attracts.unique (hb : b.Attracts x) (hc : c.Attracts x) (hnb : b.Normal) (hnc : c.Normal) :
    b.mantissa = c.mantissa ∧ b.exponent = c.exponent := by
  have hexp := le_antisymm (hc.exponent_le hb hnc hnb) (hb.exponent_le hc hnb hnc)
  exact ⟨le_antisymm (hc.mantissa_le hb hexp.symm) (hb.mantissa_le hc hexp), hexp⟩

end Binary

namespace Interval

/-- The numbers of an interval. -/
def Holds (i : Interval) (x : ℚ) : Prop :=
  if i.closed then i.low ≤ x * i.unit ∧ x * i.unit ≤ i.high
  else i.low < x * i.unit ∧ x * i.unit < i.high

theorem contains_iff (i : Interval) (n : ℕ) :
    i.contains n = true ↔ if i.closed then i.low ≤ n * i.unit ∧ n * i.unit ≤ i.high
      else i.low < n * i.unit ∧ n * i.unit < i.high := by
  unfold contains
  split <;> simp

theorem contains_scale {i : Interval} (e : ℤ) (n : ℕ) :
    (i.scale e).contains n = true ↔ i.Holds (n * 10 ^ e) := by
  have hup : (0 : ℚ) < 10 ^ (-e).toNat := by positivity
  have hshift : (n : ℚ) * 10 ^ e * i.unit * 10 ^ (-e).toNat = (n * (i.unit * 10 ^ e.toNat) : ℕ) := by
    push_cast
    rw [← pow_up_mul e]
    ring
  have hle (k : ℕ) : (k : ℚ) ≤ n * 10 ^ e * i.unit ↔
      k * 10 ^ (-e).toNat ≤ n * (i.unit * 10 ^ e.toNat) := by
    rw [← mul_le_mul_iff_left₀ hup, hshift]
    exact_mod_cast Iff.rfl
  have hge (k : ℕ) : (n : ℚ) * 10 ^ e * i.unit ≤ k ↔
      n * (i.unit * 10 ^ e.toNat) ≤ k * 10 ^ (-e).toNat := by
    rw [← mul_le_mul_iff_left₀ hup, hshift]
    exact_mod_cast Iff.rfl
  rw [contains_iff]
  simp only [scale, Holds, Nat.pow_eq, hle, hge, lt_iff_lt_of_le_iff_le (hle _),
    lt_iff_lt_of_le_iff_le (hge _)]
  exact Iff.rfl

end Interval

theorem holds_ofBinary {b : Binary} (hb : 0 < b.mantissa) (x : ℚ) :
    (Interval.ofBinary b).Holds x ↔ b.Attracts x := by
  have hup : (0 : ℚ) < 2 ^ (b.exponent - 2).toNat := by positivity
  have hunit : x * (2 ^ (2 - b.exponent).toNat : ℕ) =
      x / 2 ^ (b.exponent - 2) * 2 ^ (b.exponent - 2).toNat := by
    have hpow : (2 : ℚ) ^ (b.exponent - 2).toNat =
        2 ^ (2 - b.exponent).toNat * 2 ^ (b.exponent - 2) := by
      rw [← zpow_natCast, ← zpow_natCast, ← zpow_add₀ (by norm_num)]
      congr 1
      omega
    rw [hpow]
    push_cast
    field_simp
  have hlow : ((4 * b.mantissa - b.reach : ℕ) : ℚ) = 4 * b.mantissa - b.reach := by
    have hreach : b.reach ≤ 4 * b.mantissa := by
      rcases b.reach_cases with ⟨h, -⟩ | ⟨h, -⟩ <;> omega
    push_cast [hreach]
    rfl
  have hclosed : (Interval.ofBinary b).closed = true ↔ b.mantissa % 2 = 0 := beq_iff_eq
  have hends : ((Interval.ofBinary b).low : ℚ) = (4 * b.mantissa - b.reach) * 2 ^ (b.exponent - 2).toNat ∧
      ((Interval.ofBinary b).high : ℚ) = (4 * b.mantissa + 2) * 2 ^ (b.exponent - 2).toNat := by
    rw [← hlow]
    constructor
    · exact_mod_cast rfl
    · exact_mod_cast rfl
  simp only [Interval.Holds, Binary.Attracts, hclosed, hends.1, hends.2]
  rw [show (Interval.ofBinary b).unit = 2 ^ (2 - b.exponent).toNat from rfl, hunit]
  simp only [mul_le_mul_iff_left₀ hup, mul_lt_mul_iff_left₀ hup]

theorem centre_ofBinary (b : Binary) :
    ((Interval.ofBinary b).centre : ℚ) = b.magnitude * (Interval.ofBinary b).unit := by
  have hpow : (2 : ℚ) ^ (b.exponent - 2).toNat * 4 = 2 ^ (2 - b.exponent).toNat * 2 ^ b.exponent := by
    rw [show (4 : ℚ) = 2 ^ (2 : ℤ) by norm_num, ← zpow_natCast, ← zpow_natCast,
      ← zpow_add₀ (by norm_num), ← zpow_add₀ (by norm_num)]
    congr 1
    omega
  simp only [Interval.ofBinary, Binary.magnitude, Nat.pow_eq]
  push_cast
  linear_combination (b.mantissa : ℚ) * hpow

/-- The candidates for a power of ten are the multiples of it on both sides of the double. -/
theorem floor_scale {b : Binary} (e : ℤ) :
    (((Interval.ofBinary b).scale e).centre / ((Interval.ofBinary b).scale e).unit : ℕ) =
      ⌊b.magnitude / 10 ^ e⌋₊ := by
  have hunit : (0 : ℚ) < (Interval.ofBinary b).unit := by
    exact_mod_cast Nat.two_pow_pos _
  have hup : (10 : ℚ) ^ (-e).toNat = 10 ^ e.toNat / 10 ^ e := by
    rw [← pow_up_mul e]
    field_simp
  rw [← Nat.floor_div_eq_div (K := ℚ)]
  congr 1
  simp only [Interval.scale, Nat.pow_eq]
  push_cast
  rw [centre_ofBinary, hup]
  field_simp

theorem quarters_magnitude (b : Binary) : b.magnitude / 2 ^ (b.exponent - 2) = 4 * b.mantissa := by
  rw [Binary.magnitude, zpow_sub₀ (by norm_num)]
  field_simp
  norm_num

/-- If a step is `10 ^ 16` times smaller than a double, one of the two multiples of it next to the double
rounds to the double. -/
theorem attracts_multiple {b : Binary} (hn : b.Normal) {step : ℚ} {k : ℕ}
    (hstep : step * 10 ^ 16 ≤ b.magnitude) (hbelow : k * step ≤ b.magnitude)
    (habove : b.magnitude < (k + 1) * step) : b.Attracts (k * step) ∨ b.Attracts ((k + 1) * step) := by
  have hlast : (0 : ℚ) < 2 ^ (b.exponent - 2) := by positivity
  rw [← div_le_div_iff_of_pos_right hlast, quarters_magnitude, mul_comm, mul_div_assoc] at hstep
  rw [← div_le_div_iff_of_pos_right hlast, quarters_magnitude, mul_div_assoc] at hbelow
  rw [← div_lt_div_iff_of_pos_right hlast, quarters_magnitude, mul_div_assoc] at habove
  by_contra hnone
  rw [not_or] at hnone
  have hfar : (k : ℚ) * (step / 2 ^ (b.exponent - 2)) ≤ 4 * b.mantissa - b.reach := by
    by_contra hlow
    rw [not_le] at hlow
    exact hnone.1 (Binary.attracts_of_lt (by rwa [mul_div_assoc]) (by rw [mul_div_assoc]; linarith))
  have hfar' : 4 * b.mantissa + 2 ≤ (k + 1 : ℚ) * (step / 2 ^ (b.exponent - 2)) := by
    by_contra hhigh
    rw [not_le] at hhigh
    refine hnone.2 (Binary.attracts_of_lt ?_ (by rwa [mul_div_assoc]))
    rw [mul_div_assoc]
    linarith [(Nat.cast_nonneg b.reach : (0 : ℚ) ≤ b.reach)]
  -- The step would be as wide as the interval, and the double too large.
  have hmost : (b.mantissa : ℚ) < 2 ^ 53 := by exact_mod_cast hn.lt
  rcases b.reach_cases with ⟨hr, -⟩ | ⟨hr, hm⟩
  · rw [hr] at hfar
    push_cast at hfar
    linarith
  · rw [hr, hm] at hfar
    rw [hm] at hfar' hstep
    push_cast at hfar hfar' hstep
    linarith

theorem nearest?_isSome {b : Binary} (hn : b.Normal) (hb : 0 < b.mantissa) {e : ℤ}
    (he : (10 : ℚ) ^ e * 10 ^ 16 ≤ b.magnitude) :
    ((Interval.ofBinary b).scale e).nearest?.isSome = true := by
  have hten : (0 : ℚ) < 10 ^ e := by positivity
  have hpos : 0 < b.magnitude := lt_of_lt_of_le (by positivity) he
  have hmultiple := attracts_multiple hn (k := ⌊b.magnitude / 10 ^ e⌋₊) he
    ((le_div_iff₀ hten).mp (Nat.floor_le (by positivity)))
    ((div_lt_iff₀ hten).mp (Nat.lt_floor_add_one _))
  rw [← floor_scale, ← Nat.cast_succ, ← holds_ofBinary hb, ← holds_ofBinary hb,
    ← Interval.contains_scale, ← Interval.contains_scale] at hmultiple
  simp only [Interval.nearest?, List.find?_isSome]
  split
  · simpa using hmultiple
  · simpa using hmultiple.symm

theorem holds_of_nearest? {i : Interval} {e : ℤ} {n : ℕ} (h : (i.scale e).nearest? = some n) :
    i.Holds (n * 10 ^ e) :=
  (Interval.contains_scale e n).mp (List.find?_some h)

/-- What the search finds is in the interval. -/
theorem holds_shortestFrom {i : Interval} {first : ℤ} {count fuel : ℕ} {d : Decimal}
    (h : shortestFrom i first count fuel = some d) : i.Holds d.value := by
  induction fuel generalizing count with
  | zero => cases h
  | succ fuel ih =>
      rw [shortestFrom] at h
      split at h
      · rename_i n hn
        obtain rfl := Option.some.inj h
        exact holds_of_nearest? hn
      · exact ih h

theorem shortestFrom_isSome {i : Interval} {first : ℤ} {count fuel : ℕ} (last : ℕ) (hfrom : count ≤ last)
    (hto : last < count + fuel) (h : (i.scale (first - last + 1)).nearest?.isSome = true) :
    (shortestFrom i first count fuel).isSome = true := by
  induction fuel generalizing count with
  | zero => omega
  | succ fuel ih =>
      rw [shortestFrom]
      split
      · rfl
      · rename_i hnone
        have hne : count ≠ last := by
          rintro rfl
          rw [hnone] at h
          cases h
        exact ih (by omega) (by omega)

theorem least_le_magnitude {b : Binary} (hn : b.Normal) (hb : 0 < b.mantissa) :
    (10 : ℚ) ^ (-(324 : ℕ) : ℤ) ≤ b.magnitude := by
  have hpow : (2 : ℕ) ^ 1074 ≤ 10 ^ 324 := by decide +kernel
  have hone : (1 : ℚ) ≤ b.mantissa := by exact_mod_cast hb
  calc (10 : ℚ) ^ (-(324 : ℕ) : ℤ) ≤ 2 ^ (-(1074 : ℕ) : ℤ) := by
        rw [zpow_neg, zpow_neg, zpow_natCast, zpow_natCast]
        exact inv_anti₀ (by positivity) (by exact_mod_cast hpow)
    _ = 1 * 2 ^ leastExponent := (one_mul _).symm
    _ ≤ b.mantissa * 2 ^ b.exponent :=
        mul_le_mul hone (zpow_le_zpow_right₀ (by norm_num) hn.least) (by positivity) (by positivity)

theorem pow_le_magnitude {b : Binary} (hn : b.Normal) (hb : 0 < b.mantissa) :
    (10 : ℚ) ^ firstExponent (Interval.ofBinary b).centre (Interval.ofBinary b).unit ≤ b.magnitude := by
  have hunit : 0 < (Interval.ofBinary b).unit := Nat.two_pow_pos _
  have hunit' : (0 : ℚ) < (Interval.ofBinary b).unit := by exact_mod_cast hunit
  have hreach : (Interval.ofBinary b).unit ≤ (Interval.ofBinary b).centre * 10 ^ 324 := by
    have hle := mul_le_mul_of_nonneg_right (least_le_magnitude hn hb) hunit'.le
    rw [← centre_ofBinary, zpow_neg, zpow_natCast, inv_mul_le_iff₀ (by positivity), mul_comm] at hle
    exact_mod_cast hle
  obtain ⟨-, hbelow⟩ := firstExponent_spec hunit hreach (by decide)
  rw [centre_ofBinary] at hbelow
  exact le_of_mul_le_mul_right hbelow hunit'

/-- The shortest decimal of a positive double rounds to it. -/
theorem attracts_shortest {b : Binary} (hn : b.Normal) (hb : 0 < b.mantissa) :
    b.Attracts (shortest b).value := by
  have hfirst := pow_le_magnitude hn hb
  have hfound : (shortestFrom (Interval.ofBinary b)
      (firstExponent (Interval.ofBinary b).centre (Interval.ofBinary b).unit) 1 digitLimit).isSome := by
    refine shortestFrom_isSome digitLimit (by decide) (by decide) (nearest?_isSome hn hb ?_)
    refine le_trans (le_of_eq ?_) hfirst
    rw [← zpow_natCast, ← zpow_add₀ (by norm_num)]
    congr 1
    simp only [digitLimit]
    omega
  obtain ⟨d, hd⟩ := Option.isSome_iff_exists.mp hfound
  simp only [shortest, hd, (Decimal.trim_spec d _).1]
  exact (holds_ofBinary hb _).mp (holds_shortestFrom hd)

end Number
end SvgDiagram
