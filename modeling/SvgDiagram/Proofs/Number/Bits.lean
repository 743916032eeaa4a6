import Mathlib
import SvgDiagram.Proofs.Number.Shortest

/-!
Doubles by what they stand for. A double is known by its sign, its exponent and its mantissa, and there is
one double that is no number. Two doubles are equal if they stand for the same number, so that the zeros are
equal too, and a double is an integer exactly if the number it stands for is one.
-/

namespace SvgDiagram
namespace Number

open Float.Model (Format)
open Float.Model.UnpackedFloat

/-- The bits without the sign. A full mantissa carries its first bit into the exponent. -/
def Decoded.bits : Decoded → ℤ
  | .nan => 2047 * 2 ^ 52 + 2 ^ 51
  | .infinite _ => 2047 * 2 ^ 52
  | .finite b => (b.exponent - leastExponent) * 2 ^ 52 + b.mantissa

def Decoded.negative : Decoded → Bool
  | .nan => false
  | .infinite s => s
  | .finite b => b.negative

theorem bits_decode {x : Float} (h : decode x ≠ .nan) :
    (decode x).bits = x.toBits.toNat % 2 ^ 63 ∧
      (decode x).negative = (x.toBits.toNat / 2 ^ 63 == 1) := by
  have hlt := x.toBits.toNat_lt
  simp only [decode, Nat.pow_eq] at h ⊢
  split <;> rename_i hbiased
  · split <;> rename_i hfraction
    · simp only [beq_iff_eq] at hbiased hfraction
      refine ⟨?_, rfl⟩
      simp only [Decoded.bits]
      omega
    · simp [hbiased, hfraction] at h
  · split <;> rename_i hzero
    · simp only [beq_iff_eq] at hzero
      refine ⟨?_, rfl⟩
      simp only [Decoded.bits]
      omega
    · simp only [beq_iff_eq] at hzero
      refine ⟨?_, rfl⟩
      simp only [Decoded.bits, leastExponent]
      push_cast
      omega

theorem eq_nan_of_decode {x : Float} (h : decode x = .nan) : x = Float.nan := by
  have hbits : x.toBits.toNat / 2 ^ 52 % 2 ^ 11 = 2047 ∧ x.toBits.toNat % 2 ^ 52 ≠ 0 := by
    simp only [decode, beq_iff_eq, Nat.pow_eq] at h
    split at h
    · split at h
      · cases h
      · exact ⟨‹_›, ‹_›⟩
    · split at h <;> cases h
  have hexponent : @unpackExponent Format.binary64 x.toBits.toBitVec = -1#_ := by
    rw [unpackExponent_def]
    apply BitVec.eq_of_toNat_eq
    rw [BitVec.extractLsb'_toNat, Nat.shiftRight_eq_div_pow]
    exact hbits.1
  have hmantissa : @unpackMantissa Format.binary64 x.toBits.toBitVec ≠ 0#_ := by
    rw [unpackMantissa_def]
    intro hzero
    have hnat := congrArg BitVec.toNat hzero
    rw [BitVec.extractLsb'_toNat] at hnat
    exact hbits.2 hnat
  rw [← Float.toBits_inj, ← UInt64.toBitVec_inj]
  exact x.toModel.valid.eq_packedNaN hexponent hmantissa

/-- The sign, the exponent and the mantissa are all that a double is. -/
theorem decode_injective : Function.Injective decode := by
  intro x y h
  by_cases hnan : decode x = .nan
  · rw [eq_nan_of_decode hnan, eq_nan_of_decode (h.symm.trans hnan)]
  · obtain ⟨hxbits, hxsign⟩ := bits_decode hnan
    obtain ⟨hybits, hysign⟩ := bits_decode (h ▸ hnan)
    have hxlt := x.toBits.toNat_lt
    have hylt := y.toBits.toNat_lt
    have hsign : x.toBits.toNat / 2 ^ 63 = 1 ↔ y.toBits.toNat / 2 ^ 63 = 1 := by
      rw [← beq_iff_eq, ← hxsign, h, hysign, beq_iff_eq]
    rw [h, hybits] at hxbits
    rw [← Float.toBits_inj, ← UInt64.toNat_inj]
    omega

namespace Binary

/-- The number, with its sign. -/
def number (b : Binary) : ℚ := if b.negative then -b.magnitude else b.magnitude

theorem cast_sign (b : Binary) (n : ℕ) : (b.sign n : ℚ) = if b.negative then -(n : ℚ) else n := by
  unfold sign
  split <;> simp

theorem sign_eq_iff (b : Binary) {m : ℕ} {n : ℤ} (h : b.magnitude = m) :
    b.sign m = n ↔ b.number = n := by
  rw [number, h, ← cast_sign, Int.cast_inj]

theorem integer?_eq_some (b : Binary) (n : ℤ) : b.integer? = some n ↔ b.number = n := by
  by_cases hexp : 0 ≤ b.exponent
  · obtain ⟨k, hk⟩ := Int.eq_ofNat_of_zero_le hexp
    have hwhole : b.magnitude = (b.mantissa * 2 ^ k : ℕ) := by
      rw [magnitude, hk]
      push_cast
      rw [zpow_natCast]
    rw [← sign_eq_iff b hwhole, integer?, truncate, if_pos hexp, if_pos hexp, hk]
    exact Option.some_inj
  · obtain ⟨k, hk⟩ : ∃ k : ℕ, b.exponent = -(k : ℤ) := ⟨(-b.exponent).toNat, by omega⟩
    have hpow : (2 : ℚ) ^ k ≠ 0 := by positivity
    have hmagnitude : b.magnitude * 2 ^ k = b.mantissa := by
      rw [magnitude, hk, zpow_neg, zpow_natCast]
      field_simp
    have hplaces : (-b.exponent).toNat = k := by omega
    simp only [integer?, truncate, if_neg hexp, hplaces, Nat.pow_eq, beq_iff_eq]
    by_cases hdvd : b.mantissa % 2 ^ k = 0
    · have hwhole : b.magnitude = (b.mantissa / 2 ^ k : ℕ) := by
        rw [Nat.cast_div (Nat.dvd_of_mod_eq_zero hdvd) (by exact_mod_cast hpow)]
        push_cast
        rw [eq_div_iff hpow, hmagnitude]
      rw [if_pos hdvd, ← sign_eq_iff b hwhole]
      exact Option.some_inj
    · rw [if_neg hdvd]
      refine iff_of_false (Option.some_ne_none n).symm fun h => hdvd ?_
      -- An integer times the power of two is a multiple of it.
      have habs : b.magnitude = n.natAbs := by
        have hcast : ((n.natAbs : ℕ) : ℚ) = |(n : ℚ)| := by
          rw [Nat.cast_natAbs]
          push_cast
          rfl
        have hnonneg : 0 ≤ b.magnitude := by unfold magnitude; positivity
        rw [hcast, ← h, number]
        split
        · rw [abs_neg, abs_of_nonneg hnonneg]
        · rw [abs_of_nonneg hnonneg]
      rw [habs] at hmagnitude
      have hmultiple : n.natAbs * 2 ^ k = b.mantissa := by exact_mod_cast hmagnitude
      rw [← hmultiple, Nat.mul_mod_left]

theorem attracts_magnitude {b : Binary} : b.Attracts b.magnitude := by
  have hreach : (0 : ℚ) < b.reach := by
    rcases b.reach_cases with ⟨h, -⟩ | ⟨h, -⟩ <;> norm_num [h]
  refine attracts_of_lt ?_ ?_ <;> rw [quarters_magnitude] <;> linarith

theorem magnitude_eq_zero (b : Binary) : b.magnitude = 0 ↔ b.mantissa = 0 := by
  have hpow : (2 : ℚ) ^ b.exponent ≠ 0 := by positivity
  simp [magnitude, hpow]

/-- Two doubles of one size have the same bits, the sign aside. -/
theorem Normal.eq_of_magnitude {b c : Binary} (hb : b.Normal) (hc : c.Normal)
    (h : b.magnitude = c.magnitude) : b.mantissa = c.mantissa ∧ b.exponent = c.exponent :=
  attracts_magnitude.unique (h ▸ attracts_magnitude) hb hc

/-- The same number under two signs is zero. -/
theorem number_inj {b c : Binary} (h : b.number = c.number) :
    b.magnitude = c.magnitude ∧ (b.negative = c.negative ∨ b.mantissa = 0) := by
  have hb : 0 ≤ b.magnitude := by unfold magnitude; positivity
  have hc : 0 ≤ c.magnitude := by unfold magnitude; positivity
  rw [← magnitude_eq_zero]
  unfold number at h
  split at h <;> split at h <;> rename_i h1 h2
  · exact ⟨neg_inj.mp h, .inl (h1.trans h2.symm)⟩
  · exact ⟨by linarith, .inr (by linarith)⟩
  · exact ⟨by linarith, .inr (by linarith)⟩
  · exact ⟨h, .inl (by simp_all)⟩

end Binary

theorem decode_zero : decode 0 = .finite ⟨false, 0, leastExponent⟩ := by decide +kernel

theorem decode_neg_zero : decode (-0) = .finite ⟨true, 0, leastExponent⟩ := by decide +kernel

theorem eq_zero_of_mantissa {x : Float} {b : Binary} (h : decode x = .finite b) (hb : b.mantissa = 0) :
    x = 0 ∨ x = -0 := by
  have hexp := (normal_decode h).full.resolve_right (by omega)
  obtain ⟨negative, mantissa, exponent⟩ := b
  simp only at hb hexp
  subst hb hexp
  cases negative with
  | false => exact .inl (decode_injective (h.trans decode_zero.symm))
  | true => exact .inr (decode_injective (h.trans decode_neg_zero.symm))

theorem ne_nan_of_decode {x : Float} (h : decode x ≠ .nan) : x ≠ Float.nan := by
  rintro rfl
  exact h (by decide +kernel)

/-- Doubles that stand for the same number are equal. -/
theorem beq_of_number {x y : Float} {b c : Binary} (hx : decode x = .finite b) (hy : decode y = .finite c)
    (h : b.number = c.number) : (x == y) = true := by
  rw [Float.beq_iff_ne_nan_and_eq]
  refine ⟨ne_nan_of_decode (by simp [hx]), ne_nan_of_decode (by simp [hy]), ?_⟩
  obtain ⟨hsize, hsign⟩ := Binary.number_inj h
  obtain ⟨hmantissa, hexponent⟩ := (normal_decode hx).eq_of_magnitude (normal_decode hy) hsize
  by_cases hzero : b.mantissa = 0
  · have hx0 := eq_zero_of_mantissa hx hzero
    have hy0 := eq_zero_of_mantissa hy (hmantissa ▸ hzero)
    rcases hx0 with rfl | rfl <;> rcases hy0 with rfl | rfl <;> simp
  · left
    apply decode_injective
    obtain ⟨_, _, _⟩ := b
    obtain ⟨_, _, _⟩ := c
    simp only at hsign hzero hmantissa hexponent
    rw [hx, hy, hsign.resolve_right hzero, hmantissa, hexponent]

end Number
end SvgDiagram
