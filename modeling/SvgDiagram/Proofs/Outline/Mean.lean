import SvgDiagram.Proofs.Number.Whole
import SvgDiagram.Proofs.Outline.Path

/-!
The mean of points with whole coordinates. As long as the points are few and near the origin their sums are
exact, and each coordinate of the mean is rounded once. Main statement: two such lists of points have the same
centre only if they have the same mean.
-/

namespace SvgDiagram
namespace Outline

/-- The exact mean of some points. -/
def mean? (ps : List (ℤ × ℤ)) : Option (ℚ × ℚ) :=
  if ps.isEmpty then none
  else some ((ps.map Prod.fst).sum / ps.length, (ps.map Prod.snd).sum / ps.length)

theorem mean?_eq_iff {ps qs : List (ℤ × ℤ)} (h : ps.length = qs.length) :
    mean? ps = mean? qs ↔ ps.sum = qs.sum := by
  have hfst (ps : List (ℤ × ℤ)) : (ps.map Prod.fst).sum = ps.sum.1 :=
    (map_list_sum (AddMonoidHom.fst ℤ ℤ) ps).symm
  have hsnd (ps : List (ℤ × ℤ)) : (ps.map Prod.snd).sum = ps.sum.2 :=
    (map_list_sum (AddMonoidHom.snd ℤ ℤ) ps).symm
  by_cases hps : ps = []
  · obtain rfl : qs = [] := by simpa [hps] using h.symm
    rw [hps]
    simp
  · have hqs : qs ≠ [] := by
      rintro rfl
      exact hps (List.length_eq_zero_iff.mp h)
    have hpos : (qs.length : ℚ) ≠ 0 := by simpa using hqs
    simp only [mean?, List.isEmpty_iff, hps, hqs, ite_false, h, hfst, hsnd, Option.some.injEq,
      div_left_inj' hpos, Int.cast_inj, Prod.ext_iff]

/-- Points that are few enough and near enough for exact sums. -/
structure Drawable (ps : List (ℤ × ℤ)) : Prop where
  count : ps.length < 2 ^ 16
  near : ∀ p ∈ ps, |p.1| < 2 ^ 20 ∧ |p.2| < 2 ^ 20

section
variable {α : Type} {value : α → Float} {number : α → ℤ}

theorem foldl_add_isNearest {xs : List α} (h : ∀ a ∈ xs, Number.HasValue (value a) (number a))
    {f : Float} {z : ℤ} (hf : Number.IsNearest f z)
    (hsize : |z| + (xs.map fun a => |number a|).sum < 2 ^ 53) :
    Number.IsNearest ((xs.map value).foldl (· + ·) f) (z + (xs.map number).sum : ℤ) := by
  -- The sum so far and what is still to come stay below `2 ^ 53` together.
  induction xs generalizing f z with
  | nil => simpa using hf
  | cons a xs ih =>
      rw [List.forall_mem_cons] at h
      simp only [List.map_cons, List.sum_cons, List.foldl_cons, ← add_assoc] at hsize ⊢
      have hrest : 0 ≤ (xs.map fun a => |number a|).sum :=
        List.sum_nonneg (by simp)
      have hz := abs_nonneg z
      have ha := abs_nonneg (number a)
      have hsum := abs_add_le z (number a)
      exact ih h.2 (hf.add h.1 (by linarith) (by linarith)) (by linarith)

theorem abs_sum_map_le (xs : List α) : |(xs.map number).sum| ≤ (xs.map fun a => |number a|).sum := by
  simpa [Function.comp_def] using
    Multiset.abs_sum_le_sum_abs (s := ((xs.map number : List ℤ) : Multiset ℤ))

theorem total_isNearest {xs : List α} (h : ∀ a ∈ xs, Number.HasValue (value a) (number a))
    (hnear : ∀ a ∈ xs, |number a| < 2 ^ 20) (hcount : xs.length < 2 ^ 16) :
    Number.IsNearest (total (xs.map value)) (xs.map number).sum ∧ |(xs.map number).sum| ≤ 2 ^ 36 := by
  have hsum : (xs.map fun a => |number a|).sum ≤ 2 ^ 36 := by
    have hbound : ∀ x ∈ xs.map fun a => |number a|, x ≤ 2 ^ 20 := by
      intro x hx
      obtain ⟨a, ha, rfl⟩ := List.mem_map.mp hx
      exact (hnear a ha).le
    have hcard := List.sum_le_card_nsmul _ _ hbound
    rw [List.length_map, nsmul_eq_mul] at hcard
    have hcount' : (xs.length : ℤ) < 2 ^ 16 := by exact_mod_cast hcount
    linarith
  constructor
  · have hzero : Number.IsNearest 0.0 (0 : ℤ) := by exact_mod_cast Number.isNearest_zero
    have := foldl_add_isNearest h hzero (by simp only [abs_zero]; linarith)
    rwa [zero_add] at this
  · exact le_trans (abs_sum_map_le xs) hsum

theorem total_div_eq_iff (value : α → Float) (number : α → ℤ) {xs ys : List α}
    (hx : ∀ a ∈ xs, Number.HasValue (value a) (number a))
    (hy : ∀ a ∈ ys, Number.HasValue (value a) (number a)) (hxnear : ∀ a ∈ xs, |number a| < 2 ^ 20)
    (hynear : ∀ a ∈ ys, |number a| < 2 ^ 20) (hxcount : xs.length < 2 ^ 16)
    (hycount : ys.length < 2 ^ 16) (hxne : xs ≠ []) (hyne : ys ≠ []) :
    total (xs.map value) / Float.ofNat xs.length = total (ys.map value) / Float.ofNat ys.length ↔
      ((xs.map number).sum : ℚ) / xs.length = (ys.map number).sum / ys.length := by
  obtain ⟨hxtotal, hxsum⟩ := total_isNearest hx hxnear hxcount
  obtain ⟨hytotal, hysum⟩ := total_isNearest hy hynear hycount
  have hxlength := List.length_pos_iff.mpr hxne
  have hylength := List.length_pos_iff.mpr hyne
  have hsize : |(xs.map number).sum| * ys.length + |(ys.map number).sum| * xs.length < 2 ^ 53 := by
    have hxcount' : (xs.length : ℤ) < 2 ^ 16 := by exact_mod_cast hxcount
    have hycount' : (ys.length : ℤ) < 2 ^ 16 := by exact_mod_cast hycount
    have hx' : |(xs.map number).sum| * ys.length ≤ 2 ^ 36 * ys.length := by gcongr
    have hy' : |(ys.map number).sum| * xs.length ≤ 2 ^ 36 * xs.length := by gcongr
    linarith
  exact hxtotal.quotient_eq_iff (Number.ofScientific_isNearest (by omega)) hytotal
    (Number.ofScientific_isNearest (by omega)) hxlength hylength hsize (by omega) (by omega)

theorem centroid_of_ne_nil (value : α → Float) (number : α → ℤ) {ps : List (α × α)} (hne : ps ≠ []) :
    centroid (ps.map (pointOf value)) =
        .ok ⟨total (ps.map fun p => value p.1) / Float.ofNat ps.length,
          total (ps.map fun p => value p.2) / Float.ofNat ps.length⟩ ∧
      mean? (ps.map (Prod.map number number)) =
        some (((ps.map fun p => number p.1).sum : ℚ) / ps.length,
          ((ps.map fun p => number p.2).sum : ℚ) / ps.length) := by
  constructor
  · simp only [centroid, List.isEmpty_map, List.isEmpty_iff, hne, ite_false, List.length_map,
      List.map_map]
    rfl
  · simp only [mean?, List.isEmpty_map, List.isEmpty_iff, hne, ite_false, List.length_map,
      List.map_map]
    rfl

/-- The centre tells lists of points apart as far as their means differ. -/
theorem centroid_eq_iff {ps qs : List (α × α)}
    (hp : ∀ p ∈ ps, Number.HasValue (value p.1) (number p.1) ∧ Number.HasValue (value p.2) (number p.2))
    (hq : ∀ p ∈ qs, Number.HasValue (value p.1) (number p.1) ∧ Number.HasValue (value p.2) (number p.2))
    (hps : Drawable (ps.map (Prod.map number number)))
    (hqs : Drawable (qs.map (Prod.map number number))) :
    centroid (ps.map (pointOf value)) = centroid (qs.map (pointOf value)) ↔
      mean? (ps.map (Prod.map number number)) = mean? (qs.map (Prod.map number number)) := by
  have hempty : centroid (([] : List (α × α)).map (pointOf value)) = .error .noCoordinates ∧
      mean? (([] : List (α × α)).map (Prod.map number number)) = none := ⟨rfl, rfl⟩
  have hpcount : ps.length < 2 ^ 16 := by simpa using hps.count
  have hqcount : qs.length < 2 ^ 16 := by simpa using hqs.count
  have hpnear := List.forall_mem_map.mp hps.near
  have hqnear := List.forall_mem_map.mp hqs.near
  by_cases hpne : ps = [] <;> by_cases hqne : qs = []
  · rw [hpne, hqne]
    simp
  · obtain ⟨hcentre, hmean⟩ := centroid_of_ne_nil value number hqne
    rw [hpne, hempty.1, hempty.2, hcentre, hmean]
    simp
  · obtain ⟨hcentre, hmean⟩ := centroid_of_ne_nil value number hpne
    rw [hqne, hempty.1, hempty.2, hcentre, hmean]
    simp
  · obtain ⟨hpcentre, hpmean⟩ := centroid_of_ne_nil value number hpne
    obtain ⟨hqcentre, hqmean⟩ := centroid_of_ne_nil value number hqne
    have hx := total_div_eq_iff (fun p : α × α => value p.1) (fun p => number p.1)
      (fun p h => (hp p h).1) (fun p h => (hq p h).1) (fun p h => (hpnear p h).1)
      (fun p h => (hqnear p h).1) hpcount hqcount hpne hqne
    have hy := total_div_eq_iff (fun p : α × α => value p.2) (fun p => number p.2)
      (fun p h => (hp p h).2) (fun p h => (hq p h).2) (fun p h => (hpnear p h).2)
      (fun p h => (hqnear p h).2) hpcount hqcount hpne hqne
    rw [hpcentre, hpmean, hqcentre, hqmean, Except.ok.injEq, Point.mk.injEq, Option.some.injEq,
      Prod.mk.injEq, hx, hy]

end

end Outline
end SvgDiagram
