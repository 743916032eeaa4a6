import Mathlib.Data.List.Basic
import SvgDiagram.Proofs.Outline.Path

/-!
How a command takes its numbers. They are cut into groups of the size that its letter asks for, an incomplete
last group is left, and the end point of a group is the last two of its numbers. Main statement: a loop over
the places where groups begin picks exactly these points, without ever reaching beyond the numbers.
-/

namespace SvgDiagram
namespace Outline

section
variable {α : Type} {n : Nat}

theorem groups_eq_map (hn : 0 < n) (xs : List α) :
    groups n xs = (List.range (xs.length / n)).map fun k => (xs.drop (n * k)).take n := by
  fun_induction groups n xs with
  | case1 xs h ih =>
      have hcount : xs.length / n = (xs.drop n).length / n + 1 := by
        rw [List.length_drop, Nat.div_eq_sub_div hn h.2]
      rw [ih, hcount, List.range_succ_eq_map, List.map_cons, List.map_map]
      simp [Function.comp_def, Nat.mul_succ, Nat.add_comm]
  | case2 xs h =>
      have hnone : xs.length / n = 0 := Nat.div_eq_of_lt (by omega)
      simp [hnone]

/-- Numbers that come in complete groups are taken before the others, whatever these are. -/
theorem groups_append_of_dvd {xs : List α} (h : n ∣ xs.length) (ys : List α) :
    groups n (xs ++ ys) = groups n xs ++ groups n ys := by
  fun_induction groups n xs with
  | case1 xs hsize ih =>
      have hrest : n ∣ (xs.drop n).length := by
        rw [List.length_drop]
        exact Nat.dvd_sub h (Nat.dvd_refl n)
      have htake : xs ++ ys = xs.take n ++ (xs.drop n ++ ys) := by
        rw [← List.append_assoc, List.take_append_drop]
      rw [htake, groups_append hsize.1 (by simp [hsize.2]), ih hrest, List.cons_append]
  | case2 xs hsize =>
      -- A list shorter than `n` whose length `n` divides is empty.
      have hempty : n = 0 ∨ xs = [] := by
        rcases Nat.eq_zero_or_pos n with hn | hn
        · exact .inl hn
        · refine .inr (List.eq_nil_of_length_eq_zero (Nat.eq_zero_of_dvd_of_lt h ?_))
          omega
      rcases hempty with rfl | rfl
      · have hnone (zs : List α) : groups 0 zs = [] := by rw [groups, dif_neg (by omega)]
        simp only [hnone, List.append_nil]
      · rfl

/-- The places below `stop` that a loop visits which begins at the first one and goes on by `stride`. -/
def visited (stop stride : Nat) : List Nat := (List.range stop).filter (stride ∣ ·)

theorem visited_eq_map (hn : 0 < n) (stop : Nat) :
    visited stop n = (List.range ((stop + (n - 1)) / n)).map (n * ·) := by
  induction stop with
  | zero => simp [visited, Nat.div_eq_of_lt (Nat.sub_lt hn Nat.one_pos)]
  | succ stop ih =>
      have hcount : (stop + 1 + (n - 1)) / n = (stop + (n - 1)) / n + if n ∣ stop then 1 else 0 := by
        rw [Nat.add_right_comm, Nat.succ_div, Nat.add_assoc, Nat.sub_add_cancel hn]
        simp
      rw [visited, List.range_succ, List.filter_append, ← visited, ih, hcount]
      by_cases hdvd : n ∣ stop
      · obtain ⟨q, rfl⟩ := hdvd
        have hbefore : (n * q + (n - 1)) / n = q := by
          rw [Nat.mul_add_div hn, Nat.div_eq_of_lt (Nat.sub_lt hn Nat.one_pos), Nat.add_zero]
        rw [if_pos (Nat.dvd_mul_right n q), hbefore, List.range_succ, List.map_append]
        exact congrArg _ (List.filter_cons_of_pos (decide_eq_true (Nat.dvd_mul_right n q)))
      · simp [hdvd]

/-- The places where complete groups begin among `length` numbers. -/
theorem visited_starts (hn : 0 < n) (length : Nat) :
    visited (length - (n - 1)) n = (List.range (length / n)).map (n * ·) := by
  rw [visited_eq_map hn]
  rcases Nat.le_total (n - 1) length with h | h
  · rw [Nat.sub_add_cancel h]
  · rw [Nat.sub_eq_zero_of_le h, Nat.zero_add, Nat.div_eq_of_lt (Nat.sub_lt hn Nat.one_pos),
      show length / n = 0 from Nat.div_eq_of_lt (by omega)]

end

/-- The point whose coordinates are at a place and the one after it, if there are both. -/
def pointAt? (numbers : List Float) (place : Nat) : Option Point := do
  return ⟨← numbers[place]?, ← numbers[place + 1]?⟩

/-- The end points that a loop picks by the places of their coordinates. There are none if it once reaches
beyond the numbers. -/
def pickedEnds? (n : Nat) (numbers : List Float) : Option (List Point) :=
  (visited (numbers.length - (n - 1)) n).mapM fun start => pointAt? numbers (start + (n - 2))

theorem groupEnd?_eq_pointAt? {group : List Float} (h : 2 ≤ group.length) :
    groupEnd? group = pointAt? group (group.length - 2) := by
  rcases hreverse : group.reverse with _ | ⟨y, _ | ⟨x, front⟩⟩
  · simp [List.reverse_eq_nil_iff.mp hreverse] at h
  · simp [List.reverse_eq_iff.mp hreverse] at h
  · obtain rfl : group = front.reverse ++ [x, y] := by
      simpa using List.reverse_eq_iff.mp hreverse
    simp [groupEnd?, pointAt?]

section
variable {n k : Nat} {numbers : List Float}

/-- The complete groups do not reach beyond the numbers. -/
theorem group_end_le (hn : 2 ≤ n) (hk : k < numbers.length / n) : n * k + n ≤ numbers.length := by
  have h := (Nat.le_div_iff_mul_le (by omega)).mp hk
  rwa [Nat.succ_mul, Nat.mul_comm] at h

theorem exists_pointAt? (hn : 2 ≤ n) (hk : k < numbers.length / n) :
    ∃ x y, numbers[n * k + (n - 2)]? = some x ∧ numbers[n * k + (n - 1)]? = some y ∧
      pointAt? numbers (n * k + (n - 2)) = some ⟨x, y⟩ := by
  have hend := group_end_le hn hk
  have hplace : n * k + (n - 2) + 1 = n * k + (n - 1) := by omega
  refine ⟨_, _, List.getElem?_eq_getElem (by omega), List.getElem?_eq_getElem (by omega), ?_⟩
  rw [pointAt?, hplace, List.getElem?_eq_getElem (by omega), List.getElem?_eq_getElem (by omega)]
  rfl

/-- The end point of a group is at its last two places. -/
theorem groupEnd?_group (hn : 2 ≤ n) (hk : k < numbers.length / n) :
    groupEnd? ((numbers.drop (n * k)).take n) = pointAt? numbers (n * k + (n - 2)) := by
  have hend := group_end_le hn hk
  have hlength : ((numbers.drop (n * k)).take n).length = n := by
    rw [List.length_take, List.length_drop]
    omega
  have hplace (i : Nat) (hi : i < n) :
      ((numbers.drop (n * k)).take n)[i]? = numbers[n * k + i]? := by
    rw [List.getElem?_take_of_lt hi, List.getElem?_drop]
  rw [groupEnd?_eq_pointAt? (by omega), hlength, pointAt?, hplace _ (by omega), hplace _ (by omega)]
  rfl

theorem filterMap_groupEnd?_groups (hn : 2 ≤ n) (numbers : List Float) :
    (groups n numbers).filterMap groupEnd? =
      (List.range (numbers.length / n)).filterMap fun k => pointAt? numbers (n * k + (n - 2)) := by
  rw [groups_eq_map (by omega), List.filterMap_map]
  exact List.filterMap_congr fun k hk => groupEnd?_group hn (List.mem_range.mp hk)

end

/-- A pass that never fails gives what it finds at every item. -/
theorem mapM_eq_some_filterMap {α β : Type} {f : α → Option β} {xs : List α}
    (h : ∀ x ∈ xs, (f x).isSome = true) :
    xs.mapM f = some (xs.filterMap f) ∧ (xs.filterMap f).length = xs.length ∧
      ∀ k : Nat, (xs.filterMap f)[k]? = xs[k]?.bind f := by
  induction xs with
  | nil => simp
  | cons x xs ih =>
      rw [List.forall_mem_cons] at h
      obtain ⟨y, hy⟩ := Option.isSome_iff_exists.mp h.1
      obtain ⟨hpass, hlength, hitem⟩ := ih h.2
      refine ⟨?_, ?_, ?_⟩
      · simp [hy, hpass]
      · simp [hy, hlength]
      · intro k
        cases k with
        | zero => simp [hy]
        | succ k => simpa [hy] using hitem k

/-- How many numbers the command with a letter takes for each of its end points, if it leads to any. -/
def sizeOfLetter? : Char → Option Nat
  | 'M' | 'm' | 'L' | 'l' | 'T' | 't' => some 2
  | 'S' | 's' | 'Q' | 'q' => some 4
  | 'C' | 'c' => some 6
  | 'A' | 'a' => some 7
  | _ => none

theorem two_le_sizeOfLetter? {c : Char} {n : Nat} (h : sizeOfLetter? c = some n) : 2 ≤ n := by
  unfold sizeOfLetter? at h
  split at h <;> cases h <;> decide

theorem endPoints_letter {c : Char} {n : Nat} (h : sizeOfLetter? c = some n) (numbers : List Float) :
    endPoints [c] numbers = (groups n numbers).filterMap groupEnd? := by
  unfold sizeOfLetter? at h
  split at h <;> cases h <;> rfl

/-- The end points of a command: the loop that picks them never reaches beyond the numbers, finds one for every
complete group and takes the last two numbers of that group; complete groups that are given first can as well
be given to a command of their own. The letters that lead to no point have none. -/
theorem endPoints_in_groups (c : Char) (numbers : List Float) :
    (∀ n, sizeOfLetter? c = some n →
      pickedEnds? n numbers = some (endPoints [c] numbers) ∧
      (endPoints [c] numbers).length = numbers.length / n ∧
      (∀ k < numbers.length / n, ∃ x y, numbers[n * k + (n - 2)]? = some x ∧
        numbers[n * k + (n - 1)]? = some y ∧ (endPoints [c] numbers)[k]? = some ⟨x, y⟩) ∧
      (n ∣ numbers.length → ∀ more : List Float,
        endPoints [c] (numbers ++ more) = endPoints [c] numbers ++ endPoints [c] more)) ∧
    (c ∈ ['H', 'h', 'V', 'v', 'Z', 'z'] → endPoints [c] numbers = []) := by
  constructor
  · intro n hsize
    have hn := two_le_sizeOfLetter? hsize
    have hsome : ∀ k ∈ List.range (numbers.length / n),
        (pointAt? numbers (n * k + (n - 2))).isSome = true := by
      intro k hk
      obtain ⟨x, y, -, -, hpoint⟩ := exists_pointAt? hn (List.mem_range.mp hk)
      rw [hpoint, Option.isSome_some]
    obtain ⟨hpicked, hlength, hitem⟩ := mapM_eq_some_filterMap hsome
    have hends := endPoints_letter hsize numbers
    rw [filterMap_groupEnd?_groups hn] at hends
    refine ⟨?_, ?_, ?_, ?_⟩
    · rw [pickedEnds?, visited_starts (by omega), List.mapM_map, hends, ← hpicked]
      rfl
    · rw [hends, hlength, List.length_range]
    · intro k hk
      obtain ⟨x, y, hx, hy, hpoint⟩ := exists_pointAt? hn hk
      refine ⟨x, y, hx, hy, ?_⟩
      rw [hends, hitem, List.getElem?_range hk, Option.bind_some, hpoint]
    · intro hdvd more
      simp only [endPoints_letter hsize, groups_append_of_dvd hdvd, List.filterMap_append]
  · intro hc
    simp only [List.mem_cons, List.not_mem_nil, or_false] at hc
    rcases hc with rfl | rfl | rfl | rfl | rfl | rfl <;> rfl

def nineNumbers : List Float := [1.0, 2.0, 3.0, 4.0, 5.0, 6.0, 7.0, 8.0, 9.0]

/-- Two groups of four, and a number that is left; the first group may have a command of its own. -/
theorem nineNumbers_two_ends :
    sizeOfLetter? 'q' = some 4 ∧ (endPoints ['q'] nineNumbers).length = 2 ∧
      (endPoints ['q'] nineNumbers)[1]? = some ⟨7.0, 8.0⟩ ∧
      4 ∣ (nineNumbers.take 4).length ∧
      endPoints ['q'] nineNumbers =
        endPoints ['q'] (nineNumbers.take 4) ++ endPoints ['q'] (nineNumbers.drop 4) ∧
      'v' ∈ ['H', 'h', 'V', 'v', 'Z', 'z'] ∧ endPoints ['v'] nineNumbers = [] := by
  obtain ⟨-, hlength, hitem, -⟩ := (endPoints_in_groups 'q' nineNumbers).1 4 rfl
  obtain ⟨x, y, hx, hy, hpoint⟩ := hitem 1 (by decide)
  cases hx
  cases hy
  exact ⟨rfl, hlength, hpoint, by decide,
    ((endPoints_in_groups 'q' (nineNumbers.take 4)).1 4 rfl).2.2.2 (by decide) (nineNumbers.drop 4),
    by decide, (endPoints_in_groups 'v' nineNumbers).2 (by decide)⟩

end Outline
end SvgDiagram
