import SvgDiagram.Proofs.Access.Cover

/-!
The search for a pattern from two positions, one in the components of a directory and one in those of the
pattern. It goes ahead by one component, or tries a `**` on nothing and then on one component more. What it
finds out is whether the rest of the pattern matches some leading components of the rest of the directory.
-/

namespace SvgDiagram
namespace Access

section
variable (accepts : String → String → Bool)

/-- The rest of a directory that has ended is matched by nothing but deep components. -/
theorem matchParts_nil_right (pattern : List String) :
    matchParts accepts pattern [] = pattern.all (· == "**") := by
  induction pattern with
  | nil => rfl
  | cons part rest ih =>
      by_cases deep : part = "**"
      · simp [matchParts, deep, suffixes, ih]
      · simp [matchParts, deep]

/-- A deep component stands for nothing, or for one component and then for what follows it. -/
theorem matchParts_deep_cons (rest : List String) (component : String) (below : List String) :
    matchParts accepts ("**" :: rest) (component :: below) =
      (matchParts accepts rest (component :: below) || matchParts accepts ("**" :: rest) below) := by
  simp [matchParts, suffixes]

/-- A search takes its steps from one component to the next, and comes back to a deep component. -/
structure Backtracks (directory pattern : List String) (search : Nat → Nat → Bool) : Prop where
  done : ∀ i j, pattern.length ≤ j → search i j = true
  ended : ∀ i j, directory.length ≤ i → search i j = (pattern.drop j).all (· == "**")
  deep : ∀ i j, i < directory.length → pattern[j]? = some "**" →
    search i j = (search i (j + 1) || search (i + 1) j)
  part : ∀ i j part component, pattern[j]? = some part → part ≠ "**" →
    directory[i]? = some component →
    search i j = (fits accepts part component && search (i + 1) (j + 1))

end

theorem drop_of_getElem? {α : Type} {xs : List α} {i : Nat} {x : α} (h : xs[i]? = some x) :
    xs.drop i = x :: xs.drop (i + 1) := by
  obtain ⟨hi, rfl⟩ := List.getElem?_eq_some_iff.mp h
  exact List.drop_eq_getElem_cons hi

theorem backtracks_matchFrom (accepts : String → String → Bool) (directory pattern : List String) :
    Backtracks accepts directory pattern (matchFrom accepts directory pattern) where
  done i j hj := by
    rw [matchFrom, List.drop_of_length_le hj, matchParts]
  ended i j hi := by
    rw [matchFrom, List.drop_of_length_le hi, matchParts_nil_right]
  deep i j hi hj := by
    have hcomponent := List.drop_eq_getElem_cons hi
    simp only [matchFrom, drop_of_getElem? hj, hcomponent, matchParts_deep_cons]
  part i j part component hj deep hi := by
    simp only [matchFrom, drop_of_getElem? hj, drop_of_getElem? hi, matchParts, beq_iff_eq, deep,
      ite_false]

/-- The search from two positions takes the steps of backtracking, and answers yes exactly if some leading
components of the rest of the directory are matched by the rest of the pattern. -/
theorem matchFrom_iff_glob (accepts : String → String → Bool) (directory pattern : List String) :
    Backtracks accepts directory pattern (matchFrom accepts directory pattern) ∧
      ∀ i j, matchFrom accepts directory pattern i j = true ↔
        ∃ lead, lead <+: directory.drop i ∧ Glob accepts (pattern.drop j) lead := by
  refine ⟨backtracks_matchFrom accepts directory pattern, fun i j => ?_⟩
  rw [matchFrom, matchParts_iff]

/-- The directory has `out` twice, and what the pattern asks for next comes only after the second one. -/
example : matchFrom accepts ["/", "out", "out", "b"] ["/", "**", "o?t", "b*"] 0 0 = true := by
  decide +kernel

end Access
end SvgDiagram
