import SvgDiagram.Element.Field
import SvgDiagram.Proofs.Number.Plain
import SvgDiagram.Proofs.Value.Table

/-!
Fields of a table: where they are found, and what their values are converted to.
-/

namespace SvgDiagram
namespace Field

theorem find?_single (t : Table) (name : String) : find? t [name] = Table.field? t name := by
  simp only [find?]
  cases Table.field? t name <;> rfl

theorem find?_pair (t : Table) (first second : String) :
    find? t [first, second] = (Table.field? t first).or (Table.field? t second) := by
  simp only [find?]
  cases Table.field? t first with
  | some v => rfl
  | none => cases Table.field? t second <;> rfl

section
variable {α : Type} {convert : Value → Option α} {t : Table} {names : List String}

theorem accepted_eq_ok {o : Option α} {a : α} : accepted o = .ok a ↔ o = some a := by
  cases o <;> simp [accepted]

theorem need_eq_ok {a : α} : need convert t names = .ok a ↔ (find? t names).bind convert = some a :=
  accepted_eq_ok

theorem getOr_eq_ok {default a : α} : getOr convert t names default = .ok a ↔
    find? t names = none ∧ default = a ∨ ∃ v, find? t names = some v ∧ convert v = some a := by
  rw [getOr]
  cases find? t names with
  | none => simp
  | some v => simp [accepted_eq_ok]

/-- A field that may be left out has no value, or one that is converted. -/
theorem get?_cases {o : Option α} (h : get? convert t names = .ok o) :
    o = none ∧ (find? t names = none ∨ find? t names = some .null) ∨
      ∃ v a, find? t names = some v ∧ convert v = some a ∧ o = some a := by
  rw [get?] at h
  split at h
  · rename_i hfound
    cases h
    exact .inl ⟨rfl, .inl hfound⟩
  · rename_i hfound
    cases h
    exact .inl ⟨rfl, .inr hfound⟩
  · rename_i v _ hfound
    obtain ⟨a, ha, rfl⟩ := Option.map_eq_some_iff.mp (accepted_eq_ok.mp h)
    exact .inr ⟨v, a, hfound, ha, rfl⟩

end

theorem asTable?_eq_some {v : Value} {t : Table} (h : asTable? v = some t) : v = .table t := by
  cases v with
  | table u =>
      cases h
      rfl
  | _ => cases h

theorem items_of_asItems? {v : Value} {vs : List Value} (h : asItems? v = some vs) :
    v.items = .ok vs := by
  cases v with
  | list _ | set _ | pair _ _ =>
      cases h
      rfl
  | _ => cases h

theorem isGiven_of_asItems? {v : Value} {vs : List Value} (h : asItems? v = some vs) :
    v.isGiven = !vs.isEmpty := by
  cases v with
  | list _ | set _ | pair _ _ =>
      cases h
      rfl
  | _ => cases h

/-- What counts as a real in a field stands for that real. -/
theorem toFloat_of_asReal? {v : Value} {x : Float} (h : asReal? v = some x) : v.toFloat = .ok x := by
  cases v with
  | bool b =>
      cases h
      rfl
  | int n => exact Outcome.toOption_eq_some.mp h
  | float y =>
      cases h
      rfl
  | string s => rw [Value.toFloat, Number.readFloat?_of_readPlainFloat? h]
  | bytes data =>
      obtain ⟨s, hs, hx⟩ := Option.bind_eq_some_iff.mp h
      rw [Value.toFloat, hs, Option.bind_some, Number.readFloat?_of_readPlainFloat? hx]
  | _ => cases h

/-- A number field that a table has is read as the real that it stands for. -/
theorem toFloat_of_realOr {t : Table} {name : String} {v : Value} (hv : Table.field? t name = some v)
    {x default : Float} (h : realOr t [name] default = .ok x) : v.toFloat = .ok x := by
  rw [realOr, getOr, find?_single, hv] at h
  exact toFloat_of_asReal? (accepted_eq_ok.mp h)

theorem realOr_of_field? {t : Table} {name : String} {v : Value} (hv : Table.field? t name = some v)
    {x y default : Float} (hx : v.toFloat = .ok x) (hy : realOr t [name] default = .ok y) : y = x := by
  have hxy := (toFloat_of_realOr hv hy).symm.trans hx
  cases hxy
  rfl

theorem part_of_real {t : Table} {name : String} {x : Float} (h : real t [name] = .ok x) :
    ∃ v, (Value.table t).part name = .ok v ∧ v.toFloat = .ok x := by
  rw [real, need_eq_ok, find?_single] at h
  obtain ⟨v, hv, hx⟩ := Option.bind_eq_some_iff.mp h
  exact ⟨v, Value.part_eq_ok.mpr ⟨t, rfl, hv⟩, toFloat_of_asReal? hx⟩

end Field
end SvgDiagram
