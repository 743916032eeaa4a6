import SvgDiagram.Proofs.Outcome
import SvgDiagram.Value.Shape

/-!
Tables through their text keys. A text is the same key as itself only, so a table answers for its text
keys like a map from texts to values. Whether two values are the same is computed, real numbers apart.
-/

namespace SvgDiagram

theorem Value.sameKey_string (v : Value) (name : String) :
    v.sameKey (.string name) = true ↔ v = .string name := by
  cases v with
  | string s => simp [Value.sameKey]
  | _ =>
      simp [Value.sameKey, Value.integer?]

theorem Value.string_sameKey (v : Value) (name : String) :
    (Value.string name).sameKey v = true ↔ v = .string name := by
  cases v with
  | string s =>
      simp only [Value.sameKey, beq_iff_eq, Value.string.injEq]
      exact eq_comm
  | _ =>
      simp [Value.sameKey, Value.integer?]

theorem Value.isText_iff (v : Value) (name : String) : v.isText name = true ↔ v = .string name := by
  cases v with
  | string s => simp [Value.isText]
  | _ => simp [Value.isText]

theorem Value.sameKey_eq_isText (v : Value) (name : String) :
    v.sameKey (.string name) = v.isText name := by
  rw [Bool.eq_iff_iff, Value.sameKey_string, Value.isText_iff]

namespace Table

theorem field?_cons (key v : Value) (t : Table) (name : String) :
    Table.field? ((key, v) :: t) name =
      if key.sameKey (.string name) then some v else Table.field? t name := by
  simp only [field?, get?, List.find?_cons]
  cases key.sameKey (.string name) <;> rfl

/-- A table whose values are changed, each according to its key, has the changed values. -/
theorem field?_map (f : Value → Value → Value) (t : Table) (name : String) :
    Table.field? (t.map fun e => (e.1, f e.1 e.2)) name =
      (Table.field? t name).map (f (.string name)) := by
  induction t with
  | nil => rfl
  | cons e t ih =>
      obtain ⟨key, v⟩ := e
      simp only [List.map_cons, field?_cons, ih]
      by_cases hk : key.sameKey (.string name) = true
      · obtain rfl := (Value.sameKey_string key name).mp hk
        simp [hk]
      · simp [hk]

theorem contains_string (t : Table) (name : String) :
    Table.contains t (.string name) = (Table.field? t name).isSome := by
  induction t with
  | nil => rfl
  | cons e t ih =>
      obtain ⟨key, v⟩ := e
      rw [field?_cons]
      cases h : key.sameKey (.string name) with
      | true => simp [contains, h]
      | false => simpa [contains, h] using ih

/-- After a key is set, it has the new value, and every other text key keeps its value. -/
theorem field?_set_key (t : Table) (key v : Value) (name : String) :
    Table.field? (Table.set key v t) name =
      if key.isText name then some v else Table.field? t name := by
  induction t with
  | nil => simp only [Table.set, field?_cons, Value.sameKey_eq_isText]
  | cons e t ih =>
      obtain ⟨own, u⟩ := e
      simp only [Table.set]
      by_cases hk : own.sameKey key = true
      · simp only [hk, ite_true, field?_cons]
        by_cases hown : own.sameKey (.string name) = true
        · -- The entry under the name is the one that is set.
          obtain rfl := (Value.sameKey_string own name).mp hown
          obtain rfl := (Value.string_sameKey key name).mp hk
          simp [Value.sameKey, Value.isText]
        · have hkey : key.isText name = false := by
            rw [Bool.eq_false_iff, ne_eq, Value.isText_iff]
            rintro rfl
            exact hown hk
          simp [hown, hkey]
      · simp only [hk, Bool.false_eq_true, ite_false, field?_cons, ih]
        by_cases hown : own.sameKey (.string name) = true
        · have hkey : key.isText name = false := by
            rw [Bool.eq_false_iff, ne_eq, Value.isText_iff]
            rintro rfl
            exact hk hown
          simp [hown, hkey]
        · simp [hown]

theorem field?_set (t : Table) (name other : String) (v : Value) :
    Table.field? (Table.set (.string name) v t) other =
      if name = other then some v else Table.field? t other := by
  rw [field?_set_key]
  simp [Value.isText]

theorem key_of_mem_set {key v : Value} {t : Table} {e : Value × Value}
    (h : e ∈ Table.set key v t) : e.1 = key ∨ ∃ e' ∈ t, e'.1 = e.1 := by
  induction t with
  | nil =>
      rw [Table.set, List.mem_singleton] at h
      exact .inl (by rw [h])
  | cons u t ih =>
      rw [Table.set] at h
      split at h
      · obtain rfl | h := List.mem_cons.mp h
        · exact .inr ⟨u, List.mem_cons_self, rfl⟩
        · exact .inr ⟨e, List.mem_cons_of_mem _ h, rfl⟩
      · obtain rfl | h := List.mem_cons.mp h
        · exact .inr ⟨e, List.mem_cons_self, rfl⟩
        · obtain hkey | ⟨e', he', hkey⟩ := ih h
          · exact .inl hkey
          · exact .inr ⟨e', List.mem_cons_of_mem _ he', hkey⟩

theorem field?_setField (t : Table) (name other : String) (v : Value) :
    Table.field? (Table.setField t name v) other =
      if name = other then some v else Table.field? t other :=
  field?_set t name other v

/-- Setting a text key to the value that it has changes nothing. -/
theorem setField_eq_self {t : Table} {name : String} {v : Value}
    (h : Table.field? t name = some v) : Table.setField t name v = t := by
  induction t with
  | nil => cases h
  | cons e t ih =>
      obtain ⟨key, u⟩ := e
      rw [field?_cons] at h
      simp only [setField, Table.set] at ih ⊢
      by_cases hk : key.sameKey (.string name) = true
      · simp only [hk, ite_true, Option.some.injEq] at h ⊢
        rw [h]
      · simp only [hk, Bool.false_eq_true, ite_false] at h ⊢
        rw [ih h]

theorem field?_append (t u : Table) (name : String) :
    Table.field? (t ++ u) name = (Table.field? t name).or (Table.field? u name) := by
  induction t with
  | nil => rfl
  | cons e t ih =>
      obtain ⟨key, v⟩ := e
      rw [List.cons_append, field?_cons, field?_cons, ih]
      split <;> rfl

/-- Of the entries whose keys are kept, a table has the values that it had. -/
theorem field?_filter (kept : Value → Bool) (t : Table) (name : String) :
    Table.field? (t.filter fun e => kept e.1) name =
      if kept (.string name) then Table.field? t name else none := by
  induction t with
  | nil => simp [field?, get?]
  | cons e t ih =>
      obtain ⟨key, v⟩ := e
      by_cases hkey : key.sameKey (.string name) = true
      · obtain rfl := (Value.sameKey_string key name).mp hkey
        by_cases hkept : kept (.string name) = true
        · simp [hkept, field?_cons, hkey]
        · simpa [hkept] using ih
      · by_cases hkept : kept key = true
        · simpa [hkept, field?_cons, hkey] using ih
        · simpa [hkept, field?_cons, hkey] using ih

theorem field?_erase (t : Table) (name other : String) :
    Table.field? (Table.erase t (.string name)) other =
      if name = other then none else Table.field? t other := by
  rw [erase, field?_filter fun key => !key.sameKey (.string name)]
  by_cases h : name = other
  · simp [h, Value.sameKey]
  · simp [h, Value.sameKey, Ne.symm h]

/-- No key comes twice. -/
def Distinct (t : Table) : Prop := t.Pairwise fun a b => a.1.sameKey b.1 = false

instance (t : Table) : Decidable (Distinct t) :=
  inferInstanceAs (Decidable (t.Pairwise fun a b => a.1.sameKey b.1 = false))

theorem field?_reverse {t : Table} (h : Distinct t) (name : String) :
    Table.field? t.reverse name = Table.field? t name := by
  induction t with
  | nil => rfl
  | cons e t ih =>
      obtain ⟨key, v⟩ := e
      obtain ⟨hfirst, hrest⟩ := List.pairwise_cons.mp h
      rw [List.reverse_cons, field?_append, ih hrest, field?_cons, field?_cons]
      by_cases hkey : key.sameKey (.string name) = true
      · obtain rfl := (Value.sameKey_string key name).mp hkey
        have hnone : Table.field? t name = none := by
          rw [← Option.not_isSome_iff_eq_none, ← contains_string, contains, List.any_eq_true]
          rintro ⟨e, he, hsame⟩
          have hne := hfirst e he
          rw [(Value.sameKey_string e.1 name).mp hsame, hkey] at hne
          cases hne
        simp [hkey, hnone]
      · simp [hkey, field?, get?]

/-- The entries that are set come before those that were there. -/
theorem field?_update (t : Table) {u : Table} (h : Distinct u) (name : String) :
    Table.field? (Table.update t u) name = (Table.field? u name).or (Table.field? t name) := by
  have hlast (t u : Table) : Table.field? (Table.update t u) name =
      (Table.field? u.reverse name).or (Table.field? t name) := by
    induction u generalizing t with
    | nil => rfl
    | cons e u ih =>
        have hstep : Table.update t (e :: u) = Table.update (Table.set e.1 e.2 t) u := rfl
        rw [hstep, ih, List.reverse_cons, field?_append, field?_set_key, field?_cons,
          Value.sameKey_eq_isText, Option.or_assoc]
        split <;> rfl
  rw [hlast, field?_reverse h]

end Table

namespace Value

theorem part_eq_ok {v w : Value} {name : String} :
    v.part name = .ok w ↔ ∃ t, v = .table t ∧ Table.field? t name = some w := by
  cases v with
  | table t => cases h : Table.field? t name <;> simp [Value.part, h]
  | _ => simp [Value.part]

/-- Only a table has entries. -/
theorem eq_table_of_entries {v : Value} {t : Table} (h : v.entries = .ok t) : v = .table t := by
  cases v with
  | table u =>
      cases h
      rfl
  | _ => cases h

mutual

/-- Whether two values are the same. Real numbers are the same as nothing. -/
def same : Value → Value → Bool
  | .null, .null => true
  | .bool a, .bool b => a == b
  | .int m, .int n => m == n
  | .string s, .string t => s == t
  | .bytes a, .bytes b => a == b
  | .moment m, .moment n => m == n
  | .list vs, .list ws | .set vs, .set ws => sameItems vs ws
  | .pair a b, .pair c d => same a c && same b d
  | .table t, .table u => sameEntries t u
  | _, _ => false

def sameItems : List Value → List Value → Bool
  | [], [] => true
  | v :: vs, w :: ws => same v w && sameItems vs ws
  | _, _ => false

def sameEntries : List (Value × Value) → List (Value × Value) → Bool
  | [], [] => true
  | (k, v) :: t, (l, w) :: u => same k l && same v w && sameEntries t u
  | _, _ => false

end

mutual

theorem eq_of_same : ∀ (v w : Value), same v w = true → v = w
  | .null, w, h => by
      cases w with
      | null => rfl
      | _ => cases h
  | .bool a, w, h => by cases w <;> simp_all [same]
  | .int m, w, h => by cases w <;> simp_all [same]
  | .float x, w, h => by cases w <;> cases h
  | .string s, w, h => by cases w <;> simp_all [same]
  | .bytes a, w, h => by cases w <;> simp_all [same]
  | .moment m, w, h => by cases w <;> simp_all [same]
  | .list vs, w, h => by
      cases w with
      | list ws => rw [eq_of_sameItems vs ws h]
      | _ => cases h
  | .set vs, w, h => by
      cases w with
      | set ws => rw [eq_of_sameItems vs ws h]
      | _ => cases h
  | .pair a b, w, h => by
      cases w with
      | pair c d =>
          simp only [same, Bool.and_eq_true] at h
          rw [eq_of_same a c h.1, eq_of_same b d h.2]
      | _ => cases h
  | .table t, w, h => by
      cases w with
      | table u => rw [eq_of_sameEntries t u h]
      | _ => cases h

theorem eq_of_sameItems : ∀ (vs ws : List Value), sameItems vs ws = true → vs = ws
  | [], [], _ => rfl
  | v :: vs, w :: ws, h => by
      simp only [sameItems, Bool.and_eq_true] at h
      rw [eq_of_same v w h.1, eq_of_sameItems vs ws h.2]
  | [], _ :: _, h | _ :: _, [], h => by cases h

theorem eq_of_sameEntries : ∀ (t u : List (Value × Value)), sameEntries t u = true → t = u
  | [], [], _ => rfl
  | (k, v) :: t, (l, w) :: u, h => by
      simp only [sameEntries, Bool.and_eq_true] at h
      rw [eq_of_same k l h.1.1, eq_of_same v w h.1.2, eq_of_sameEntries t u h.2]
  | [], _ :: _, h | _ :: _, [], h => by cases h

end

/-- A result without real numbers is known by computing it. -/
theorem eq_ok_of_same {x : Except Fault Value} {v : Value} (h : x.toOption.any (same v) = true) :
    x = .ok v := by
  cases x with
  | error f => cases h
  | ok w => rw [eq_of_same v w h]

end Value
end SvgDiagram
