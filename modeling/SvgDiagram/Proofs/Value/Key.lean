import SvgDiagram.Proofs.Number.Bits
import SvgDiagram.Proofs.Value.Table

/-!
Tables through keys of any kind. Two keys are the same if they stand for the same thing: null, a text,
data, a time, a number or an infinity, or a pair of such things; a double that is no number stands for
nothing and is not even the same key as itself. So being the same is symmetric and transitive, and a table
whose keys are distinct has what its entries say, in whatever order they come.
-/

namespace SvgDiagram
namespace Value

/-- What a key stands for. -/
inductive Meaning where
  | null
  | text (s : String)
  | bytes (data : List UInt8)
  | moment (key : Moment ⊕ Int)
  | number (q : ℚ)
  | infinite (negative : Bool)
  | pair (first second : Meaning)

/-- The kinds of thing that keys stand for. -/
inductive Kind where
  | null
  | text
  | bytes
  | moment
  | number
  | pair

def Meaning.kind : Meaning → Kind
  | .null => .null
  | .text _ => .text
  | .bytes _ => .bytes
  | .moment _ => .moment
  | .number _ | .infinite _ => .number
  | .pair _ _ => .pair

def kind? : Value → Option Kind
  | .null => some .null
  | .bool _ | .int _ | .float _ => some .number
  | .string _ => some .text
  | .bytes _ => some .bytes
  | .moment _ => some .moment
  | .pair _ _ => some .pair
  | .list _ | .set _ | .table _ => none

def meaning? : Value → Option Meaning
  | .null => some .null
  | .bool b => some (.number (if b then 1 else 0))
  | .int n => some (.number n)
  | .float x =>
    match Number.decode x with
    | .nan => none
    | .infinite negative => some (.infinite negative)
    | .finite b => some (.number b.number)
  | .string s => some (.text s)
  | .bytes data => some (.bytes data)
  | .moment m => some (.moment m.key)
  | .pair a b => do return .pair (← a.meaning?) (← b.meaning?)
  | .list _ | .set _ | .table _ => none

theorem integer?_eq_some_iff (v : Value) (n : ℤ) :
    v.integer? = some n ↔ v.meaning? = some (.number n) := by
  cases v with
  | bool b => cases b <;> simp [integer?, meaning?, eq_comm]
  | int m => simp [integer?, meaning?]
  | pair a b => cases ha : a.meaning? <;> cases hb : b.meaning? <;> simp [integer?, meaning?, ha, hb]
  | float x =>
      cases hx : Number.decode x with
      | nan => simp [integer?, meaning?, hx]
      | infinite negative => simp [integer?, meaning?, hx]
      | finite b => simp [integer?, meaning?, hx, Number.Binary.integer?_eq_some]
  | _ => simp [integer?, meaning?]

theorem kind?_of_meaning? {v : Value} {m : Meaning} (h : v.meaning? = some m) :
    v.kind? = some m.kind := by
  cases v with
  | float x =>
      cases hx : Number.decode x with
      | nan => simp [meaning?, hx] at h
      | infinite _ | finite _ =>
          simp only [meaning?, hx, Option.some.injEq] at h
          rw [← h]
          rfl
  | pair a b =>
      simp only [meaning?, Option.bind_eq_bind, Option.bind_eq_some_iff] at h
      obtain ⟨p, -, q, -, ⟨⟩⟩ := h
      rfl
  | _ =>
      cases h
      try rfl

/-- Zero has two signs, and stands for one number. -/
theorem meaning?_zeros : (Value.float 0).meaning? = some (.number 0) ∧
    (Value.float (-0)).meaning? = some (.number 0) := by
  simp [meaning?, Number.decode_zero, Number.decode_neg_zero, Number.Binary.number,
    Number.Binary.magnitude]

theorem beq_iff_meaning? (x y : Float) :
    (x == y) = true ↔ ∃ m, (Value.float x).meaning? = some m ∧ (Value.float y).meaning? = some m := by
  constructor
  · intro h
    obtain ⟨hx, -, rfl | ⟨rfl, rfl⟩ | ⟨rfl, rfl⟩⟩ := Float.beq_iff_ne_nan_and_eq.mp h
    · cases hdecode : Number.decode x with
      | nan => exact absurd (Number.eq_nan_of_decode hdecode) hx
      | infinite negative => exact ⟨.infinite negative, by simp [meaning?, hdecode]⟩
      | finite b => exact ⟨.number b.number, by simp [meaning?, hdecode]⟩
    · exact ⟨_, meaning?_zeros⟩
    · exact ⟨_, meaning?_zeros.symm⟩
  · rintro ⟨m, hx, hy⟩
    cases hdx : Number.decode x with
    | nan => simp [meaning?, hdx] at hx
    | infinite negative =>
        obtain rfl : .infinite negative = m := by simpa [meaning?, hdx] using hx
        cases hdy : Number.decode y with
        | nan => simp [meaning?, hdy] at hy
        | finite c => simp [meaning?, hdy] at hy
        | infinite negative' =>
            obtain rfl : negative' = negative := by simpa [meaning?, hdy] using hy
            have hne := Number.ne_nan_of_decode (x := x) (by simp [hdx])
            obtain rfl := Number.decode_injective (hdx.trans hdy.symm)
            exact Float.beq_iff_ne_nan_and_eq.mpr ⟨hne, hne, .inl rfl⟩
    | finite b =>
        obtain rfl : .number b.number = m := by simpa [meaning?, hdx] using hx
        cases hdy : Number.decode y with
        | nan => simp [meaning?, hdy] at hy
        | infinite negative => simp [meaning?, hdy] at hy
        | finite c =>
            have hnumber : c.number = b.number := by simpa [meaning?, hdy] using hy
            exact Number.beq_of_number hdx hdy hnumber.symm

theorem meaning?_bool (b : Bool) :
    (Value.bool b).meaning? = some (.number ((if b then 1 else 0 : ℤ) : ℚ)) := by
  cases b <;> simp [meaning?]

/-- Keys are the same if they stand for the same thing. -/
theorem sameKey_iff (v w : Value) :
    v.sameKey w = true ↔ ∃ m, v.meaning? = some m ∧ w.meaning? = some m := by
  fun_induction sameKey v w with
  | case1 => simp [meaning?]
  | case2 s t => simp [meaning?, eq_comm (a := t)]
  | case3 x y => exact beq_iff_meaning? x y
  | case4 a b => simp [meaning?, eq_comm (a := b)]
  | case5 m n => simp [meaning?, eq_comm (a := n.key)]
  | case6 a b c d iha ihb =>
      simp only [Bool.and_eq_true, iha, ihb, meaning?, Option.bind_eq_bind, Option.bind_eq_some_iff]
      constructor
      · rintro ⟨⟨p, ha, hc⟩, q, hb, hd⟩
        exact ⟨.pair p q, ⟨p, ha, q, hb, rfl⟩, p, hc, q, hd, rfl⟩
      · rintro ⟨_, ⟨p, ha, q, hb, ⟨⟩⟩, _, hc, _, hd, ⟨⟩⟩
        exact ⟨⟨p, ha, hc⟩, q, hb, hd⟩
  | case7 v w _ _ _ _ _ _ m n hw hv =>
      rw [integer?_eq_some_iff] at hv hw
      simp [hv, hw, eq_comm (a := n)]
  | case8 v w hnull htext hfloat hbytes hmoment hpair hinteger =>
      refine ⟨nofun, ?_⟩
      rintro ⟨m, hv, hw⟩
      have hkind : v.kind? = w.kind? := (kind?_of_meaning? hv).trans (kind?_of_meaning? hw).symm
      exfalso
      cases v with
      | null =>
          cases w with
          | null => exact hnull rfl rfl
          | _ => cases hkind
      | string s =>
          cases w with
          | string t => exact htext s t rfl rfl
          | _ => cases hkind
      | bytes a =>
          cases w with
          | bytes b => exact hbytes a b rfl rfl
          | _ => cases hkind
      | moment m =>
          cases w with
          | moment n => exact hmoment m n rfl rfl
          | _ => cases hkind
      | pair a b =>
          cases w with
          | pair c d => exact hpair a b c d rfl rfl
          | _ => cases hkind
      | bool b =>
          cases (meaning?_bool b).symm.trans hv
          exact hinteger _ _ rfl ((integer?_eq_some_iff w _).mpr hw)
      | int n =>
          cases hv
          exact hinteger n n rfl ((integer?_eq_some_iff w n).mpr hw)
      | float x =>
          cases w with
          | float y => exact hfloat x y rfl rfl
          | bool b =>
              cases (meaning?_bool b).symm.trans hw
              exact hinteger _ _ ((integer?_eq_some_iff _ _).mpr hv) rfl
          | int n =>
              cases hw
              exact hinteger n n ((integer?_eq_some_iff _ n).mpr hv) rfl
          | _ => cases hkind
      | _ => cases hv

theorem sameKey_comm (v w : Value) : v.sameKey w = w.sameKey v := by
  rw [Bool.eq_iff_iff, sameKey_iff, sameKey_iff]
  simp only [and_comm]

theorem sameKey_trans {u v w : Value} (huv : u.sameKey v = true) (hvw : v.sameKey w = true) :
    u.sameKey w = true := by
  obtain ⟨m, hu, hv⟩ := (sameKey_iff u v).mp huv
  obtain ⟨n, hv', hw⟩ := (sameKey_iff v w).mp hvw
  cases hv.symm.trans hv'
  exact (sameKey_iff u w).mpr ⟨m, hu, hw⟩

/-- What is the same key as one of two that are the same is the same as the other. -/
theorem sameKey_congr {u v : Value} (h : u.sameKey v = true) (w : Value) :
    u.sameKey w = v.sameKey w := by
  rw [Bool.eq_iff_iff]
  exact ⟨sameKey_trans (sameKey_comm u v ▸ h), sameKey_trans h⟩

end Value

namespace Table

theorem get?_cons (e : Value × Value) (t : Table) (key : Value) :
    Table.get? (e :: t) key = if e.1.sameKey key then some e.2 else Table.get? t key := by
  simp only [get?, List.find?_cons]
  cases e.1.sameKey key <;> rfl

theorem get?_append (t u : Table) (key : Value) :
    Table.get? (t ++ u) key = (Table.get? t key).or (Table.get? u key) := by
  induction t with
  | nil => rfl
  | cons e t ih =>
      rw [List.cons_append, get?_cons, get?_cons, ih]
      split <;> rfl

/-- After a key is set, it has the new value, and every other key keeps its value. -/
theorem get?_set (t : Table) (key v other : Value) :
    Table.get? (Table.set key v t) other = if key.sameKey other then some v else Table.get? t other := by
  induction t with
  | nil => rw [Table.set, get?_cons]
  | cons e t ih =>
      rw [Table.set]
      by_cases hkey : e.1.sameKey key = true
      · rw [if_pos hkey, get?_cons, get?_cons, Value.sameKey_congr hkey]
        split <;> rfl
      · rw [if_neg hkey, get?_cons, get?_cons, ih]
        -- The first entry is not the one that is set, so only one of the two can have the other key.
        by_cases hother : e.1.sameKey other = true
        · have hne : key.sameKey other = false := by
            rw [Bool.eq_false_iff]
            intro h
            exact hkey (Value.sameKey_trans hother (Value.sameKey_comm key other ▸ h))
          simp [hother, hne]
        · simp [hother]

/-- What is not the same key as itself is in no table. -/
theorem get?_eq_none_of_sameKey {key : Value} (h : key.sameKey key = false) (t : Table) :
    Table.get? t key = none := by
  induction t with
  | nil => rfl
  | cons e t ih =>
      have hne : e.1.sameKey key = false := by
        rw [Bool.eq_false_iff]
        intro hsame
        rw [Value.sameKey_trans (Value.sameKey_comm e.1 key ▸ hsame) hsame] at h
        cases h
      rw [get?_cons, hne, ih]
      rfl

/-- Of the entries whose keys are kept, a table has the values that it had. -/
theorem get?_filter {kept : Value → Bool} (hkept : ∀ a b, a.sameKey b = true → kept a = kept b)
    (t : Table) (key : Value) :
    Table.get? (t.filter fun e => kept e.1) key = if kept key then Table.get? t key else none := by
  induction t with
  | nil => simp [get?]
  | cons e t ih =>
      rw [List.filter_cons, get?_cons]
      by_cases hsame : e.1.sameKey key = true
      · rw [hkept _ _ hsame]
        by_cases hkey : kept key = true
        · simp [hkey, get?_cons, hsame]
        · simp [hkey, ih]
      · by_cases hown : kept e.1 = true
        · simp [hown, get?_cons, hsame, ih]
        · simp [hown, hsame, ih]

theorem get?_erase (t : Table) (key other : Value) :
    Table.get? (Table.erase t key) other = if key.sameKey other then none else Table.get? t other := by
  have hkept : ∀ a b : Value, a.sameKey b = true → (!a.sameKey key) = !b.sameKey key := by
    intro a b h
    rw [Value.sameKey_congr h]
  rw [erase, get?_filter hkept, Value.sameKey_comm other key]
  cases key.sameKey other <;> rfl

/-- A table with distinct keys has what its entries say. -/
theorem get?_eq_some_iff {t : Table} (h : Distinct t) {key v : Value} :
    Table.get? t key = some v ↔ ∃ e ∈ t, e.1.sameKey key = true ∧ e.2 = v := by
  induction t with
  | nil => simp [get?]
  | cons e t ih =>
      obtain ⟨hfirst, hrest⟩ := List.pairwise_cons.mp h
      rw [get?_cons, List.exists_mem_cons_iff, ← ih hrest]
      by_cases hkey : e.1.sameKey key = true
      · have hnone : Table.get? t key ≠ some v := by
          intro hv
          obtain ⟨e', he', hsame, -⟩ := (ih hrest).mp hv
          have hne := hfirst e' he'
          rw [Value.sameKey_trans hkey (Value.sameKey_comm e'.1 key ▸ hsame)] at hne
          cases hne
        simp [hkey, hnone]
      · simp [hkey]

theorem distinct_perm {t u : Table} (h : t.Perm u) : Distinct t ↔ Distinct u :=
  h.pairwise_iff fun {a b} hab => by rwa [Value.sameKey_comm]

/-- The order of entries does not matter. -/
theorem get?_perm {t u : Table} (h : Distinct t) (hperm : t.Perm u) (key : Value) :
    Table.get? u key = Table.get? t key := by
  ext v
  rw [get?_eq_some_iff h, get?_eq_some_iff ((distinct_perm hperm).mp h)]
  simp only [hperm.mem_iff]

/-- The entries that are set come before those that were there. -/
theorem get?_update (t : Table) {u : Table} (h : Distinct u) (key : Value) :
    Table.get? (Table.update t u) key = (Table.get? u key).or (Table.get? t key) := by
  have hlast (t u : Table) : Table.get? (Table.update t u) key =
      (Table.get? u.reverse key).or (Table.get? t key) := by
    induction u generalizing t with
    | nil => rfl
    | cons e u ih =>
        have hstep : Table.update t (e :: u) = Table.update (Table.set e.1 e.2 t) u := rfl
        rw [hstep, ih, List.reverse_cons, get?_append, get?_set, get?_cons, Option.or_assoc]
        split <;> rfl
  rw [hlast, get?_perm h (List.reverse_perm u).symm]

theorem Distinct.set {t : Table} (h : Distinct t) (key v : Value) : Distinct (Table.set key v t) := by
  induction t with
  | nil => exact List.pairwise_singleton _ _
  | cons e t ih =>
      obtain ⟨hfirst, hrest⟩ := List.pairwise_cons.mp h
      rw [Table.set]
      split
      · exact List.pairwise_cons.mpr ⟨hfirst, hrest⟩
      · rename_i hkey
        refine List.pairwise_cons.mpr ⟨fun e' he' => ?_, ih hrest⟩
        obtain hnew | ⟨old, hold, heq⟩ := key_of_mem_set he'
        · rw [hnew]
          simpa using hkey
        · rw [← heq]
          exact hfirst old hold

theorem Distinct.update {t : Table} (h : Distinct t) (u : Table) : Distinct (Table.update t u) := by
  induction u generalizing t with
  | nil => exact h
  | cons e u ih => exact ih (h.set e.1 e.2)

end Table
end SvgDiagram
