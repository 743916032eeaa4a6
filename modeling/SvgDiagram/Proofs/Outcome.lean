import Mathlib.Data.List.Basic

/-!
Outcomes in sequence: a computation that can fail succeeds exactly if each of its parts does, on what the
part before it gave.
-/

namespace SvgDiagram
namespace Outcome

variable {ε α β : Type}

@[simp] theorem pure_eq_ok (a : α) : (pure a : Except ε α) = .ok a := rfl

@[simp] theorem throw_eq_error (e : ε) : (throw e : Except ε α) = .error e := rfl

@[simp] theorem ok_bind (a : α) (f : α → Except ε β) : (Except.ok a >>= f) = f a := rfl

@[simp] theorem error_bind (e : ε) (f : α → Except ε β) :
    (Except.error e >>= f) = .error e := rfl

theorem bind_eq_ok {x : Except ε α} {f : α → Except ε β} {b : β} :
    x >>= f = .ok b ↔ ∃ a, x = .ok a ∧ f a = .ok b := by
  cases x with
  | error e => simp
  | ok a => simp

theorem toOption_eq_some {x : Except ε α} {a : α} : x.toOption = some a ↔ x = .ok a := by
  cases x with
  | error e => simp [Except.toOption]
  | ok b => simp [Except.toOption]

theorem exists_ok_of_isSome {x : Except ε α} (h : x.toOption.isSome = true) : ∃ a, x = .ok a := by
  cases x with
  | error e => cases h
  | ok a => exact ⟨a, rfl⟩

/-- A computation fails with a fault or, where there is none, succeeds. -/
def FailsWith (x : Except ε α) : Option ε → Prop
  | none => ∃ a, x = .ok a
  | some e => x = .error e

theorem FailsWith.bind {x : Except ε α} {f : α → Except ε β} {first second : Option ε}
    (hx : FailsWith x first) (hf : ∀ a, FailsWith (f a) second) :
    FailsWith (x >>= f) (first.or second) := by
  cases first with
  | none =>
      obtain ⟨a, rfl⟩ := hx
      exact hf a
  | some e =>
      obtain rfl : x = .error e := hx
      rfl

theorem FailsWith.bind_ok {x : Except ε α} {f : α → Except ε β} {o : Option ε} (hx : FailsWith x o)
    (hf : ∀ a, ∃ b, f a = .ok b) : FailsWith (x >>= f) o := by
  simpa using hx.bind (show ∀ a, FailsWith (f a) none from hf)

theorem FailsWith.eq_error_iff {x : Except ε α} {o : Option ε} (h : FailsWith x o) (e : ε) :
    x = .error e ↔ o = some e := by
  cases o with
  | none =>
      obtain ⟨a, rfl⟩ := h
      simp
  | some e' =>
      obtain rfl : x = .error e' := h
      simp

/-- A pass over a list fails with the first fault that it meets. -/
theorem failsWith_mapM {f : α → Except ε β} {fault? : α → Option ε} {xs : List α}
    (h : ∀ x ∈ xs, FailsWith (f x) (fault? x)) : FailsWith (xs.mapM f) (xs.findSome? fault?) := by
  induction xs with
  | nil => exact ⟨[], rfl⟩
  | cons x xs ih =>
      obtain ⟨hx, hxs⟩ := List.forall_mem_cons.mp h
      have hcons : (x :: xs).findSome? fault? = (fault? x).or (xs.findSome? fault?) := by
        rw [List.findSome?_cons]
        cases fault? x <;> rfl
      rw [List.mapM_cons, hcons]
      exact hx.bind fun _ => (ih hxs).bind_ok fun _ => ⟨_, rfl⟩

/-- A pass over a list succeeds exactly if it does on every item, and gives what it gives there. -/
theorem mapM_eq_ok {f : α → Except ε β} {P : α → Prop} {g : α → β}
    (h : ∀ x y, f x = .ok y ↔ P x ∧ y = g x) {xs : List α} {ys : List β} :
    xs.mapM f = .ok ys ↔ (∀ x ∈ xs, P x) ∧ ys = xs.map g := by
  induction xs generalizing ys with
  | nil => simp [eq_comm]
  | cons x xs ih =>
      simp only [List.mapM_cons, bind_eq_ok, h, ih, pure_eq_ok, Except.ok.injEq,
        List.forall_mem_cons, List.map_cons]
      constructor
      · rintro ⟨_, ⟨hx, rfl⟩, _, ⟨hxs, rfl⟩, rfl⟩
        exact ⟨⟨hx, hxs⟩, rfl⟩
      · rintro ⟨⟨hx, hxs⟩, rfl⟩
        exact ⟨_, ⟨hx, rfl⟩, _, ⟨hxs, rfl⟩, rfl⟩

theorem forall₂_of_mapM {f : α → Except ε β} {xs : List α} {ys : List β}
    (h : xs.mapM f = .ok ys) : List.Forall₂ (fun x y => f x = .ok y) xs ys := by
  induction xs generalizing ys with
  | nil =>
      cases h
      exact .nil
  | cons x xs ih =>
      simp only [List.mapM_cons, bind_eq_ok, pure_eq_ok, Except.ok.injEq] at h
      obtain ⟨y, hy, ys, hys, rfl⟩ := h
      exact .cons hy (ih hys)

theorem mapM_congr {f : α → Except ε β} {xs ys : List α}
    (h : List.Forall₂ (fun x y => f y = f x) xs ys) : ys.mapM f = xs.mapM f := by
  induction h with
  | nil => rfl
  | cons hxy _ ih => rw [List.mapM_cons, List.mapM_cons, hxy, ih]

/-- Every item that a pass gives comes from one that it was given. -/
theorem exists_source {R : α → β → Prop} {xs : List α} {ys : List β} (h : List.Forall₂ R xs ys)
    {y : β} (hy : y ∈ ys) : ∃ x ∈ xs, R x y := by
  induction h with
  | nil => cases hy
  | cons hxy _ ih =>
      obtain rfl | hy := List.mem_cons.mp hy
      · exact ⟨_, List.mem_cons_self, hxy⟩
      · obtain ⟨x, hx, hr⟩ := ih hy
        exact ⟨x, List.mem_cons_of_mem _ hx, hr⟩

/-- All items that a pass gives have a property if all that it was given have the one that decides it. -/
theorem forall_mem_iff {R : α → β → Prop} {P : α → Prop} {Q : β → Prop} {xs : List α} {ys : List β}
    (h : List.Forall₂ R xs ys) (hPQ : ∀ x ∈ xs, ∀ y, R x y → (Q y ↔ P x)) :
    (∀ y ∈ ys, Q y) ↔ ∀ x ∈ xs, P x := by
  induction h with
  | nil => simp
  | cons hxy _ ih =>
      rw [List.forall_mem_cons, List.forall_mem_cons] at *
      rw [hPQ.1 _ hxy, ih hPQ.2]

/-- Where one pass can be followed from related items to related items, it can be followed over a list. -/
theorem forall₂_square {α' β' : Type} {A : α → β → Prop} {B : α' → β' → Prop} {R : α → α' → Prop}
    {S : β → β' → Prop} {as : List α} {bs : List β} {as' : List α'} (hA : List.Forall₂ A as bs)
    (hR : List.Forall₂ R as as') (h : ∀ a b a', A a b → R a a' → ∃ b', B a' b' ∧ S b b') :
    ∃ bs', List.Forall₂ B as' bs' ∧ List.Forall₂ S bs bs' := by
  induction hA generalizing as' with
  | nil =>
      cases hR
      exact ⟨[], .nil, .nil⟩
  | cons hab _ ih =>
      obtain _ | ⟨ha, hrest⟩ := hR
      obtain ⟨b', hb', hS⟩ := h _ _ _ hab ha
      obtain ⟨bs', hbs', hSs⟩ := ih hrest
      exact ⟨b' :: bs', .cons hb' hbs', .cons hS hSs⟩

end Outcome
end SvgDiagram
