import SvgDiagram.Proofs.Outcome
import SvgDiagram.Workspace.Basic

/-!
What actions do, one kind of step at a time: the outcome of a sequence is that of its second part in the
state that the first part left, unless the first part failed.
-/

namespace SvgDiagram
namespace Workspace

variable {α β : Type}

@[simp] theorem outcome_pure (a : α) (w : Workspace) : outcome (pure a) w = (.ok a, w) := rfl

@[simp] theorem outcome_throw (f : Fault) (w : Workspace) :
    outcome (throw f : Action α) w = (.error f, w) := rfl

@[simp] theorem outcome_get (w : Workspace) : outcome get w = (.ok w, w) := rfl

@[simp] theorem outcome_set (w' w : Workspace) : outcome (set w') w = (.ok ⟨⟩, w') := rfl

@[simp] theorem outcome_modify (g : Workspace → Workspace) (w : Workspace) :
    outcome (modify g) w = (.ok ⟨⟩, g w) := rfl

@[simp] theorem outcome_attempt (x : Except Fault α) (w : Workspace) :
    outcome (attempt x) w = (x, w) := by
  cases x <;> rfl

/-- The first part of a sequence either fails, and the sequence with it, or hands its result over. -/
theorem outcome_bind (x : Action α) (f : α → Action β) (w : Workspace) :
    outcome (x >>= f) w =
      match outcome x w with
      | (.ok a, w') => outcome (f a) w'
      | (.error e, w') => (.error e, w') := by
  simp only [outcome, EStateM.run_bind]
  cases x.run w <;> rfl

theorem outcome_get_bind (f : Workspace → Action β) (w : Workspace) :
    outcome (get >>= f) w = outcome (f w) w := by
  rw [outcome_bind, outcome_get]

/-- A sequence succeeds exactly if both of its parts do. -/
theorem outcome_bind_eq_ok {x : Action α} {f : α → Action β} {w w' : Workspace} {b : β} :
    outcome (x >>= f) w = (.ok b, w') ↔
      ∃ a w₁, outcome x w = (.ok a, w₁) ∧ outcome (f a) w₁ = (.ok b, w') := by
  rw [outcome_bind]
  cases outcome x w with
  | mk result w₁ => cases result <;> simp

/-- What is made of a result changes nothing. -/
theorem outcome_bind_pure (x : Action α) (g : α → β) (w : Workspace) :
    outcome (x >>= fun a => pure (g a)) w = ((outcome x w).1.map g, (outcome x w).2) := by
  rw [outcome_bind]
  cases outcome x w with
  | mk result w' => cases result <;> rfl

theorem outcome_attempt_pure (x : Except Fault α) (g : α → β) (w : Workspace) :
    outcome (attempt x >>= fun a => pure (g a)) w = (x.map g, w) := by
  rw [outcome_bind_pure, outcome_attempt]

theorem exists_of_isSome {act : Action α} {w : Workspace}
    (h : (outcome act w).1.toOption.isSome = true) : ∃ r w', outcome act w = (.ok r, w') := by
  obtain ⟨r, hr⟩ := Outcome.exists_ok_of_isSome h
  exact ⟨r, (outcome act w).2, Prod.ext hr rfl⟩

theorem exists_error_of_isSome {act : Action α} {w : Workspace}
    (h : (outcome act w).1.toOption.isSome = false) : ∃ f w', outcome act w = (.error f, w') := by
  cases hout : outcome act w with
  | mk result w' =>
      rw [hout] at h
      cases result with
      | error f => exact ⟨f, w', rfl⟩
      | ok a => cases h

theorem outcome_putFile (place : Files.Place) (content : Content) (w : Workspace) :
    outcome (putFile place content) w =
      match w.files.write place content with
      | .ok files => (.ok ⟨⟩, { w with files })
      | .error f => (.error f, w) := by
  simp only [putFile, outcome_bind, outcome_get, outcome_attempt]
  cases w.files.write place content <;> rfl

/-- A file is written whole and entered in the journal, or nothing changes. -/
theorem outcome_writeOutput (kind : OutputKind) (p : Files.Path) (content : Content)
    (w : Workspace) :
    outcome (writeOutput kind p content) w =
      match (do
        let place ← w.files.find w.host.directory p
        return (place, ← w.files.write place content)) with
      | .ok (place, files) => (.ok ⟨⟩, { w with files, outputs := w.outputs ++ [⟨kind, place⟩] })
      | .error f => (.error f, w) := by
  simp only [writeOutput, outcome_bind, outcome_get, outcome_attempt, outcome_putFile]
  cases w.files.find w.host.directory p with
  | error f => rfl
  | ok place => cases h : w.files.write place content <;> simp [h]

/-- Whatever becomes of an action, the state that it leaves is related to the one that it found; and if it
succeeds, its result and that state are as told. -/
def Leads (R : Workspace → Workspace → Prop) (act : Action α) (w : Workspace)
    (post : α → Workspace → Prop) : Prop :=
  R w (outcome act w).2 ∧ ∀ a, (outcome act w).1 = .ok a → post a (outcome act w).2

section
variable {R : Workspace → Workspace → Prop} {w : Workspace}

theorem Leads.pure (refl : ∀ w, R w w) (a : α) : Leads R (pure a) w fun b w' => a = b ∧ w = w' :=
  ⟨refl w, fun _ h => ⟨Except.ok.inj h, rfl⟩⟩

theorem Leads.throw (refl : ∀ w, R w w) (f : Fault) (post : α → Workspace → Prop) :
    Leads R (throw f) w post :=
  ⟨refl w, fun _ h => by cases h⟩

theorem Leads.attempt (refl : ∀ w, R w w) (x : Except Fault α) :
    Leads R (attempt x) w fun a w' => x = .ok a ∧ w = w' := by
  rw [Leads, outcome_attempt]
  exact ⟨refl w, fun a h => ⟨h, rfl⟩⟩

theorem Leads.weaken {act : Action α} {post post' : α → Workspace → Prop} (h : Leads R act w post)
    (hp : ∀ a w', R w w' → post a w' → post' a w') : Leads R act w post' :=
  ⟨h.1, fun a ha => hp a _ h.1 (h.2 a ha)⟩

theorem Leads.get_bind {f : Workspace → Action β} {post : β → Workspace → Prop}
    (h : Leads R (f w) w post) : Leads R (MonadState.get >>= f) w post := by
  simpa only [Leads, outcome_get_bind] using h

theorem Leads.attempt_bind (refl : ∀ w, R w w) {x : Except Fault α} {f : α → Action β}
    {post : β → Workspace → Prop} (h : ∀ a, x = .ok a → Leads R (f a) w post) :
    Leads R (Workspace.attempt x >>= f) w post := by
  cases x with
  | error e =>
      simp only [Leads, outcome_bind, outcome_attempt]
      exact ⟨refl w, fun _ hb => by cases hb⟩
  | ok a => simpa only [Leads, outcome_bind, outcome_attempt] using h a rfl

/-- The second part of a sequence may use what the first part leads to. -/
theorem Leads.bind (trans : ∀ {a b c}, R a b → R b c → R a c) {x : Action α} {f : α → Action β}
    {mid : α → Workspace → Prop} {post : β → Workspace → Prop} (hx : Leads R x w mid)
    (hf : ∀ a w', R w w' → mid a w' → Leads R (f a) w' post) : Leads R (x >>= f) w post := by
  obtain ⟨hR, hm⟩ := hx
  cases h : outcome x w with
  | mk r w' =>
      rw [h] at hR hm
      cases r with
      | error e =>
          simp only [Leads, outcome_bind, h]
          exact ⟨hR, fun a ha => by cases ha⟩
      | ok a =>
          obtain ⟨hR', hp⟩ := hf a w' hR (hm a rfl)
          simp only [Leads, outcome_bind, h]
          exact ⟨trans hR hR', hp⟩

end

end Workspace
end SvgDiagram
