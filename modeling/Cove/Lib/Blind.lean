import Mathlib.Tactic.Common

/-! Programs that never read a part of their state. States that differ in that part alone are
related; a blind program takes the same steps from them and leaves related states. -/

variable {E S α β : Type}

/-- From related states the program returns or throws the same, and what it leaves is related. -/
def Blind (R : S → S → Prop) (x : EStateM E S α) : Prop :=
  ∀ s t, R s t → match x s with
    | .ok a s' => ∃ t', x t = .ok a t' ∧ R s' t'
    | .error e s' => ∃ t', x t = .error e t' ∧ R s' t'

namespace Blind

variable {R : S → S → Prop}

theorem pure (a : α) : Blind R (pure a : EStateM E S α) := fun _ t h => ⟨t, rfl, h⟩

theorem bind {x : EStateM E S α} {f : α → EStateM E S β} (hx : Blind R x)
    (hf : ∀ a, Blind R (f a)) : Blind R (x >>= f) := by
  intro s t h
  have hrun := hx s t h
  change match EStateM.bind x f s with
    | .ok b s' => ∃ t', EStateM.bind x f t = .ok b t' ∧ R s' t'
    | .error e s' => ∃ t', EStateM.bind x f t = .error e t' ∧ R s' t'
  unfold EStateM.bind
  cases hs : x s with
  | ok a s' =>
    rw [hs] at hrun
    obtain ⟨t', ht, h'⟩ := hrun
    rw [ht]
    exact hf a s' t' h'
  | error e s' =>
    rw [hs] at hrun
    obtain ⟨t', ht, h'⟩ := hrun
    rw [ht]
    exact ⟨t', rfl, h'⟩

theorem ite {c : Prop} [Decidable c] {x y : EStateM E S α} (hx : Blind R x) (hy : Blind R y) :
    Blind R (if c then x else y) := by
  by_cases hc : c
  · rw [if_pos hc]
    exact hx
  · rw [if_neg hc]
    exact hy

/-- A run that returns is a run from every related state. -/
theorem ok {x : EStateM E S α} (hx : Blind R x) {s t s' : S} {a : α} (h : R s t)
    (hs : x s = .ok a s') : ∃ t', x t = .ok a t' ∧ R s' t' := by
  have hrun := hx s t h
  rwa [hs] at hrun

end Blind
