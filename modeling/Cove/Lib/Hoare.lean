import Mathlib.Tactic.Common

/-! Pre- and postconditions of programs that carry a state and may throw. What such a program
did to the state before a throw stays done. -/

variable {E S α β : Type}

/-- From every state with `P`, a run that returns ends in `Q` and one that throws ends in `R`. -/
def Triple (P : S → Prop) (x : EStateM E S α) (Q : α → S → Prop) (R : S → Prop) : Prop :=
  ∀ s, P s → match x s with
    | .ok a s' => Q a s'
    | .error _ s' => R s'

namespace Triple

variable {P P' : S → Prop} {R : S → Prop} {Q Q' : α → S → Prop}

theorem pure {a : α} {Q : α → S → Prop} (h : ∀ s, P s → Q a s) :
    Triple P (pure a : EStateM E S α) Q R := h

theorem bind {x : EStateM E S α} {f : α → EStateM E S β} {Q' : β → S → Prop}
    (hx : Triple P x Q R) (hf : ∀ a, Triple (Q a) (f a) Q' R) : Triple P (x >>= f) Q' R := by
  intro s hs
  have hrun := hx s hs
  change match EStateM.bind x f s with
    | .ok b s' => Q' b s'
    | .error _ s' => R s'
  unfold EStateM.bind
  cases hxs : x s with
  | ok a s' =>
    rw [hxs] at hrun
    exact hf a s' hrun
  | error e s' =>
    rw [hxs] at hrun
    exact hrun

theorem consequence {x : EStateM E S α} {R' : S → Prop} (h : Triple P x Q R)
    (hP : ∀ s, P' s → P s) (hQ : ∀ a s, Q a s → Q' a s) (hR : ∀ s, R s → R' s) :
    Triple P' x Q' R' := by
  intro s hs
  have hrun := h s (hP s hs)
  cases hxs : x s with
  | ok a s' =>
    rw [hxs] at hrun
    exact hQ a s' hrun
  | error e s' =>
    rw [hxs] at hrun
    exact hR s' hrun

theorem strengthen {x : EStateM E S α} (h : Triple P x Q R) (hP : ∀ s, P' s → P s) :
    Triple P' x Q R := h.consequence hP (fun _ _ h => h) fun _ h => h

theorem weaken {x : EStateM E S α} {R' : S → Prop} (h : Triple P x Q R) (hR : ∀ s, R s → R' s) :
    Triple P x Q R' := h.consequence (fun _ h => h) (fun _ _ h => h) hR

theorem ite {c : Prop} [Decidable c] {x y : EStateM E S α} (hx : c → Triple P x Q R)
    (hy : ¬ c → Triple P y Q R) : Triple P (if c then x else y) Q R := by
  by_cases hc : c
  · rw [if_pos hc]
    exact hx hc
  · rw [if_neg hc]
    exact hy hc

/-- A fact that does not speak of the state may be split off the precondition. -/
theorem of_fact {c : Prop} {x : EStateM E S α} (h : c → Triple P x Q R) :
    Triple (fun s => c ∧ P s) x Q R := fun s hs => h hs.1 s hs.2

theorem ok {x : EStateM E S α} (h : Triple P x Q R) {s s' : S} {a : α} (hs : P s)
    (hx : x s = .ok a s') : Q a s' := by
  have hrun := h s hs
  rwa [hx] at hrun

theorem error {x : EStateM E S α} (h : Triple P x Q R) {s s' : S} {e : E} (hs : P s)
    (hx : x s = .error e s') : R s' := by
  have hrun := h s hs
  rwa [hx] at hrun

/-- A program that cannot throw returns. -/
theorem returns {x : EStateM E S α} (h : Triple P x Q fun _ => False) {s : S} (hs : P s) :
    ∃ a s', x s = .ok a s' ∧ Q a s' := by
  have hrun := h s hs
  cases hx : x s with
  | ok a s' =>
    rw [hx] at hrun
    exact ⟨a, s', rfl, hrun⟩
  | error e s' =>
    rw [hx] at hrun
    exact hrun.elim

end Triple

/-- The program has returned, in a state that passes the test. -/
def returnedIn (p : S → Bool) : EStateM.Result E S α → Bool
  | .ok _ s => p s
  | .error _ _ => false

theorem exists_of_returnedIn {p : S → Bool} {r : EStateM.Result E S α}
    (h : returnedIn p r = true) : ∃ a s, r = .ok a s ∧ p s = true := by
  cases r with
  | ok a s => exact ⟨a, s, rfl, h⟩
  | error e s => cases h
