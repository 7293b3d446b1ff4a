import Mathlib.Tactic.Common

/-- A thrown error. The code is absent when the throwing side attaches none. -/
structure Fault where
  code : Option String := none
  message : String
  deriving DecidableEq, Repr

namespace Checked

variable {ε α β : Type}

/-- Go on only when the condition holds. -/
def ensure (c : Prop) [Decidable c] (e : ε) : Except ε Unit :=
  if c then .ok () else .error e

/-- Go on with the value of an optional lookup. -/
def demand (x : Option α) (e : ε) : Except ε α :=
  match x with
  | some a => .ok a
  | none => .error e

@[simp] theorem ensure_eq_ok (c : Prop) [Decidable c] (e : ε) (u : Unit) :
    ensure c e = .ok u ↔ c := by
  by_cases h : c <;> simp [ensure, h]

@[simp] theorem demand_eq_ok (x : Option α) (e : ε) (a : α) :
    demand x e = .ok a ↔ x = some a := by
  cases x <;> simp [demand]

/-- A sequence succeeds exactly when both halves do. -/
@[simp] theorem bind_eq_ok {x : Except ε α} {f : α → Except ε β} {b : β} :
    (x >>= f) = .ok b ↔ ∃ a, x = .ok a ∧ f a = .ok b := by
  cases x <;> simp [bind, Except.bind]

/-- A sequence fails in its first half, or in its second after the first one returned. -/
theorem bind_eq_error {x : Except ε α} {f : α → Except ε β} {e : ε} :
    (x >>= f) = .error e ↔ x = .error e ∨ ∃ a, x = .ok a ∧ f a = .error e := by
  cases x <;> simp [bind, Except.bind]

theorem ensure_eq_error {c : Prop} [Decidable c] {e e' : ε} :
    ensure c e = .error e' ↔ ¬ c ∧ e = e' := by
  by_cases h : c <;> simp [ensure, h]

@[simp] theorem pure_eq_ok {a b : α} : (pure a : Except ε α) = .ok b ↔ a = b := by
  simp [pure, Except.pure]

@[simp] theorem throw_ne_ok {e : ε} {a : α} : (throw e : Except ε α) = .ok a ↔ False := by
  simp [throw, throwThe, MonadExceptOf.throw]

@[simp] theorem map_eq_ok {x : Except ε α} {f : α → β} {b : β} :
    f <$> x = .ok b ↔ ∃ a, x = .ok a ∧ f a = b := by
  cases x <;> simp [Functor.map, Except.map]

@[simp] theorem mapError_eq_ok {δ : Type} {x : Except ε α} {f : ε → δ} {a : α} :
    x.mapError f = .ok a ↔ x = .ok a := by
  cases x <;> simp [Except.mapError]

theorem toOption_eq_some {x : Except ε α} {a : α} : x.toOption = some a ↔ x = .ok a := by
  cases x <;> simp [Except.toOption]

/-- Every error the computation can end in has the property. -/
def FailsWith (P : ε → Prop) (x : Except ε α) : Prop := ∀ e, x = .error e → P e

namespace FailsWith

variable {P : ε → Prop}

theorem ok (a : α) : FailsWith P (.ok a : Except ε α) := by
  intro e h
  cases h

theorem pure (a : α) : FailsWith P (pure a : Except ε α) := ok a

theorem error {e : ε} (h : P e) : FailsWith P (.error e : Except ε α) := by
  intro e' he
  cases he
  exact h

theorem ensure {c : Prop} [Decidable c] {e : ε} (h : P e) : FailsWith P (ensure c e) := by
  by_cases hc : c
  · rw [Checked.ensure, if_pos hc]
    exact ok ()
  · rw [Checked.ensure, if_neg hc]
    exact error h

theorem demand {x : Option α} {e : ε} (h : P e) : FailsWith P (demand x e) := by
  cases x with
  | none => exact error h
  | some a => exact ok a

theorem mapError {δ : Type} {x : Except δ α} {f : δ → ε} (h : ∀ d, P (f d)) :
    FailsWith P (x.mapError f) := by
  cases x with
  | error d => exact error (h d)
  | ok a => exact ok a

/-- The second half may rest on what the first one returned. -/
theorem bind_of_ok {x : Except ε α} {f : α → Except ε β} (hx : FailsWith P x)
    (hf : ∀ a, x = .ok a → FailsWith P (f a)) : FailsWith P (x >>= f) := by
  cases x with
  | error e => exact error (hx e rfl)
  | ok a => exact hf a rfl

theorem bind {x : Except ε α} {f : α → Except ε β} (hx : FailsWith P x)
    (hf : ∀ a, FailsWith P (f a)) : FailsWith P (x >>= f) := bind_of_ok hx fun a _ => hf a

end FailsWith

end Checked
