import Mathlib.Tactic.Common

/-! While loops that may throw, run on fuel: a loop that ran out of it is told from one that
ended. -/

namespace Loop

variable {ε σ : Type}

/-- What one turn of a loop does. -/
inductive Turn (σ : Type)
  | again (s : σ)
  | leave (s : σ)

/-- Take turns until the loop is left; none when the fuel ends first. -/
def run (turn : σ → Except ε (Turn σ)) : Nat → σ → Option (Except ε σ)
  | 0, _ => none
  | fuel + 1, s =>
    match turn s with
    | .error e => some (.error e)
    | .ok (.leave s') => some (.ok s')
    | .ok (.again s') => run turn fuel s'

/-- Go on with what a loop ended in, when it ended without a fault. -/
def andThen {α β : Type} (x : Option (Except ε α)) (f : α → Option (Except ε β)) :
    Option (Except ε β) :=
  match x with
  | none => none
  | some (.error e) => some (.error e)
  | some (.ok a) => f a

@[simp] theorem andThen_ok {α β : Type} (a : α) (f : α → Option (Except ε β)) :
    andThen (some (.ok a)) f = f a := rfl

variable {turn : σ → Except ε (Turn σ)}

/-- More fuel changes no result. -/
theorem run_fuel {fuel more : Nat} {s : σ} {r : Except ε σ} (hle : fuel ≤ more)
    (h : run turn fuel s = some r) : run turn more s = some r := by
  induction fuel generalizing more s with
  | zero => cases h
  | succ fuel ih =>
    cases more with
    | zero => omega
    | succ more =>
      rw [run] at h ⊢
      cases hturn : turn s with
      | error e => simpa only [hturn] using h
      | ok t =>
        cases t with
        | leave s' => simpa only [hturn] using h
        | again s' =>
          simp only [hturn] at h ⊢
          exact ih (by omega) h

/-- Total correctness: every turn either leaves where the result is wanted or keeps the invariant
and makes the measure smaller. -/
theorem run_total (invariant wanted : σ → Prop) (measure : σ → Nat)
    (hturn : ∀ s, invariant s →
      (∃ s', turn s = .ok (.leave s') ∧ wanted s') ∨
      ∃ s', turn s = .ok (.again s') ∧ invariant s' ∧ measure s' < measure s)
    {fuel : Nat} {s : σ} (hs : invariant s) (hfuel : measure s < fuel) :
    ∃ s', run turn fuel s = some (.ok s') ∧ wanted s' := by
  induction fuel generalizing s with
  | zero => omega
  | succ fuel ih =>
    rcases hturn s hs with h | h
    · obtain ⟨s', hleave, hwanted⟩ := h
      exact ⟨s', by rw [run, hleave], hwanted⟩
    · obtain ⟨s', hagain, hs', hless⟩ := h
      obtain ⟨r, hr, hwanted⟩ := ih hs' (by omega)
      exact ⟨r, by rw [run, hagain]; exact hr, hwanted⟩

end Loop
