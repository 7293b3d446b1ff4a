import Mathlib.Tactic.Common

/-! Runs of a partial step function. -/

namespace Machine

variable {S A : Type}

/-- Take the actions in order; none when one of them cannot be taken. -/
def run (step : S → A → Option S) : S → List A → Option S
  | s, [] => some s
  | s, a :: as => (step s a).bind fun s' => run step s' as

/-- Every action of the run meets the condition in the state it is taken in. -/
def Guarded (step : S → A → Option S) (ok : S → A → Prop) : S → List A → Prop
  | _, [] => True
  | s, a :: as => ok s a ∧ ∀ s' ∈ step s a, Guarded step ok s' as

instance decidableGuarded (step : S → A → Option S) (ok : S → A → Prop)
    [∀ s a, Decidable (ok s a)] : ∀ s as, Decidable (Guarded step ok s as)
  | _, [] => .isTrue trivial
  | s, a :: as =>
    have (s' : S) : Decidable (Guarded step ok s' as) := decidableGuarded step ok s' as
    inferInstanceAs (Decidable (ok s a ∧ ∀ s' ∈ step s a, Guarded step ok s' as))

variable {step : S → A → Option S} {ok : S → A → Prop} {I : S → Prop}

/-- A run of two parts goes through the state the first one ends in. -/
theorem run_append {s s' : S} {as bs : List A} :
    run step s (as ++ bs) = some s' ↔ ∃ mid, run step s as = some mid ∧ run step mid bs = some s' := by
  induction as generalizing s with
  | nil => simp [run]
  | cons a as ih =>
    simp only [List.cons_append, run, Option.bind_eq_some_iff, ih]
    constructor
    · intro h
      obtain ⟨next, hnext, mid, has, hbs⟩ := h
      exact ⟨mid, ⟨next, hnext, has⟩, hbs⟩
    · intro h
      obtain ⟨mid, ⟨next, hnext, has⟩, hbs⟩ := h
      exact ⟨next, hnext, mid, has, hbs⟩

/-- An invariant of the guarded steps holds wherever a guarded run ends. -/
theorem run_invariant (hstep : ∀ s a s', I s → ok s a → step s a = some s' → I s')
    {s s' : S} {as : List A} (hI : I s) (hg : Guarded step ok s as)
    (h : run step s as = some s') : I s' := by
  induction as generalizing s with
  | nil =>
    cases h
    exact hI
  | cons a as ih =>
    rw [run, Option.bind_eq_some_iff] at h
    obtain ⟨mid, hmid, h⟩ := h
    exact ih (hstep s a mid hI hg.1 hmid) (hg.2 mid hmid) h

theorem Guarded.mono {ok' : S → A → Prop} (hok : ∀ s a, ok s a → ok' s a) {s : S} {as : List A}
    (h : Guarded step ok s as) : Guarded step ok' s as := by
  induction as generalizing s with
  | nil => trivial
  | cons a as ih => exact ⟨hok s a h.1, fun s' hs' => ih (h.2 s' hs')⟩

theorem guarded_append {s s' : S} {as bs : List A} (h : Guarded step ok s (as ++ bs))
    (hrun : run step s as = some s') : Guarded step ok s as ∧ Guarded step ok s' bs := by
  induction as generalizing s with
  | nil =>
    cases hrun
    exact ⟨trivial, h⟩
  | cons a as ih =>
    rw [run, Option.bind_eq_some_iff] at hrun
    obtain ⟨mid, hmid, hrun⟩ := hrun
    obtain ⟨hfirst, hlast⟩ := ih (h.2 mid hmid) hrun
    refine ⟨⟨h.1, ?_⟩, hlast⟩
    intro s₁ hs₁
    obtain rfl : mid = s₁ := Option.some.inj (hmid.symm.trans hs₁)
    exact hfirst

theorem Guarded.and {ok' : S → A → Prop} {s : S} {as : List A} (h : Guarded step ok s as)
    (h' : Guarded step ok' s as) : Guarded step (fun s a => ok s a ∧ ok' s a) s as := by
  induction as generalizing s with
  | nil => trivial
  | cons a as ih => exact ⟨⟨h.1, h'.1⟩, fun s' hs' => ih (h.2 s' hs') (h'.2 s' hs')⟩

theorem guarded_of_forall {p : A → Prop} {s : S} {as : List A} (h : ∀ a ∈ as, p a) :
    Guarded step (fun _ a => p a) s as := by
  induction as generalizing s with
  | nil => trivial
  | cons a as ih =>
    exact ⟨h a List.mem_cons_self, fun s' _ => ih fun b hb => h b (List.mem_cons_of_mem a hb)⟩

/-- A run whose every part ends in a good state keeps to a condition whose violations show at
once. -/
theorem guarded_of_prefixes {P : S → Prop} {p : A → Prop}
    (hstep : ∀ s a s', I s → ok s a ∧ p a → step s a = some s' → I s')
    (hbad : ∀ s a, I s → ¬ ok s a → ∃ s', step s a = some s' ∧ ¬ P s') {s : S} {as : List A}
    (hI : I s) (hp : ∀ a ∈ as, p a) (h : ∀ bs s', bs <+: as → run step s bs = some s' → P s') :
    Guarded step ok s as := by
  induction as generalizing s with
  | nil => trivial
  | cons a as ih =>
    have hok : ok s a := by
      by_contra hnot
      obtain ⟨s', hs', hP⟩ := hbad s a hI hnot
      apply hP
      apply h [a] s' ⟨as, rfl⟩
      simp only [run, hs', Option.bind_some]
    refine ⟨hok, ?_⟩
    intro s' hs'
    apply ih (hstep s a s' hI ⟨hok, hp a List.mem_cons_self⟩ hs')
    · exact fun b hb => hp b (List.mem_cons_of_mem a hb)
    · intro bs t hbs ht
      apply h (a :: bs) t ((List.prefix_cons_inj a).mpr hbs)
      simp only [run]
      rw [Option.mem_def.mp hs']
      exact ht

theorem Guarded.take_front {s : S} {as bs : List A} (h : Guarded step ok s as) (hbs : bs <+: as) :
    Guarded step ok s bs := by
  induction bs generalizing s as with
  | nil => trivial
  | cons b bs ih =>
    obtain ⟨cs, rfl⟩ := hbs
    exact ⟨h.1, fun s' hs' => ih (h.2 s' hs') ⟨cs, rfl⟩⟩

end Machine
