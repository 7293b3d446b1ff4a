import Mathlib.Algebra.BigOperators.Group.List.Basic
import Mathlib.Algebra.Order.BigOperators.Group.List
import Mathlib.Data.List.Induction
import Mathlib.Data.List.Nodup
import Mathlib.Tactic.Ring

/-! Totals by key, in the order the keys first appear. -/

namespace Tally

variable {K : Type} [DecidableEq K] {k k' : K} {n : Int} {m l : List (K × Int)}

/-- Add to the entry of a key, or append one. -/
def add (k : K) (n : Int) : List (K × Int) → List (K × Int)
  | [] => [(k, n)]
  | e :: m => if e.1 = k then (k, e.2 + n) :: m else e :: add k n m

/-- One entry for each key. -/
def tally (l : List (K × Int)) : List (K × Int) := l.foldl (fun m e => add e.1 e.2 m) []

/-- What a list holds under a key. -/
def amount (k : K) (l : List (K × Int)) : Int := (l.map fun e => if e.1 = k then e.2 else 0).sum

theorem amount_cons (k : K) (e : K × Int) (l : List (K × Int)) :
    amount k (e :: l) = (if e.1 = k then e.2 else 0) + amount k l := by
  simp [amount]

theorem amount_add (k k' : K) (n : Int) (m : List (K × Int)) :
    amount k (add k' n m) = amount k m + if k' = k then n else 0 := by
  induction m with
  | nil => simp [add, amount]
  | cons e m ih =>
    rw [add]
    split
    · rename_i he
      subst he
      rw [amount_cons, amount_cons]
      split
      · ring
      · ring
    · rw [amount_cons, amount_cons, ih]
      ring

theorem keys_add (k : K) (n : Int) (m : List (K × Int)) :
    (add k n m).map Prod.fst =
      if k ∈ m.map Prod.fst then m.map Prod.fst else m.map Prod.fst ++ [k] := by
  induction m with
  | nil => simp [add]
  | cons e m ih =>
    rw [add]
    by_cases he : e.1 = k
    · simp [he]
    · have hne : k ≠ e.1 := fun h => he h.symm
      rw [if_neg he, List.map_cons, ih, List.map_cons]
      by_cases hk : k ∈ m.map Prod.fst
      · rw [if_pos hk, if_pos (List.mem_cons_of_mem _ hk)]
      · have hnot : k ∉ e.1 :: m.map Prod.fst := by simp [hne, hk]
        rw [if_neg hk, if_neg hnot, List.cons_append]

theorem sum_add (k : K) (n : Int) (m : List (K × Int)) :
    ((add k n m).map Prod.snd).sum = (m.map Prod.snd).sum + n := by
  induction m with
  | nil => simp [add]
  | cons e m ih =>
    rw [add]
    split
    · simp only [List.map_cons, List.sum_cons]
      ring
    · simp only [List.map_cons, List.sum_cons, ih]
      ring

/-- A property of a fold that each step carries on. -/
theorem tally_rule (P : List (K × Int) → List (K × Int) → Prop) (hnil : P [] [])
    (hstep : ∀ l e m, P l m → P (l ++ [e]) (add e.1 e.2 m)) : P l (tally l) := by
  induction l using List.reverseRecOn with
  | nil => exact hnil
  | append_singleton l e ih =>
    rw [tally, List.foldl_append]
    exact hstep l e _ ih

theorem amount_tally (k : K) (l : List (K × Int)) : amount k (tally l) = amount k l := by
  apply tally_rule (fun l m => amount k m = amount k l) rfl
  intro l e m h
  rw [amount_add, h]
  simp [amount]

theorem sum_tally (l : List (K × Int)) :
    ((tally l).map Prod.snd).sum = (l.map Prod.snd).sum := by
  apply tally_rule (fun l m => (m.map Prod.snd).sum = (l.map Prod.snd).sum) rfl
  intro l e m h
  rw [sum_add, h]
  simp

theorem nodup_tally (l : List (K × Int)) : ((tally l).map Prod.fst).Nodup := by
  apply tally_rule (fun _ m => (m.map Prod.fst).Nodup) List.nodup_nil
  intro l e m h
  rw [keys_add]
  split
  · exact h
  · rename_i hnot
    rw [List.nodup_append]
    refine ⟨h, List.nodup_singleton _, ?_⟩
    intro a ha b hb hab
    rw [List.mem_singleton] at hb
    rw [hab, hb] at ha
    exact hnot ha

theorem mem_keys_tally (k : K) (l : List (K × Int)) :
    k ∈ (tally l).map Prod.fst ↔ k ∈ l.map Prod.fst := by
  apply tally_rule (fun l m => k ∈ m.map Prod.fst ↔ k ∈ l.map Prod.fst) Iff.rfl
  intro l e m h
  rw [keys_add, List.map_append, List.mem_append, ← h]
  split
  · rename_i hmem
    constructor
    · exact Or.inl
    · rintro (hk | hk)
      · exact hk
      · have hke : k = e.1 := by simpa using hk
        rwa [hke]
  · simp

theorem amount_eq_zero (h : k ∉ l.map Prod.fst) : amount k l = 0 := by
  induction l with
  | nil => rfl
  | cons e l ih =>
    have hne : e.1 ≠ k := fun he => h (by simp [he])
    have hrest : k ∉ l.map Prod.fst := fun hk => h (by
      rw [List.map_cons]
      exact List.mem_cons_of_mem _ hk)
    rw [amount_cons, if_neg hne, ih hrest, zero_add]

/-- With one entry for each key, an entry is the amount of its key. -/
theorem eq_amount (hn : (m.map Prod.fst).Nodup) (h : (k, n) ∈ m) : n = amount k m := by
  induction m with
  | nil => simp at h
  | cons e m ih =>
    rw [List.map_cons, List.nodup_cons] at hn
    rw [amount_cons]
    rcases List.mem_cons.mp h with he | hm
    · subst he
      rw [amount_eq_zero hn.1]
      simp
    · have hne : e.1 ≠ k := fun he => hn.1 (he ▸ List.mem_map_of_mem hm)
      rw [if_neg hne, zero_add]
      exact ih hn.2 hm

theorem amount_pos (hp : ∀ e ∈ l, 0 < e.2) (h : k ∈ l.map Prod.fst) : 0 < amount k l := by
  induction l with
  | nil => simp at h
  | cons e l ih =>
    have hrest : ∀ x ∈ l.map fun e => if e.1 = k then e.2 else 0, (0 : Int) ≤ x := by
      intro x hx
      obtain ⟨a, ha, rfl⟩ := List.mem_map.mp hx
      have hpos := hp a (List.mem_cons_of_mem _ ha)
      split <;> omega
    have hnonneg : 0 ≤ amount k l := List.sum_nonneg hrest
    have hpe := hp e List.mem_cons_self
    rw [amount_cons]
    by_cases he : e.1 = k
    · rw [if_pos he]
      omega
    · have hk : k ∈ l.map Prod.fst := by
        rw [List.map_cons] at h
        rcases List.mem_cons.mp h with h | h
        · exact absurd h.symm he
        · exact h
      have hpos := ih (fun a ha => hp a (List.mem_cons_of_mem _ ha)) hk
      rw [if_neg he]
      omega

end Tally
