import Cove.Lib.Table
import Mathlib.Tactic.Ring

/-! What statements do to a sum over the rows of a table. -/

namespace Dict

variable {K V : Type} [DecidableEq K]

/-- A stored pair takes the place of what stood at its key. -/
theorem total_set (f : K → V → Int) (m : Dict K V) (k : K) (v : V) :
    total f (m.set k v) = total f m - ((m.get k).map (f k)).getD 0 + f k v := by
  cases h : m.get k with
  | none =>
    rw [total_set_of_fresh f v h]
    simp only [Option.map_none, Option.getD_none]
    ring
  | some w =>
    have hset : (m.delete k).set k v = m.set k v := by
      apply ext_get
      intro k'
      rw [get_set, get_set, get_delete]
      split_ifs <;> rfl
    rw [← hset, total_set_of_fresh f v (get_delete_self m k), total_delete f h]
    simp only [Option.map_some, Option.getD_some]
    ring

omit [DecidableEq K] in
theorem entries_filter (p : K → V → Bool) (m : Dict K V) :
    (m.filter p).entries = m.entries.filter fun e => p e.1 e.2 = true := by
  rw [entries, filter, entries, Multiset.filter_map]
  rfl

omit [DecidableEq K] in
/-- Rows left out of a sum may as well count for nothing. -/
theorem total_filter (f : K → V → Int) (p : K → V → Bool) (m : Dict K V) :
    total f (m.filter p) = total (fun k v => if p k v then f k v else 0) m := by
  rw [total, total, entries_filter]
  induction m.entries using Multiset.induction with
  | empty => simp
  | cons e s ih =>
    rw [Multiset.filter_cons, Multiset.map_add, Multiset.sum_add, ih]
    by_cases hp : p e.1 e.2 = true <;> simp [hp]

theorem total_congr {f g : K → V → Int} {m : Dict K V}
    (h : ∀ k v, m.get k = some v → f k v = g k v) : total f m = total g m := by
  rw [total, total]
  apply congrArg Multiset.sum
  apply Multiset.map_congr rfl
  intro e he
  exact h e.1 e.2 (mem_entries.mp he)

omit [DecidableEq K] in
theorem total_add (f g : K → V → Int) (m : Dict K V) :
    total (fun k v => f k v + g k v) m = total f m + total g m :=
  Multiset.sum_map_add

end Dict

namespace Table

variable {K R : Type} [DecidableEq K]

/-- An update that changes what each of its rows counts for. -/
theorem total_updateAll (f : K → R → Int) (g : R → R) (w : K → Int) {t : Dict K R} {ks : List K}
    (hn : ks.Nodup) (hrow : ∀ k ∈ ks, ∃ r, t.get k = some r ∧ f k (g r) = f k r - w k) :
    Dict.total f (updateAll t ks g) = Dict.total f t - (ks.map w).sum := by
  induction ks generalizing t with
  | nil => simp [updateAll]
  | cons k ks ih =>
    rw [List.nodup_cons] at hn
    obtain ⟨r, hr, hw⟩ := hrow k List.mem_cons_self
    have hstep : updateAll t (k :: ks) g = updateAll (update t k g) ks g := rfl
    have hone : update t k g = t.set k (g r) := by rw [update, hr]
    have hrest : ∀ k' ∈ ks, ∃ r', (t.set k (g r)).get k' = some r' ∧
        f k' (g r') = f k' r' - w k' := by
      intro k' hk'
      have hne : k' ≠ k := fun h => hn.1 (h ▸ hk')
      rw [Dict.get_set_ne _ _ hne]
      exact hrow k' (List.mem_cons_of_mem _ hk')
    rw [hstep, hone, ih hn.2 hrest, Dict.total_set, hr, List.map_cons, List.sum_cons]
    simp only [Option.map_some, Option.getD_some, hw]
    ring

omit [DecidableEq K] in
/-- A query has some answer. -/
theorem exists_lists (t : Dict K R) : ∃ l, Lists l t := Quot.exists_rep t.entries

end Table
