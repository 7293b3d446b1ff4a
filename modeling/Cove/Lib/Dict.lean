import Mathlib.Data.Finmap
import Mathlib.Data.Multiset.Filter
import Mathlib.Algebra.BigOperators.Group.Finset.Basic
import Mathlib.Algebra.BigOperators.Group.Multiset.Basic
import Mathlib.Tactic.Common
import Mathlib.Tactic.Abel

/-- A finite map as programs use one: keys to values, equal when every lookup is. -/
@[ext] structure Dict (K V : Type) where
  toFinmap : Finmap fun _ : K => V

namespace Dict

variable {K V W : Type}

instance : EmptyCollection (Dict K V) := ⟨⟨∅⟩⟩

instance : Inhabited (Dict K V) := ⟨∅⟩

instance [DecidableEq K] [DecidableEq V] : DecidableEq (Dict K V) := fun m m' =>
  decidable_of_iff (m.toFinmap = m'.toFinmap) Dict.ext_iff.symm

/-- The stored pairs, without an order. -/
def entries (m : Dict K V) : Multiset (K × V) :=
  m.toFinmap.entries.map fun e => (e.1, e.2)

def values (m : Dict K V) : Multiset V := m.entries.map Prod.snd

/-- The sum of a weight over the stored pairs. -/
def total (f : K → V → Int) (m : Dict K V) : Int := (m.entries.map fun e => f e.1 e.2).sum

@[simp] theorem entries_empty : (∅ : Dict K V).entries = 0 := rfl

@[simp] theorem total_empty (f : K → V → Int) : total f (∅ : Dict K V) = 0 := rfl

variable [DecidableEq K]

def get (m : Dict K V) (k : K) : Option V := m.toFinmap.lookup k

def set (m : Dict K V) (k : K) (v : V) : Dict K V := ⟨m.toFinmap.insert k v⟩

def delete (m : Dict K V) (k : K) : Dict K V := ⟨m.toFinmap.erase k⟩

def has (m : Dict K V) (k : K) : Bool := (m.get k).isSome

def setAll (m : Dict K V) (l : List (K × V)) : Dict K V :=
  l.foldl (fun m e => m.set e.1 e.2) m

def deleteAll (m : Dict K V) (ks : List K) : Dict K V :=
  ks.foldl (fun m k => m.delete k) m

theorem ext_get {m m' : Dict K V} (h : ∀ k, m.get k = m'.get k) : m = m' :=
  Dict.ext (Finmap.ext_lookup h)

@[simp] theorem get_empty (k : K) : (∅ : Dict K V).get k = none := Finmap.lookup_empty k

theorem get_set (m : Dict K V) (k k' : K) (v : V) :
    (m.set k v).get k' = if k' = k then some v else m.get k' := by
  by_cases h : k' = k
  · subst h
    rw [if_pos rfl]
    exact Finmap.lookup_insert _
  · rw [if_neg h]
    exact Finmap.lookup_insert_of_ne _ h

@[simp] theorem get_set_self (m : Dict K V) (k : K) (v : V) : (m.set k v).get k = some v := by
  simp [get_set]

theorem get_set_ne (m : Dict K V) {k k' : K} (v : V) (h : k' ≠ k) :
    (m.set k v).get k' = m.get k' := by
  simp [get_set, h]

theorem get_delete (m : Dict K V) (k k' : K) :
    (m.delete k).get k' = if k' = k then none else m.get k' := by
  by_cases h : k' = k
  · subst h
    rw [if_pos rfl]
    exact Finmap.lookup_erase _ _
  · rw [if_neg h]
    exact Finmap.lookup_erase_ne h

@[simp] theorem get_delete_self (m : Dict K V) (k : K) : (m.delete k).get k = none := by
  simp [get_delete]

theorem has_iff {m : Dict K V} {k : K} : m.has k = true ↔ ∃ v, m.get k = some v := by
  simp [has, Option.isSome_iff_exists]

/-! Bulk updates: lookups after a list of deletions or of insertions. -/

@[simp] theorem deleteAll_nil (m : Dict K V) : m.deleteAll [] = m := rfl

@[simp] theorem deleteAll_cons (m : Dict K V) (k : K) (ks : List K) :
    m.deleteAll (k :: ks) = (m.delete k).deleteAll ks := rfl

@[simp] theorem setAll_nil (m : Dict K V) : m.setAll [] = m := rfl

@[simp] theorem setAll_cons (m : Dict K V) (e : K × V) (l : List (K × V)) :
    m.setAll (e :: l) = (m.set e.1 e.2).setAll l := rfl

theorem get_deleteAll (m : Dict K V) (ks : List K) (k : K) :
    (m.deleteAll ks).get k = if k ∈ ks then none else m.get k := by
  induction ks generalizing m with
  | nil => simp
  | cons a ks ih =>
    rw [deleteAll_cons, ih, get_delete]
    by_cases h : k ∈ ks <;> by_cases ha : k = a <;> simp [h, ha]

theorem get_setAll_of_notMem (m : Dict K V) (l : List (K × V)) (k : K)
    (h : k ∉ l.map Prod.fst) : (m.setAll l).get k = m.get k := by
  induction l generalizing m with
  | nil => rfl
  | cons e l ih =>
    have hn : k ≠ e.1 ∧ k ∉ l.map Prod.fst := by simpa only [List.map_cons, List.mem_cons, not_or] using h
    rw [setAll_cons, ih _ hn.2, get_set_ne _ _ hn.1]

/-- When the list never gives one key two values, each listed pair is found. -/
theorem get_setAll_of_mem (m : Dict K V) (l : List (K × V)) (k : K) (v : V)
    (hf : ∀ e ∈ l, e.1 = k → e.2 = v) (h : (k, v) ∈ l) : (m.setAll l).get k = some v := by
  induction l generalizing m with
  | nil => simp at h
  | cons e l ih =>
    rw [setAll_cons]
    by_cases hk : k ∈ l.map Prod.fst
    · obtain ⟨e', he', hek⟩ := List.mem_map.mp hk
      have hv : e'.2 = v := hf e' (List.mem_cons_of_mem _ he') hek
      have hm : (k, v) ∈ l := by rw [← hek, ← hv]; exact he'
      exact ih _ (fun a ha => hf a (List.mem_cons_of_mem _ ha)) hm
    · have he : e = (k, v) := by
        rcases List.mem_cons.mp h with h | h
        · exact h.symm
        · exact absurd (List.mem_map.mpr ⟨_, h, rfl⟩) hk
      rw [get_setAll_of_notMem _ _ _ hk, he, get_set_self]

theorem get_setAll_cases (m : Dict K V) (l : List (K × V)) (k : K) (v : V)
    (h : (m.setAll l).get k = some v) : (k, v) ∈ l ∨ m.get k = some v := by
  induction l generalizing m with
  | nil => exact Or.inr h
  | cons e l ih =>
    rcases ih _ h with hm | hm
    · exact Or.inl (List.mem_cons_of_mem _ hm)
    · rw [get_set] at hm
      by_cases hk : k = e.1
      · rw [if_pos hk] at hm
        left
        have : e.2 = v := Option.some.inj hm
        rw [hk, ← this]
        exact List.mem_cons_self
      · rw [if_neg hk] at hm
        exact Or.inr hm

theorem has_setAll (m : Dict K V) (l : List (K × V)) (k : K) :
    (m.setAll l).has k = true ↔ k ∈ l.map Prod.fst ∨ m.has k = true := by
  induction l generalizing m with
  | nil => simp
  | cons e l ih =>
    rw [setAll_cons, ih]
    by_cases h : k = e.1
    · simp [h, has]
    · simp [h, has, get_set_ne]

/-- Pairs of a map put back on top of any map that agrees elsewhere. -/
theorem setAll_eq_of_agree (m m' : Dict K V) (l : List (K × V))
    (hl : ∀ e ∈ l, m.get e.1 = some e.2)
    (hm : ∀ k, k ∉ l.map Prod.fst → m'.get k = m.get k) : m'.setAll l = m := by
  apply ext_get
  intro k
  by_cases hk : k ∈ l.map Prod.fst
  · obtain ⟨e, he, rfl⟩ := List.mem_map.mp hk
    rw [hl e he]
    apply get_setAll_of_mem _ _ _ _ _ he
    intro e' he' hek
    have h' := hl e' he'
    rw [hek, hl e he] at h'
    exact (Option.some.inj h').symm
  · rw [get_setAll_of_notMem _ _ _ hk, hm k hk]

/-- Taking pairs out and new ones in is reversed by taking the new ones out
and putting the old ones back. -/
theorem swap_back (m : Dict K V) (out new : List (K × V))
    (ho : ∀ e ∈ out, m.get e.1 = some e.2) (hn : ∀ e ∈ new, m.get e.1 = none) :
    (((m.deleteAll (out.map Prod.fst)).setAll new).deleteAll (new.map Prod.fst)).setAll out = m := by
  apply setAll_eq_of_agree m _ out ho
  intro k hk
  rw [get_deleteAll]
  by_cases hkn : k ∈ new.map Prod.fst
  · obtain ⟨e, he, rfl⟩ := List.mem_map.mp hkn
    rw [if_pos hkn, hn e he]
  · rw [if_neg hkn, get_setAll_of_notMem _ _ _ hkn, get_deleteAll, if_neg hk]

theorem set_back {m : Dict K V} {k : K} {v w : V}
    (h : m.get k = some v) : (m.set k w).set k v = m := by
  apply ext_get
  intro k'
  by_cases hk : k' = k
  · rw [hk, get_set_self, h]
  · rw [get_set_ne _ _ hk, get_set_ne _ _ hk]

theorem delete_back {m : Dict K V} {k : K} {w : V}
    (h : m.get k = none) : (m.set k w).delete k = m := by
  apply ext_get
  intro k'
  rw [get_delete, get_set]
  by_cases hk : k' = k
  · rw [if_pos hk, hk, h]
  · rw [if_neg hk, if_neg hk]

/-- The stored pairs that satisfy a test. -/
def filter (p : K → V → Bool) (m : Dict K V) : Dict K V :=
  ⟨m.toFinmap.entries.filter fun e => p e.1 e.2, by
    have hn := m.toFinmap.nodupKeys
    generalize m.toFinmap.entries = s at hn
    induction s using Quotient.inductionOn with
    | h l => exact List.NodupKeys.sublist List.filter_sublist hn⟩

/-- Every stored value changed in place. -/
def map (f : K → V → V) (m : Dict K V) : Dict K V :=
  ⟨m.toFinmap.entries.map fun e => ⟨e.1, f e.1 e.2⟩, by
    have hn := m.toFinmap.nodupKeys
    generalize m.toFinmap.entries = s at hn
    induction s using Quotient.inductionOn with
    | h l =>
      change (l.map fun e => (⟨e.1, f e.1 e.2⟩ : Sigma fun _ : K => V)).NodupKeys
      rw [List.NodupKeys, List.keys, List.map_map]
      exact hn⟩

/-! Sums over the stored pairs. -/

theorem mem_entries {m : Dict K V} {k : K} {v : V} :
    (k, v) ∈ m.entries ↔ m.get k = some v := by
  rw [get, Finmap.lookup_eq_some_iff, entries, Multiset.mem_map]
  constructor
  · rintro ⟨⟨k', v'⟩, he, h⟩
    simp only [Prod.mk.injEq] at h
    obtain ⟨rfl, rfl⟩ := h
    exact he
  · intro h
    exact ⟨⟨k, v⟩, h, rfl⟩

theorem get_filter (p : K → V → Bool) (m : Dict K V) (k : K) :
    (m.filter p).get k = (m.get k).filter (p k) := by
  have hiff : ∀ v, (m.filter p).get k = some v ↔ (m.get k).filter (p k) = some v := by
    intro v
    rw [get, Finmap.lookup_eq_some_iff, Option.filter_eq_some_iff, get, Finmap.lookup_eq_some_iff]
    exact Multiset.mem_filter
  exact Option.ext hiff

theorem get_map (f : K → V → V) (m : Dict K V) (k : K) :
    (m.map f).get k = (m.get k).map (f k) := by
  have hiff : ∀ v, (m.map f).get k = some v ↔ (m.get k).map (f k) = some v := by
    intro v
    rw [get, Finmap.lookup_eq_some_iff, Option.map_eq_some_iff]
    change _ ∈ Multiset.map _ _ ↔ _
    rw [Multiset.mem_map]
    constructor
    · intro h
      obtain ⟨⟨k', w⟩, he, heq⟩ := h
      simp only [Sigma.mk.injEq, heq_eq_eq] at heq
      obtain ⟨rfl, rfl⟩ := heq
      exact ⟨w, Finmap.lookup_eq_some_iff.mpr he, rfl⟩
    · intro h
      obtain ⟨w, hw, rfl⟩ := h
      exact ⟨⟨k, w⟩, Finmap.lookup_eq_some_iff.mp hw, rfl⟩
  exact Option.ext hiff

theorem mem_values {m : Dict K V} {v : V} : v ∈ m.values ↔ ∃ k, m.get k = some v := by
  rw [values, Multiset.mem_map]
  constructor
  · intro h
    obtain ⟨e, he, rfl⟩ := h
    exact ⟨e.1, mem_entries.mp he⟩
  · intro h
    obtain ⟨k, hg⟩ := h
    exact ⟨(k, v), mem_entries.mpr hg, rfl⟩

omit [DecidableEq K] in
/-- The keys of the stored pairs differ. -/
theorem keys_nodup (m : Dict K V) : (m.entries.map Prod.fst).Nodup := by
  have hn := m.toFinmap.nodupKeys
  rw [entries, Multiset.map_map]
  generalize m.toFinmap.entries = s at hn
  induction s using Quotient.inductionOn with
  | h l => exact hn

/-- A property of every stored pair can be decided. -/
instance decidableForall (m : Dict K V) (p : K → V → Prop) [∀ k v, Decidable (p k v)] :
    Decidable (∀ k v, m.get k = some v → p k v) :=
  decidable_of_iff (∀ e ∈ m.entries, p e.1 e.2)
    ⟨fun h k v hg => h (k, v) (mem_entries.mpr hg), fun h e he => h e.1 e.2 (mem_entries.mp he)⟩

/-- So can the existence of a stored pair. -/
instance decidableExists (m : Dict K V) (p : K → V → Prop) [∀ k v, Decidable (p k v)] :
    Decidable (∃ k v, m.get k = some v ∧ p k v) :=
  have : Decidable (∃ e ∈ m.entries, p e.1 e.2) := Multiset.decidableExistsMultiset
  decidable_of_iff (∃ e ∈ m.entries, p e.1 e.2)
    ⟨fun ⟨e, he, hp⟩ => ⟨e.1, e.2, mem_entries.mp he, hp⟩,
      fun ⟨k, v, hg, hp⟩ => ⟨(k, v), mem_entries.mpr hg, hp⟩⟩

theorem entries_set_of_fresh {m : Dict K V} {k : K} (v : V) (h : m.get k = none) :
    (m.set k v).entries = (k, v) ::ₘ m.entries := by
  have hk : k ∉ m.toFinmap := Finmap.lookup_eq_none.mp h
  rw [entries, set, Finmap.entries_insert_of_notMem hk, Multiset.map_cons]
  rfl

theorem set_delete {m : Dict K V} {k : K} {v : V} (h : m.get k = some v) :
    (m.delete k).set k v = m := by
  apply ext_get
  intro k'
  rw [get_set, get_delete]
  by_cases hk : k' = k
  · rw [if_pos hk, hk, h]
  · rw [if_neg hk, if_neg hk]

theorem entries_of_get {m : Dict K V} {k : K} {v : V} (h : m.get k = some v) :
    m.entries = (k, v) ::ₘ (m.delete k).entries := by
  rw [← entries_set_of_fresh v (get_delete_self m k), set_delete h]

theorem total_set_of_fresh (f : K → V → Int) {m : Dict K V} {k : K} (v : V)
    (h : m.get k = none) : total f (m.set k v) = f k v + total f m := by
  simp [total, entries_set_of_fresh v h]

theorem total_delete (f : K → V → Int) {m : Dict K V} {k : K} {v : V}
    (h : m.get k = some v) : total f (m.delete k) = total f m - f k v := by
  rw [total, total, entries_of_get h, Multiset.map_cons, Multiset.sum_cons]
  abel

theorem total_deleteAll (f : K → V → Int) (m : Dict K V) (l : List (K × V))
    (hl : ∀ e ∈ l, m.get e.1 = some e.2) (hn : (l.map Prod.fst).Nodup) :
    total f (m.deleteAll (l.map Prod.fst)) = total f m - (l.map fun e => f e.1 e.2).sum := by
  induction l generalizing m with
  | nil => simp
  | cons e l ih =>
    obtain ⟨he, hn'⟩ := List.nodup_cons.mp (by simpa only [List.map_cons] using hn)
    have hl' : ∀ a ∈ l, (m.delete e.1).get a.1 = some a.2 := by
      intro a ha
      have hne : a.1 ≠ e.1 := fun h => he (h ▸ List.mem_map.mpr ⟨a, ha, rfl⟩)
      rw [get_delete, if_neg hne]
      exact hl a (List.mem_cons_of_mem _ ha)
    rw [List.map_cons, deleteAll_cons, ih _ hl' hn', total_delete f (hl e List.mem_cons_self)]
    simp only [List.map_cons, List.sum_cons]
    abel

theorem total_setAll (f : K → V → Int) (m : Dict K V) (l : List (K × V))
    (hl : ∀ e ∈ l, m.get e.1 = none) (hn : (l.map Prod.fst).Nodup) :
    total f (m.setAll l) = total f m + (l.map fun e => f e.1 e.2).sum := by
  induction l generalizing m with
  | nil => simp
  | cons e l ih =>
    obtain ⟨he, hn'⟩ := List.nodup_cons.mp (by simpa only [List.map_cons] using hn)
    have hl' : ∀ a ∈ l, (m.set e.1 e.2).get a.1 = none := by
      intro a ha
      have hne : a.1 ≠ e.1 := fun h => he (h ▸ List.mem_map.mpr ⟨a, ha, rfl⟩)
      rw [get_set_ne _ _ hne]
      exact hl a (List.mem_cons_of_mem _ ha)
    rw [setAll_cons, ih _ hl' hn', total_set_of_fresh f _ (hl e List.mem_cons_self)]
    simp only [List.map_cons, List.sum_cons]
    abel

/-- A total of a weight that depends on the key alone is a sum over the keys. -/
theorem total_eq_sum {m : Dict K V} {f : K → V → Int} {g : K → Int} {keys : Finset K}
    (hkeys : ∀ k, k ∈ keys ↔ m.has k = true) (hf : ∀ k v, m.get k = some v → f k v = g k) :
    total f m = ∑ k ∈ keys, g k := by
  have hmap : (m.entries.map fun e => f e.1 e.2) = (m.entries.map Prod.fst).map g := by
    rw [Multiset.map_map]
    apply Multiset.map_congr rfl
    intro e he
    exact hf e.1 e.2 (mem_entries.mp he)
  have hval : m.entries.map Prod.fst = keys.val := by
    apply (Multiset.Nodup.ext m.keys_nodup keys.nodup).mpr
    intro k
    rw [Finset.mem_val, hkeys, has_iff, Multiset.mem_map]
    constructor
    · intro h
      obtain ⟨e, he, hk⟩ := h
      exact ⟨e.2, by rw [← hk]; exact mem_entries.mp he⟩
    · intro h
      obtain ⟨v, hv⟩ := h
      exact ⟨(k, v), mem_entries.mpr hv, rfl⟩
  rw [total, hmap, hval, Finset.sum]

end Dict
