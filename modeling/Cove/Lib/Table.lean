import Cove.Lib.Checked
import Cove.Lib.Dict

/-! Database tables under a unique key: what statements do to the stored rows, and what a
program that reads all rows, in any order, can rebuild from them. -/

namespace Table

open Checked

variable {K R V : Type} [DecidableEq K]

/-- `INSERT`: a row whose key is taken fails the statement. -/
def insert (t : Dict K R) (k : K) (r : R) : Except Fault (Dict K R) := do
  ensure (t.get k = none) ⟨some "23505", "duplicate key value violates unique constraint"⟩
  return t.set k r

def insertAll (t : Dict K R) : List (K × R) → Except Fault (Dict K R)
  | [] => .ok t
  | e :: l => do
    let t ← insert t e.1 e.2
    insertAll t l

/-- `UPDATE … WHERE` the key is the given one. -/
def update (t : Dict K R) (k : K) (f : R → R) : Dict K R :=
  match t.get k with
  | some r => t.set k (f r)
  | none => t

def updateAll (t : Dict K R) (ks : List K) (f : R → R) : Dict K R :=
  ks.foldl (fun t k => update t k f) t

/-- `INSERT … ON CONFLICT DO UPDATE`. -/
def upsert (t : Dict K R) (k : K) (r : R) (f : R → R) : Dict K R :=
  match t.get k with
  | some old => t.set k (f old)
  | none => t.set k r

def upsertAll (t : Dict K R) (l : List (K × R)) (f : R → R) : Dict K R :=
  l.foldl (fun t e => upsert t e.1 e.2 f) t

/-- `DELETE … WHERE` a test of the row. -/
def deleteWhere (t : Dict K R) (p : R → Bool) : Dict K R := t.filter fun _ r => !p r

/-- `UPDATE … WHERE` a test of the row. -/
def updateWhere (t : Dict K R) (p : R → Bool) (f : R → R) : Dict K R :=
  t.map fun _ r => if p r then f r else r

/-- `SELECT … WHERE` a test of the row, in the order the database has the keys in. None when
the order repeats a key or misses a row. -/
def select (order : List K) (t : Dict K R) (p : R → Bool) : Option (List (K × R)) :=
  if order.Nodup ∧ ∀ k r, t.get k = some r → p r = true → k ∈ order then
    some (order.filterMap fun k => ((t.get k).filter p).map (k, ·))
  else none

theorem insert_of_fresh {t : Dict K R} {k : K} (r : R) (h : t.get k = none) :
    insert t k r = .ok (t.set k r) := by
  simp [insert, h, ensure, bind, Except.bind, pure, Except.pure]

theorem insertAll_of_fresh {t : Dict K R} {l : List (K × R)} (hf : ∀ e ∈ l, t.get e.1 = none)
    (hn : (l.map Prod.fst).Nodup) : insertAll t l = .ok (t.setAll l) := by
  induction l generalizing t with
  | nil => rfl
  | cons e l ih =>
    rw [List.map_cons, List.nodup_cons] at hn
    have hf' : ∀ a ∈ l, (t.set e.1 e.2).get a.1 = none := by
      intro a ha
      have hne : a.1 ≠ e.1 := fun h => hn.1 (h ▸ List.mem_map_of_mem ha)
      rw [Dict.get_set_ne _ _ hne]
      exact hf a (List.mem_cons_of_mem _ ha)
    rw [insertAll, insert_of_fresh _ (hf e List.mem_cons_self)]
    exact ih hf' hn.2

theorem get_update (t : Dict K R) (k k' : K) (f : R → R) :
    (update t k f).get k' = if k' = k then (t.get k').map f else t.get k' := by
  unfold update
  by_cases hk : k' = k
  · subst hk
    cases h : t.get k' <;> simp [h]
  · cases h : t.get k <;> simp [Dict.get_set, hk]

theorem get_updateWhere (t : Dict K R) (p : R → Bool) (f : R → R) (k : K) :
    (updateWhere t p f).get k = (t.get k).map fun r => if p r then f r else r :=
  Dict.get_map _ _ _

/-- A select returns exactly the rows that pass, each once. -/
theorem select_eq_some {order : List K} {t : Dict K R} {p : R → Bool} {rows : List (K × R)}
    (h : select order t p = some rows) :
    (∀ k r, (k, r) ∈ rows ↔ t.get k = some r ∧ p r = true) ∧ (rows.map Prod.fst).Nodup := by
  unfold select at h
  split at h
  · rename_i hcond
    obtain ⟨hn, hall⟩ := hcond
    obtain rfl := Option.some.inj h
    constructor
    · intro k r
      rw [List.mem_filterMap]
      constructor
      · intro hex
        obtain ⟨k', -, hk'⟩ := hex
        obtain ⟨r', hr', heq⟩ := Option.map_eq_some_iff.mp hk'
        obtain ⟨rfl, rfl⟩ := Prod.mk.inj heq
        exact Option.filter_eq_some_iff.mp hr'
      · intro hr
        exact ⟨k, hall k r hr.1 hr.2, by rw [hr.1]; simp [hr.2]⟩
    · rw [List.map_filterMap]
      refine hn.filterMap ?_
      intro k k' b hb hb'
      simp only [Option.mem_def, Option.map_eq_some_iff, Option.map_map] at hb hb'
      obtain ⟨_, -, rfl⟩ := hb
      obtain ⟨_, -, heq⟩ := hb'
      exact heq.symm
  · cases h

theorem get_updateAll (t : Dict K R) {ks : List K} (f : R → R) (hn : ks.Nodup) (k : K) :
    (updateAll t ks f).get k = if k ∈ ks then (t.get k).map f else t.get k := by
  induction ks generalizing t with
  | nil => simp [updateAll]
  | cons a ks ih =>
    rw [List.nodup_cons] at hn
    have hstep : updateAll t (a :: ks) f = updateAll (update t a f) ks f := rfl
    rw [hstep, ih _ hn.2, get_update]
    by_cases hk : k = a
    · simp [hk, hn.1]
    · simp [hk]

theorem get_upsert (t : Dict K R) (k k' : K) (r : R) (f : R → R) :
    (upsert t k r f).get k' = if k' = k then some ((t.get k).elim r f) else t.get k' := by
  unfold upsert
  cases h : t.get k <;> simp [Dict.get_set]

/-- A conflict that rewrites every column replaces the row. -/
theorem upsert_const (t : Dict K R) (k : K) (r : R) : (upsert t k r fun _ => r) = t.set k r := by
  unfold upsert
  cases t.get k <;> rfl

/-- An upsert of rows that are there updates them. -/
theorem upsertAll_eq_updateAll {t : Dict K R} {l : List (K × R)} (f : R → R)
    (h : ∀ e ∈ l, t.get e.1 ≠ none) : upsertAll t l f = updateAll t (l.map Prod.fst) f := by
  induction l generalizing t with
  | nil => rfl
  | cons e l ih =>
    have hone : upsert t e.1 e.2 f = update t e.1 f := by
      obtain ⟨r, hr⟩ := Option.ne_none_iff_exists'.mp (h e List.mem_cons_self)
      rw [upsert, update, hr]
    have hrest : ∀ a ∈ l, (update t e.1 f).get a.1 ≠ none := by
      intro a ha
      rw [get_update]
      have hne := h a (List.mem_cons_of_mem _ ha)
      split <;> simpa using hne
    calc upsertAll t (e :: l) f = upsertAll (update t e.1 f) l f := by rw [← hone]; rfl
      _ = updateAll t ((e :: l).map Prod.fst) f := ih hrest

/-! Reading a table. -/

/-- The pairs of a table as a query without an order returns them. -/
def Lists (l : List (K × R)) (t : Dict K R) : Prop := (l : Multiset (K × R)) = t.entries

theorem Lists.mem_iff {l : List (K × R)} {t : Dict K R} (h : Lists l t) {k : K} {r : R} :
    (k, r) ∈ l ↔ t.get k = some r := by
  rw [← Multiset.mem_coe, h, Dict.mem_entries]

omit [DecidableEq K] in
theorem Lists.nodup {l : List (K × R)} {t : Dict K R} (h : Lists l t) :
    (l.map Prod.fst).Nodup := by
  have hn := t.keys_nodup
  rw [← h] at hn
  exact Multiset.coe_nodup.mp hn

/-- A loop that turns rows into entries of a map; each row may be checked against the
entries read so far. -/
def load (read : Dict K V → K → R → Except Fault V) :
    List (K × R) → Dict K V → Except Fault (Dict K V)
  | [], m => .ok m
  | (k, r) :: l, m => do
    let v ← read m k r
    load read l (m.set k v)

theorem load_eq_setAll {read : Dict K V → K → R → Except Fault V} (f : K → R → V)
    {l : List (K × R)} {m : Dict K V}
    (hread : ∀ e ∈ l, ∀ m : Dict K V, m.get e.1 = none → read m e.1 e.2 = .ok (f e.1 e.2))
    (hn : (l.map Prod.fst).Nodup) (hm : ∀ e ∈ l, m.get e.1 = none) :
    load read l m = .ok (m.setAll (l.map fun e => (e.1, f e.1 e.2))) := by
  induction l generalizing m with
  | nil => rfl
  | cons e l ih =>
    rw [List.map_cons, List.nodup_cons] at hn
    have hm' : ∀ a ∈ l, (m.set e.1 (f e.1 e.2)).get a.1 = none := by
      intro a ha
      have hne : a.1 ≠ e.1 := fun h => hn.1 (h ▸ List.mem_map_of_mem ha)
      rw [Dict.get_set_ne _ _ hne]
      exact hm a (List.mem_cons_of_mem _ ha)
    have hhead := hread e List.mem_cons_self m (hm e List.mem_cons_self)
    rw [load, hhead]
    exact ih (fun a ha => hread a (List.mem_cons_of_mem _ ha)) hn.2 hm'

/-- When every row reads well, the loop rebuilds the table row by row. -/
theorem Lists.load {f : K → R → V} {l : List (K × R)} {t : Dict K R} (h : Lists l t)
    (read : Dict K V → K → R → Except Fault V)
    (hread : ∀ k r, t.get k = some r →
      ∀ m : Dict K V, m.get k = none → read m k r = .ok (f k r)) :
    ∃ m, Table.load read l ∅ = .ok m ∧ ∀ k, m.get k = (t.get k).map (f k) := by
  refine ⟨_, load_eq_setAll f (fun e he => hread e.1 e.2 (h.mem_iff.mp he)) h.nodup (by simp), ?_⟩
  intro k
  cases hk : t.get k with
  | none =>
    rw [Dict.get_setAll_of_notMem]
    · simp
    · rw [List.map_map]
      intro hmem
      obtain ⟨⟨k', r⟩, he, rfl⟩ := List.mem_map.mp hmem
      have hr := h.mem_iff.mp he
      rw [Function.comp_apply, hr] at hk
      cases hk
  | some r =>
    apply Dict.get_setAll_of_mem
    · intro e he hek
      obtain ⟨⟨k', r'⟩, he', rfl⟩ := List.mem_map.mp he
      have hr := h.mem_iff.mp he'
      dsimp only at hek
      subst hek
      rw [hk] at hr
      rw [Option.some.inj hr]
    · exact List.mem_map.mpr ⟨(k, r), h.mem_iff.mpr hk, rfl⟩

end Table
