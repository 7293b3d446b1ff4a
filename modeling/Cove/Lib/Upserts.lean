import Cove.Lib.Table

/-! Loops of upserts: every value of a list is written under its key, with an update of its own
where a row is there. -/

namespace Table

variable {K R V : Type} [DecidableEq K]

/-- `INSERT … ON CONFLICT DO UPDATE` of each value of a list. -/
def upsertEach (row : V → R) (merge : V → R → R) (t : Dict K R) (l : List (K × V)) : Dict K R :=
  l.foldl (fun t e => upsert t e.1 (row e.2) (merge e.2)) t

variable {row : V → R} {merge : V → R → R} {t : Dict K R} {l : List (K × V)}

theorem upsertEach_cons (e : K × V) : upsertEach row merge t (e :: l) =
    upsertEach row merge (upsert t e.1 (row e.2) (merge e.2)) l := rfl

/-- A key that is not listed keeps its row. -/
theorem get_upsertEach_of_notMem {k : K} (h : k ∉ l.map Prod.fst) :
    (upsertEach row merge t l).get k = t.get k := by
  induction l generalizing t with
  | nil => rfl
  | cons e l ih =>
    rw [List.map_cons, List.mem_cons, not_or] at h
    rw [upsertEach_cons, ih h.2, get_upsert, if_neg h.1]

/-- A listed value is merged into the row that was there. -/
theorem get_upsertEach_of_mem {k : K} {v : V} (hn : (l.map Prod.fst).Nodup) (h : (k, v) ∈ l) :
    (upsertEach row merge t l).get k = some ((t.get k).elim (row v) (merge v)) := by
  induction l generalizing t with
  | nil => cases h
  | cons e l ih =>
    rw [List.map_cons, List.nodup_cons] at hn
    rw [upsertEach_cons]
    rcases List.mem_cons.mp h with he | h
    · rw [← he] at hn ⊢
      rw [get_upsertEach_of_notMem hn.1, get_upsert, if_pos rfl]
    · have hne : k ≠ e.1 := by
        intro hk
        apply hn.1
        rw [← hk]
        exact List.mem_map_of_mem h
      rw [ih hn.2 h, get_upsert, if_neg hne]

/-- Every value of a map written: the rows of its keys are merged, the others stay. -/
theorem Lists.get_upsertEach {m : Dict K V} (h : Lists l m) (k : K) :
    (upsertEach row merge t l).get k =
      (m.get k).elim (t.get k) fun v => some ((t.get k).elim (row v) (merge v)) := by
  cases hk : m.get k with
  | none =>
    apply get_upsertEach_of_notMem
    intro hmem
    obtain ⟨e, he, rfl⟩ := List.mem_map.mp hmem
    have hv := h.mem_iff.mp he
    rw [hk] at hv
    cases hv
  | some v => exact get_upsertEach_of_mem h.nodup (h.mem_iff.mpr hk)

/-- Where the rows are of values that the map still has, and a merge makes them the row of the
value, every row is the row of its value afterwards. -/
theorem Lists.upsertEach_rows {m m' : Dict K V} (h : Lists l m')
    (ht : ∀ k, t.get k = (m.get k).map row)
    (hkept : ∀ k v, m.get k = some v → ∃ v', m'.get k = some v' ∧ merge v' (row v) = row v')
    (k : K) : (upsertEach row merge t l).get k = (m'.get k).map row := by
  rw [h.get_upsertEach, ht k]
  cases hk : m.get k with
  | none => cases m'.get k <;> rfl
  | some v =>
    obtain ⟨v', hv', hmerge⟩ := hkept k v hk
    rw [hv', Option.elim_some, Option.map_some, Option.elim_some, Option.map_some, hmerge]

end Table
