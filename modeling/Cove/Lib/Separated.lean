import Cove.Lib.Bytes

/-! Texts joined by a separator that none of them holds, and sorted collections of texts. -/

namespace Bytes

theorem join_eq_intercalate (sep : Bytes) (parts : List Bytes) :
    join sep parts = sep.intercalate parts := by
  induction parts with
  | nil => rfl
  | cons p parts ih =>
    cases parts with
    | nil => simp [join]
    | cons q parts =>
      rw [join, ih]
      simp

section Join

variable {c : UInt8} {parts parts' : List Bytes}

/-- The parts can be read off the text at the separators. -/
theorem join_inj (hc : ∀ p ∈ parts, c ∉ p) (hc' : ∀ p ∈ parts', c ∉ p) (hne : parts ≠ [])
    (hne' : parts' ≠ []) (h : join [c] parts = join [c] parts') : parts = parts' := by
  rw [join_eq_intercalate, join_eq_intercalate] at h
  have hsplit := List.splitOn_intercalate c hc hne
  rw [h, List.splitOn_intercalate c hc' hne'] at hsplit
  exact hsplit.symm

theorem join_eq_nil (hempty : ∀ p ∈ parts, p ≠ []) (h : join [c] parts = []) : parts = [] := by
  match parts with
  | [] => rfl
  | [p] => exact absurd h (hempty p List.mem_cons_self)
  | p :: q :: parts => simp [join] at h

/-- Where no part is empty, neither need the collections be. -/
theorem join_inj_of_ne_nil (hc : ∀ p ∈ parts, c ∉ p ∧ p ≠ []) (hc' : ∀ p ∈ parts', c ∉ p ∧ p ≠ [])
    (h : join [c] parts = join [c] parts') : parts = parts' := by
  by_cases hne : parts = []
  · rw [hne] at h ⊢
    exact (join_eq_nil (fun p hp => (hc' p hp).2) h.symm).symm
  · by_cases hne' : parts' = []
    · rw [hne'] at h ⊢
      exact join_eq_nil (fun p hp => (hc p hp).2) h
    · exact join_inj (fun p hp => (hc p hp).1) (fun p hp => (hc' p hp).1) hne hne' h

theorem mem_join {x : UInt8} {sep : Bytes} (h : x ∈ join sep parts) :
    x ∈ sep ∨ ∃ p ∈ parts, x ∈ p := by
  induction parts with
  | nil => cases h
  | cons p parts ih =>
    cases parts with
    | nil => exact Or.inr ⟨p, List.mem_cons_self, h⟩
    | cons q parts =>
      rw [join, List.append_assoc, List.mem_append, List.mem_append] at h
      rcases h with h | h | h
      · exact Or.inr ⟨p, List.mem_cons_self, h⟩
      · exact Or.inl h
      · rcases ih h with h | ⟨r, hr, hx⟩
        · exact Or.inl h
        · exact Or.inr ⟨r, List.mem_cons_of_mem p hr, hx⟩

end Join

/-- Sorting neither adds nor drops a text. -/
theorem coe_sorted (s : Multiset Bytes) : (sorted s : Multiset Bytes) = s := by
  induction s using Quotient.inductionOn with
  | h l => exact Multiset.coe_eq_coe.mpr (List.perm_insertionSort le l)

theorem sorted_inj {s s' : Multiset Bytes} : sorted s = sorted s' ↔ s = s' := by
  constructor
  · intro h
    rw [← coe_sorted s, h, coe_sorted]
  · intro h
    rw [h]

end Bytes
