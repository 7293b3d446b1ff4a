import Mathlib.Algebra.BigOperators.Group.List.Basic
import Mathlib.Algebra.Ring.Int.Defs
import Mathlib.Data.List.Perm.Subperm
import Mathlib.Data.List.Sort
import Mathlib.Tactic.Common

/-! Picks from a list in falling order: of all picks of one size the front weighs the most. -/

namespace Greedy

variable {α : Type} {weight : α → Int}

def total (weight : α → Int) (l : List α) : Int := (l.map weight).sum

@[simp] theorem total_nil : total weight [] = 0 := rfl

@[simp] theorem total_cons (a : α) (l : List α) : total weight (a :: l) = weight a + total weight l :=
  rfl

@[simp] theorem total_append (l m : List α) :
    total weight (l ++ m) = total weight l + total weight m := by
  simp [total]

theorem total_perm {l m : List α} (h : l.Perm m) : total weight l = total weight m :=
  (h.map weight).sum_eq

/-- Each weighs at least what any later one does. -/
def Falling (weight : α → Int) (l : List α) : Prop := l.Pairwise fun a b => weight b ≤ weight a

theorem Falling.sublist {l m : List α} (h : Falling weight m) (hsub : l.Sublist m) :
    Falling weight l := List.Pairwise.sublist hsub h

/-- A front gains from a head that weighs at least as much. -/
theorem total_take_le_cons {a : α} {l : List α} (h : Falling weight (a :: l)) {k : Nat}
    (hk : k ≤ l.length) : total weight (l.take k) ≤ total weight ((a :: l).take k) := by
  cases k with
  | zero => simp
  | succ k =>
    have hlt : k < l.length := hk
    have hhead : weight l[k] ≤ weight a := List.rel_of_pairwise_cons h (List.getElem_mem hlt)
    rw [List.take_succ_cons, List.take_succ_eq_append_getElem hlt, total_append, total_cons,
      total_cons, total_nil]
    omega

theorem total_sublist_le {l s : List α} (h : Falling weight l) (hs : s.Sublist l) :
    total weight s ≤ total weight (l.take s.length) := by
  induction hs with
  | slnil => simp
  | @cons s l a hs ih =>
    have hfront := total_take_le_cons h hs.length_le
    have hrest := ih (List.Pairwise.of_cons h)
    omega
  | @cons_cons s l a hs ih =>
    have hrest := ih (List.Pairwise.of_cons h)
    rw [List.length_cons, List.take_succ_cons, total_cons, total_cons]
    omega

/-- Of the picks of one size the front weighs the most. -/
theorem total_le_front {l s : List α} (h : Falling weight l) (hs : s.Subperm l) :
    total weight s ≤ total weight (l.take s.length) := by
  obtain ⟨t, hperm, hsub⟩ := hs
  rw [← total_perm hperm, ← hperm.length_eq]
  exact total_sublist_le h hsub

theorem falling_orderedInsert {r : α → α → Prop} [DecidableRel r]
    (hle : ∀ a b, r a b → weight b ≤ weight a) (hge : ∀ a b, ¬ r a b → weight a ≤ weight b)
    {a : α} {l : List α} (h : Falling weight l) : Falling weight (l.orderedInsert r a) := by
  induction l with
  | nil => exact List.pairwise_singleton _ a
  | cons b l ih =>
    obtain ⟨hhead, htail⟩ := List.pairwise_cons.mp h
    rw [List.orderedInsert_cons]
    split
    · rename_i hr
      refine List.pairwise_cons.mpr ⟨?_, h⟩
      intro c hc
      rcases List.mem_cons.mp hc with rfl | hc
      · exact hle a c hr
      · exact (hhead c hc).trans (hle a b hr)
    · rename_i hr
      refine List.pairwise_cons.mpr ⟨?_, ih htail⟩
      intro c hc
      rcases (List.mem_orderedInsert r).mp hc with rfl | hc
      · exact hge c b hr
      · exact hhead c hc

/-- Sorting by an order that never puts the lighter first leaves a falling list. -/
theorem falling_insertionSort {r : α → α → Prop} [DecidableRel r]
    (hle : ∀ a b, r a b → weight b ≤ weight a) (hge : ∀ a b, ¬ r a b → weight a ≤ weight b)
    (l : List α) : Falling weight (l.insertionSort r) := by
  induction l with
  | nil => exact List.Pairwise.nil
  | cons a l ih => exact falling_orderedInsert hle hge ih

end Greedy
