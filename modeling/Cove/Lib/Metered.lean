import Mathlib.Algebra.BigOperators.Group.Finset.Piecewise
import Mathlib.Algebra.BigOperators.Ring.Finset
import Mathlib.Algebra.Order.BigOperators.Group.Finset
import Mathlib.Algebra.Order.BigOperators.Group.List
import Mathlib.Algebra.Order.Floor.Ring
import Mathlib.Data.Int.ConditionallyCompleteOrder

/-! Moves along an order, charged by several meters that each round up what they advanced.
Cutting a move costs at most one unit when at every cut at most one meter is running. -/

namespace Metered

variable {ι α K : Type} [Field K] [LinearOrder K] [IsStrictOrderedRing K] [FloorRing K]

/-- What a move from `a` to `b` costs. -/
def charge (meters : Finset ι) (reading : ι → α → K) (a b : α) : ℤ :=
  meters.sum fun j => ⌈reading j b - reading j a⌉

section Exact

variable {meters : Finset ι} {reading : ι → α → K}

@[simp] theorem charge_self (a : α) : charge meters reading a a = 0 := by
  simp [charge]

/-- Rounding up each half costs at least what rounding up the whole does. -/
theorem charge_le_add (a m b : α) :
    charge meters reading a b ≤ charge meters reading a m + charge meters reading m b := by
  rw [charge, charge, charge, ← Finset.sum_add_distrib]
  apply Finset.sum_le_sum
  intro j _
  have h := Int.ceil_add_le (reading j m - reading j a) (reading j b - reading j m)
  rwa [sub_add_sub_cancel'] at h

/-- Where one meter alone advances, it alone is charged. -/
theorem charge_eq_single {j : ι} (hj : j ∈ meters) {a b : α}
    (hothers : ∀ i ∈ meters, i ≠ j → reading i b = reading i a) :
    charge meters reading a b = ⌈reading j b - reading j a⌉ := by
  apply Finset.sum_eq_single_of_mem j hj
  intro i hi hne
  rw [hothers i hi hne]
  simp

/-- A first half of whole units leaves nothing to round at the cut. -/
theorem charge_add_of_exact {a m : α} (b : α)
    (hexact : ∀ j ∈ meters, ∃ z : ℤ, reading j m - reading j a = z) :
    charge meters reading a m + charge meters reading m b = charge meters reading a b := by
  rw [charge, charge, charge, ← Finset.sum_add_distrib]
  apply Finset.sum_congr rfl
  intro j hj
  obtain ⟨z, hz⟩ := hexact j hj
  have hsplit := sub_add_sub_cancel' (reading j m) (reading j a) (reading j b)
  rw [← hsplit, hz, Int.ceil_intCast, Int.ceil_intCast_add]

/-- A move of whole units is charged what the meters advanced, unrounded. -/
theorem cast_charge_of_exact {a b : α}
    (hexact : ∀ j ∈ meters, ∃ z : ℤ, reading j b - reading j a = z) :
    (charge meters reading a b : K) = meters.sum fun j => reading j b - reading j a := by
  rw [charge, Int.cast_sum]
  apply Finset.sum_congr rfl
  intro j hj
  obtain ⟨z, hz⟩ := hexact j hj
  rw [hz, Int.ceil_intCast]

end Exact

section Ordered

variable [LinearOrder α]

/-- The meter has stopped by `m` or has not started there. -/
def StillAt (f : α → K) (m : α) : Prop := (∀ a ≤ m, f a = f m) ∨ ∀ b, m ≤ b → f b = f m

/-- No meter runs backwards, and no two run at the same place. -/
structure Sequential (meters : Finset ι) (reading : ι → α → K) : Prop where
  mono : ∀ j ∈ meters, Monotone (reading j)
  single : ∀ m, ∃ live, ∀ j ∈ meters, j ≠ live → StillAt (reading j) m

variable {meters : Finset ι} {reading : ι → α → K}

/-- A meter that is still at the cut rounds the same either way. -/
theorem StillAt.ceil_add {f : α → K} {a m b : α} (h : StillAt f m) (ham : a ≤ m) (hmb : m ≤ b) :
    ⌈f m - f a⌉ + ⌈f b - f m⌉ = ⌈f b - f a⌉ := by
  rcases h with h | h
  · rw [h a ham]
    simp
  · rw [h b hmb]
    simp

/-- A cut where every meter is still costs nothing. -/
theorem charge_add_of_still {a m b : α} (ham : a ≤ m) (hmb : m ≤ b)
    (hstill : ∀ j ∈ meters, StillAt (reading j) m) :
    charge meters reading a m + charge meters reading m b = charge meters reading a b := by
  rw [charge, charge, charge, ← Finset.sum_add_distrib]
  apply Finset.sum_congr rfl
  intro j hj
  exact (hstill j hj).ceil_add ham hmb

namespace Sequential

omit [Field K] [IsStrictOrderedRing K] [FloorRing K] in
/-- A meter on its own has none to run beside it. -/
theorem of_single (i : ι) {f : α → K} (h : Monotone f) : Sequential {i} fun _ => f := by
  refine ⟨fun _ _ => h, ?_⟩
  intro m
  refine ⟨i, ?_⟩
  intro j hj hne
  exact absurd (Finset.mem_singleton.mp hj) hne

/-- Going further never costs less. -/
theorem charge_mono (h : Sequential meters reading) (a : α) :
    Monotone (charge meters reading a) := by
  intro b c hbc
  apply Finset.sum_le_sum
  intro j hj
  apply Int.ceil_mono
  exact sub_le_sub_right (h.mono j hj hbc) _

/-- Any cut costs at most one unit. -/
theorem add_le_charge (h : Sequential meters reading) {a m b : α} (ham : a ≤ m) (hmb : m ≤ b) :
    charge meters reading a m + charge meters reading m b ≤ charge meters reading a b + 1 := by
  classical
  obtain ⟨live, hlive⟩ := h.single m
  have hone : (meters.sum fun j => if j = live then (1 : ℤ) else 0) ≤ 1 := by
    rw [Finset.sum_ite_eq']
    split_ifs <;> simp
  have hsum : charge meters reading a m + charge meters reading m b ≤
      charge meters reading a b + meters.sum fun j => if j = live then (1 : ℤ) else 0 := by
    rw [charge, charge, charge, ← Finset.sum_add_distrib, ← Finset.sum_add_distrib]
    apply Finset.sum_le_sum
    intro j hj
    by_cases hj' : j = live
    · rw [if_pos hj', ← sub_add_sub_cancel' (reading j m) (reading j a) (reading j b)]
      exact Int.ceil_add_ceil_le _ _
    · rw [if_neg hj', (hlive j hj hj').ceil_add ham hmb]
      simp
  exact hsum.trans (by simpa using hone)

end Sequential

end Ordered

section Moves

variable [AddCommMonoid α]

/-- What consecutive moves from `a` cost, each charged on its own. -/
def chargeMoves (meters : Finset ι) (reading : ι → α → K) : α → List α → ℤ
  | _, [] => 0
  | a, d :: rest => charge meters reading a (a + d) + chargeMoves meters reading (a + d) rest

variable [LinearOrder α] [IsOrderedAddMonoid α] {meters : Finset ι} {reading : ι → α → K}

/-- Making a move in pieces costs no less than making it at once, and less than one unit a piece
more. -/
theorem Sequential.chargeMoves_bounds (h : Sequential meters reading) (d : α) (rest : List α) (a : α)
    (hd : 0 ≤ d) (hrest : ∀ e ∈ rest, 0 ≤ e) :
    charge meters reading a (a + (d :: rest).sum) ≤ chargeMoves meters reading a (d :: rest) ∧
      chargeMoves meters reading a (d :: rest) ≤
        charge meters reading a (a + (d :: rest).sum) + rest.length := by
  induction rest generalizing a d with
  | nil => simp [chargeMoves]
  | cons e rest ih =>
    have hcut : a + (d :: e :: rest).sum = a + d + (e :: rest).sum := by
      rw [List.sum_cons, add_assoc]
    have hlater := ih e (a + d) (hrest e List.mem_cons_self)
      fun x hx => hrest x (List.mem_cons_of_mem e hx)
    have hforward : a + d ≤ a + d + (e :: rest).sum :=
      le_add_of_nonneg_right (List.sum_nonneg hrest)
    have hlow : charge meters reading a (a + d + (e :: rest).sum) ≤
        charge meters reading a (a + d) +
          charge meters reading (a + d) (a + d + (e :: rest).sum) := charge_le_add _ _ _
    have hhigh := h.add_le_charge (le_add_of_nonneg_right hd) hforward
    rw [chargeMoves, hcut, List.length_cons]
    push_cast
    constructor
    · exact hlow.trans (by linarith)
    · linarith

end Moves

end Metered
