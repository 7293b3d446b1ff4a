import Cove.Economics.Staircase

/-! Buying in pieces: on every curve candidate it costs as much as buying at once, and at most a
sat of rounding for each cut more. -/

namespace Cove

open Checked Metered

/-- Buying one amount after the other, each quoted at the supply the one before left. -/
def buyPieces (c : Curve) : Int → List Int → Except Fault Int
  | _, [] => .ok 0
  | supply, amount :: rest => do
    let cost ← c.costToBuy supply amount
    let more ← buyPieces c (supply + amount) rest
    return cost + more

/-- The curve charges what meters, of which no two run at once, advance. -/
def IsMetered (c : Curve) : Prop :=
  ∃ (meters : Finset Nat) (reading : Nat → Int → ℚ), Sequential meters reading ∧
    ∀ supply amount, 0 ≤ supply → 0 ≤ amount → supply + amount ≤ publicSupplyTokens →
      c.costToBuy supply amount = .ok (charge meters reading supply (supply + amount))

/-- A run of purchases is charged move by move. -/
theorem buyPieces_eq {c : Curve} {meters : Finset Nat} {reading : Nat → Int → ℚ}
    (hcost : ∀ supply amount, 0 ≤ supply → 0 ≤ amount → supply + amount ≤ publicSupplyTokens →
      c.costToBuy supply amount = .ok (charge meters reading supply (supply + amount)))
    {supply : Int} {pieces : List Int} (hsupply : 0 ≤ supply) (hpieces : ∀ d ∈ pieces, 0 ≤ d)
    (hcap : supply + pieces.sum ≤ publicSupplyTokens) :
    buyPieces c supply pieces = .ok (chargeMoves meters reading supply pieces) := by
  induction pieces generalizing supply with
  | nil => rfl
  | cons d rest ih =>
    have hd := hpieces d List.mem_cons_self
    have hrest : ∀ e ∈ rest, 0 ≤ e := fun e he => hpieces e (List.mem_cons_of_mem d he)
    have hsum := List.sum_nonneg hrest
    rw [List.sum_cons] at hcap
    simp only [buyPieces, bind_eq_ok, pure_eq_ok]
    exact ⟨_, hcost supply d hsupply hd (by omega), _, ih (by omega) hrest (by omega), rfl⟩

theorem IsMetered.split {c : Curve} (h : IsMetered c) {supply : Int} {pieces : List Int}
    (hsupply : 0 ≤ supply) (hne : pieces ≠ []) (hpieces : ∀ d ∈ pieces, 0 ≤ d)
    (hcap : supply + pieces.sum ≤ publicSupplyTokens) :
    ∃ whole total, c.costToBuy supply pieces.sum = .ok whole ∧
      buyPieces c supply pieces = .ok total ∧ whole ≤ total ∧
      total ≤ whole + (pieces.length - 1) := by
  obtain ⟨meters, reading, hseq, hcost⟩ := h
  cases pieces with
  | nil => exact absurd rfl hne
  | cons d rest =>
    have hbounds := hseq.chargeMoves_bounds d rest supply (hpieces d List.mem_cons_self)
      fun e he => hpieces e (List.mem_cons_of_mem d he)
    refine ⟨_, _, hcost _ _ hsupply (List.sum_nonneg hpieces) hcap,
      buyPieces_eq hcost hsupply hpieces hcap, hbounds.1, ?_⟩
    rw [List.length_cons]
    push_cast
    omega

theorem IsMetered.mono {c : Curve} (h : IsMetered c) {supply a b : Int} (hsupply : 0 ≤ supply)
    (ha : 0 ≤ a) (hab : a ≤ b) (hcap : supply + b ≤ publicSupplyTokens) :
    ∃ x y, c.costToBuy supply a = .ok x ∧ c.costToBuy supply b = .ok y ∧ x ≤ y := by
  obtain ⟨meters, reading, hseq, hcost⟩ := h
  refine ⟨_, _, hcost supply a hsupply ha (by omega), hcost supply b hsupply (by omega) hcap, ?_⟩
  exact hseq.charge_mono supply (by omega)

/-! The four candidates. -/

theorem stairs210_metered : IsMetered stairs210 :=
  ⟨stairMeters, stairReading, stairs_sequential, fun _ _ hs ha hcap => costToBuy_eq hs ha hcap⟩

/-- The cost of a linear ramp up to `x`, unrounded, over a length at which it has risen by the
slope. -/
def rampReading (start slope len x : Int) : ℚ :=
  ((start * x * 2 * len + slope * (x * x) : Int) : ℚ) / ((2 * len * priceUnitTokens : Int) : ℚ)

theorem rampReading_mono {start slope len x y : Int} (hstart : 0 ≤ start) (hslope : 0 ≤ slope)
    (hlen : 0 < len) (hx : 0 ≤ x) (hxy : x ≤ y) :
    rampReading start slope len x ≤ rampReading start slope len y := by
  have hy := hx.trans hxy
  have hnum : start * x * 2 * len + slope * (x * x) ≤ start * y * 2 * len + slope * (y * y) := by
    gcongr
  unfold rampReading
  apply div_le_div_of_nonneg_right
  · exact_mod_cast hnum
  · have hden : 0 ≤ 2 * len * priceUnitTokens := by
      unfold priceUnitTokens
      omega
    exact_mod_cast hden

/-- The integral the source rounds up is what the ramp advances. -/
theorem ceilDiv_ramp {start slope len x n : Int} (hstart : 0 ≤ start) (hslope : 0 ≤ slope)
    (hlen : 0 < len) (hx : 0 ≤ x) (hn : 0 ≤ n) :
    ceilDiv (start * n * 2 * len + slope * (n * n + 2 * x * n)) (2 * len * priceUnitTokens) =
      ⌈rampReading start slope len (x + n) - rampReading start slope len x⌉ := by
  rw [ceilDiv_eq_ceil (by positivity) (by unfold priceUnitTokens; omega), rampReading, rampReading,
    ← sub_div]
  congr 2
  push_cast
  ring

theorem linearRamp_metered : IsMetered linearRamp := by
  have hramp : ∀ x, 0 ≤ x → rampReading p0 ramp publicSupplyTokens (max x 0) =
      rampReading p0 ramp publicSupplyTokens x := by
    intro x hx
    rw [max_eq_left hx]
  refine ⟨{0}, fun _ x => rampReading p0 ramp publicSupplyTokens (max x 0), ?_, ?_⟩
  · apply Sequential.of_single
    intro x y hxy
    exact rampReading_mono (by decide) (by decide) (by decide) (le_max_right x 0)
      (max_le_max_right 0 hxy)
  · intro supply amount hsupply hamount _
    have hceil := ceilDiv_ramp (by decide : 0 ≤ p0) (by decide : 0 ≤ ramp)
      (by decide : 0 < publicSupplyTokens) hsupply hamount
    simp only [linearRamp, charge, Finset.sum_singleton, hceil, hramp _ hsupply,
      hramp _ (add_nonneg hsupply hamount)]

/-- The cost of the quadratic curve up to `x`, unrounded. -/
def quadraticReading (x : Int) : ℚ :=
  ((p0 * x * 3 * publicSupplyTokens * publicSupplyTokens + qk * (x * x * x) : Int) : ℚ) /
    ((3 * publicSupplyTokens * publicSupplyTokens * priceUnitTokens : Int) : ℚ)

theorem quadraticReading_mono {x y : Int} (hx : 0 ≤ x) (hxy : x ≤ y) :
    quadraticReading x ≤ quadraticReading y := by
  have hp : 0 ≤ p0 := by decide
  have hq : 0 ≤ qk := by decide
  have hs : 0 ≤ publicSupplyTokens := by decide
  have hy := hx.trans hxy
  have hnum : p0 * x * 3 * publicSupplyTokens * publicSupplyTokens + qk * (x * x * x) ≤
      p0 * y * 3 * publicSupplyTokens * publicSupplyTokens + qk * (y * y * y) := by
    gcongr
  unfold quadraticReading
  apply div_le_div_of_nonneg_right
  · exact_mod_cast hnum
  · norm_num [publicSupplyTokens, priceUnitTokens]

theorem quadratic_metered : IsMetered quadratic := by
  refine ⟨{0}, fun _ x => quadraticReading (max x 0), ?_, ?_⟩
  · apply Sequential.of_single
    intro x y hxy
    exact quadraticReading_mono (le_max_right x 0) (max_le_max_right 0 hxy)
  · intro supply amount hsupply hamount _
    have hq : 0 ≤ qk := by decide
    have hs : (0 : Int) ≤ publicSupplyTokens := by decide
    have hp : 0 ≤ p0 := by decide
    have hcube : supply * supply * supply ≤
        (supply + amount) * (supply + amount) * (supply + amount) := by
      gcongr <;> omega
    have hnum : 0 ≤ p0 * amount * 3 * publicSupplyTokens * publicSupplyTokens +
        qk * ((supply + amount) * (supply + amount) * (supply + amount) -
          supply * supply * supply) := by
      have hdiff := sub_nonneg.mpr hcube
      positivity
    simp only [quadratic, charge, Finset.sum_singleton, max_eq_left hsupply,
      max_eq_left (add_nonneg hsupply hamount)]
    rw [ceilDiv_eq_ceil hnum (by decide), quadraticReading, quadraticReading, ← sub_div]
    congr 3
    push_cast
    ring

/-- The parts of a supply on either side of the kink. -/
def segReading : Nat → Int → ℚ
  | 0, x => rampReading seg0Start (seg0End - seg0Start) kink (max 0 (min x kink))
  | _, x =>
    rampReading seg1Start (seg1End - seg1Start) (publicSupplyTokens - kink) (max 0 (x - kink))

theorem segReading_sequential : Sequential {0, 1} segReading := by
  have hkink : kink = 10500000 := by decide
  constructor
  · intro j _ x y hxy
    cases j with
    | zero =>
      apply rampReading_mono (by decide) (by decide) (by decide) (le_max_left _ _)
      omega
    | succ j =>
      apply rampReading_mono (by decide) (by decide) (by decide) (le_max_left _ _)
      omega
  · intro m
    by_cases hm : m ≤ kink
    · -- the second segment has not begun
      refine ⟨0, ?_⟩
      intro j _ hne
      cases j with
      | zero => exact absurd rfl hne
      | succ j =>
        left
        intro a ha
        simp only [segReading, max_eq_left (by omega : a - kink ≤ 0),
          max_eq_left (by omega : m - kink ≤ 0)]
    · -- the first segment is over
      refine ⟨1, ?_⟩
      intro j hj hne
      cases j with
      | zero =>
        right
        intro b hb
        simp only [segReading, min_eq_right (by omega : kink ≤ b),
          min_eq_right (by omega : kink ≤ m)]
      | succ j =>
        simp only [Finset.mem_insert, Finset.mem_singleton] at hj
        omega

/-- A segment is charged from where the purchase enters it to where it leaves it. -/
theorem segment_ceil {start slope len a b : Int} (hstart : 0 ≤ start) (hslope : 0 ≤ slope)
    (hlen : 0 < len) (ha : 0 ≤ a) (hab : a ≤ b) :
    ceilDiv (start * (b - a) * 2 * len + slope * ((b - a) * (b - a) + 2 * a * (b - a)))
        (2 * len * priceUnitTokens) =
      ⌈rampReading start slope len b - rampReading start slope len a⌉ := by
  have hb : a + (b - a) = b := by omega
  have h := ceilDiv_ramp hstart hslope hlen ha (by omega : 0 ≤ b - a)
  rwa [hb] at h

theorem twoSegmentLinear_metered : IsMetered twoSegmentLinear := by
  refine ⟨{0, 1}, segReading, segReading_sequential, ?_⟩
  intro supply amount hsupply hamount _
  have hkink : kink = 10500000 := by decide
  have hs0 : (if supply < kink then supply else kink) = max 0 (min supply kink) := by omega
  have he0 : (if supply + amount < kink then supply + amount else kink) =
      max 0 (min (supply + amount) kink) := by omega
  have hs1 : (if supply < kink then kink else supply) = kink + max 0 (supply - kink) := by omega
  simp only [twoSegmentLinear, hs0, he0, hs1, charge]
  rw [Finset.sum_pair (by decide)]
  refine congrArg Except.ok (congrArg₂ (· + ·) ?_ ?_)
  · have hle : max 0 (min supply kink) ≤ max 0 (min (supply + amount) kink) := by omega
    have hceil := segment_ceil (by decide : 0 ≤ seg0Start) (by decide : 0 ≤ seg0End - seg0Start)
      (by decide : 0 < kink) (le_max_left 0 (min supply kink)) hle
    simp only [segReading, ← hceil]
    split_ifs with hreach
    · rfl
    · have heq : max 0 (min (supply + amount) kink) = max 0 (min supply kink) := by omega
      rw [heq]
      simp [ceilDiv]
  · have hle : max 0 (supply - kink) ≤ max 0 (supply + amount - kink) := by omega
    have hceil := segment_ceil (by decide : 0 ≤ seg1Start) (by decide : 0 ≤ seg1End - seg1Start)
      (by decide : 0 < publicSupplyTokens - kink) (le_max_left 0 (supply - kink)) hle
    simp only [segReading, ← hceil]
    split_ifs with hreach
    · have hn : max 0 (supply + amount - kink) - max 0 (supply - kink) =
          supply + amount - (kink + max 0 (supply - kink)) := by omega
      rw [hn, add_sub_cancel_left]
    · have heq : max 0 (supply + amount - kink) = max 0 (supply - kink) := by omega
      rw [heq]
      simp [ceilDiv]

theorem curves_metered {c : Curve} (hc : c ∈ curves) : IsMetered c := by
  simp only [curves, List.mem_cons, List.not_mem_nil, or_false] at hc
  rcases hc with rfl | rfl | rfl | rfl
  · exact stairs210_metered
  · exact linearRamp_metered
  · exact quadratic_metered
  · exact twoSegmentLinear_metered

/-- On every curve, a purchase in pieces costs no less than at once and at most a sat for each cut
more, and a larger purchase costs no less. -/
theorem splitting_costs_rounding (c : Curve) (hc : c ∈ curves) (supply : Int)
    (hsupply : 0 ≤ supply) :
    (∀ pieces : List Int, pieces ≠ [] → (∀ d ∈ pieces, 0 ≤ d) →
      supply + pieces.sum ≤ publicSupplyTokens →
      ∃ whole total, c.costToBuy supply pieces.sum = .ok whole ∧
        buyPieces c supply pieces = .ok total ∧ whole ≤ total ∧
        total ≤ whole + (pieces.length - 1)) ∧
    (∀ a b, 0 ≤ a → a ≤ b → supply + b ≤ publicSupplyTokens →
      ∃ x y, c.costToBuy supply a = .ok x ∧ c.costToBuy supply b = .ok y ∧ x ≤ y) :=
  ⟨fun _ hne hpieces hcap => (curves_metered hc).split hsupply hne hpieces hcap,
    fun _ _ ha hab hcap => (curves_metered hc).mono hsupply ha hab hcap⟩

/-- Two tokens bought one by one across the kink. -/
theorem splitting_costs_rounding_kink :
    ∃ whole total, twoSegmentLinear.costToBuy 10499999 [1, 1].sum = .ok whole ∧
      buyPieces twoSegmentLinear 10499999 [1, 1] = .ok total ∧ whole ≤ total ∧
      total ≤ whole + (([1, 1] : List Int).length - 1) :=
  (splitting_costs_rounding twoSegmentLinear (by simp [curves]) 10499999 (by decide)).1 [1, 1]
    (by decide) (by decide) (by decide)

end Cove
