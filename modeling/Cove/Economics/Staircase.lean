import Cove.Economics.Backing
import Cove.Economics.Curves
import Cove.Lib.Metered
import Mathlib.Data.Rat.Floor
import Mathlib.Tactic.FieldSimp

/-! The staircase as meters: each stair charges the tokens a purchase takes from it. -/

namespace Cove

open Checked Metered

/-- Rounding up a quotient of numbers that are not negative. -/
theorem ceilDiv_eq_ceil {n d : Int} (hn : 0 ≤ n) (hd : 0 < d) : ceilDiv n d = ⌈(n : ℚ) / d⌉ := by
  have hd' : (0 : ℚ) < d := by exact_mod_cast hd
  have hup : (n + d - 1) / d = ⌈(n : ℚ) / d⌉ := by
    symm
    rw [Int.ceil_eq_iff]
    have hdiv := Int.mul_ediv_add_emod (n + d - 1) d
    have hlow := Int.emod_nonneg (n + d - 1) hd.ne'
    have hhigh := Int.emod_lt_of_pos (n + d - 1) hd
    constructor
    · rw [lt_div_iff₀ hd']
      have h : ((n + d - 1) / d - 1) * d < n := by linarith
      exact_mod_cast h
    · rw [div_le_iff₀ hd']
      have h : n ≤ (n + d - 1) / d * d := by linarith
      exact_mod_cast h
  unfold ceilDiv
  split_ifs with hz
  · have h0 : n = 0 := by omega
    simp [h0]
  · exact hup

/-- The price of a stair, from the lot prices. -/
theorem stagePrice_eq {stage : Nat} (h : stage < stageCount) :
    stagePricesSatsPerMillion.getD stage 0 = (27 + 27 * (stage : Int)) * 1000 := by
  unfold stagePricesSatsPerMillion lotBaseSats lotStepSats priceUnitTokens lotTokens
  simp [h]

/-- How many tokens of a stair are sold at a supply. -/
def stairSold (stage : Nat) (supply : Int) : Int :=
  max 0 (min (supply - stage * tokensPerStage) tokensPerStage)

theorem stairSold_mono (stage : Nat) : Monotone (stairSold stage) := by
  intro a b hab
  unfold stairSold tokensPerStage
  omega

theorem stairSold_of_le {stage : Nat} {supply : Int} (h : supply ≤ stage * tokensPerStage) :
    stairSold stage supply = 0 := by
  unfold stairSold tokensPerStage at *
  omega

theorem stairSold_of_ge {stage : Nat} {supply : Int} (h : (stage + 1) * tokensPerStage ≤ supply) :
    stairSold stage supply = tokensPerStage := by
  unfold stairSold tokensPerStage at *
  omega

theorem stairSold_within {stage : Nat} {supply : Int} (hlow : stage * tokensPerStage ≤ supply)
    (hhigh : supply ≤ (stage + 1) * tokensPerStage) :
    stairSold stage supply = supply - stage * tokensPerStage := by
  unfold stairSold tokensPerStage at *
  omega

/-- What a stair's tokens sold so far cost, unrounded. -/
def stairReading (stage : Nat) (supply : Int) : ℚ :=
  ((stagePricesSatsPerMillion.getD stage 0 * stairSold stage supply : Int) : ℚ) /
    (priceUnitTokens : Int)

def stairMeters : Finset Nat := Finset.range stageCount

@[simp] theorem mem_stairMeters (stage : Nat) : stage ∈ stairMeters ↔ stage < stageCount :=
  Finset.mem_range

theorem stairReading_mono (stage : Nat) : Monotone (stairReading stage) := by
  intro a b hab
  have hsold := mul_le_mul_of_nonneg_left (stairSold_mono stage hab) (stagePrice_bounds stage).1
  unfold stairReading
  apply div_le_div_of_nonneg_right
  · exact_mod_cast hsold
  · norm_num [priceUnitTokens]

/-- A stair other than the one a supply stands on is sold out or untouched. -/
theorem stairSold_other {stage k : Nat} {m : Int} (hne : stage ≠ k)
    (hlow : k * tokensPerStage ≤ m) (hhigh : m ≤ (k + 1) * tokensPerStage) :
    stairSold stage m = if stage < k then tokensPerStage else 0 := by
  unfold tokensPerStage at hlow hhigh
  split_ifs with hlt
  · apply stairSold_of_ge
    unfold tokensPerStage
    omega
  · apply stairSold_of_le
    unfold tokensPerStage
    omega

theorem stairReading_still {stage k : Nat} {m : Int} (hne : stage ≠ k)
    (hlow : k * tokensPerStage ≤ m) (hhigh : m ≤ (k + 1) * tokensPerStage) :
    StillAt (stairReading stage) m := by
  have hm := stairSold_other hne hlow hhigh
  unfold tokensPerStage at hlow hhigh
  split_ifs at hm with hlt
  · right
    intro b hb
    have hb' : stairSold stage b = tokensPerStage := by
      apply stairSold_of_ge
      unfold tokensPerStage
      omega
    rw [stairReading, stairReading, hm, hb']
  · left
    intro a ha
    have ha' : stairSold stage a = 0 := by
      apply stairSold_of_le
      unfold tokensPerStage
      omega
    rw [stairReading, stairReading, hm, ha']

/-- At the end of a stair every one is sold out or untouched. -/
theorem stairReading_still_edge (stage k : Nat) :
    StillAt (stairReading stage) (((k : Int) + 1) * tokensPerStage) := by
  by_cases hk : stage = k
  · right
    intro b hb
    subst hk
    rw [stairReading, stairReading, stairSold_of_ge (le_refl _), stairSold_of_ge hb]
  · apply stairReading_still hk
    · unfold tokensPerStage
      omega
    · exact le_refl _

theorem stairs_sequential : Sequential stairMeters stairReading := by
  refine ⟨fun stage _ => stairReading_mono stage, ?_⟩
  intro m
  by_cases hm : m < 0
  · refine ⟨0, ?_⟩
    intro stage _ _
    left
    intro a ha
    have hnone : ∀ b ≤ m, stairSold stage b = 0 := by
      intro b hb
      apply stairSold_of_le
      unfold tokensPerStage
      omega
    rw [stairReading, stairReading, hnone a ha, hnone m (le_refl m)]
  · refine ⟨(m / tokensPerStage).toNat, ?_⟩
    intro stage _ hne
    apply stairReading_still hne
    · unfold tokensPerStage
      omega
    · unfold tokensPerStage
      omega

/-! The loop of `costToBuy` charges the meters. -/

/-- What the tokens from one supply to another cost. -/
def stairCharge (a b : Int) : Int := charge stairMeters stairReading a b

theorem stageAt_bounds {s : Int} (h0 : 0 ≤ s) (hcap : s < publicSupplyTokens) :
    stageAt s < stageCount ∧ (stageAt s : Int) * tokensPerStage ≤ s ∧
      s < ((stageAt s : Int) + 1) * tokensPerStage := by
  unfold stageAt publicSupplyTokens tokensPerStage stageCount at *
  rw [if_neg (by omega)]
  omega

theorem stageAt_eq {s : Int} {stage : Nat} (hlow : stage * tokensPerStage ≤ s)
    (hhigh : s < (stage + 1) * tokensPerStage) (hcap : s < publicSupplyTokens) :
    stageAt s = stage := by
  unfold stageAt tokensPerStage at *
  rw [if_neg (by omega)]
  omega

/-- Within one stair the charge is the chunk at the stair's price. -/
theorem stairCharge_chunk {stage : Nat} (s chunk : Int) (hstage : stage < stageCount)
    (hlow : stage * tokensPerStage ≤ s) (hchunk : 0 ≤ chunk)
    (hhigh : s + chunk ≤ (stage + 1) * tokensPerStage) :
    stairCharge s (s + chunk) =
      ceilDiv (chunk * stagePricesSatsPerMillion.getD stage 0) priceUnitTokens := by
  have hprice := (stagePrice_bounds stage).1
  rw [stairCharge, charge_eq_single ((mem_stairMeters stage).mpr hstage)]
  · rw [ceilDiv_eq_ceil (mul_nonneg hchunk hprice) (by decide), stairReading, stairReading,
      stairSold_within (by omega) hhigh, stairSold_within hlow (by omega), ← sub_div]
    congr 2
    push_cast
    ring
  · intro i _ hne
    rw [stairReading, stairReading, stairSold_other hne (by omega) hhigh,
      stairSold_other hne hlow (by omega)]

/-- The end of a stair is a cut without rounding. -/
theorem stairCharge_add_edge (stage : Nat) {a b : Int}
    (ha : a ≤ ((stage : Int) + 1) * tokensPerStage) (hb : ((stage : Int) + 1) * tokensPerStage ≤ b) :
    stairCharge a (((stage : Int) + 1) * tokensPerStage) +
      stairCharge (((stage : Int) + 1) * tokensPerStage) b = stairCharge a b :=
  charge_add_of_still ha hb fun other _ => stairReading_still_edge other stage

/-- The price of a stretch is that of its first chunk and that of the rest, where the chunk ends
with the stretch or with the stair. -/
theorem stairCharge_advance {s chunk stop : Int} (h0 : 0 ≤ s) (hcap : s < publicSupplyTokens)
    (hchunk : 0 ≤ chunk) (hin : s + chunk ≤ ((stageAt s : Int) + 1) * tokensPerStage)
    (hstop : s + chunk ≤ stop)
    (hedge : s + chunk = stop ∨ s + chunk = ((stageAt s : Int) + 1) * tokensPerStage) :
    stairCharge s stop =
      ceilDiv (chunk * stagePricesSatsPerMillion.getD (stageAt s) 0) priceUnitTokens +
        stairCharge (s + chunk) stop := by
  obtain ⟨hstage, hlow, -⟩ := stageAt_bounds h0 hcap
  rw [← stairCharge_chunk s chunk hstage hlow hchunk hin]
  rcases hedge with hedge | hedge
  · rw [hedge]
    simp [stairCharge]
  · rw [hedge] at hstop ⊢
    exact (stairCharge_add_edge (stageAt s) (by omega) hstop).symm

/-- The loop ends with every chunk charged. -/
theorem costToBuyLoop_eq {supply amount : Int} (fuel : Nat) {remaining s : Int} (cost : Int)
    (hs : 0 ≤ s) (hremaining : 0 ≤ remaining) (hfuel : remaining ≤ fuel)
    (hcap : s + remaining ≤ publicSupplyTokens) :
    costToBuyLoop supply amount fuel remaining s cost =
      .ok (cost + stairCharge s (s + remaining)) := by
  induction fuel generalizing remaining s cost with
  | zero =>
    have h0 : remaining = 0 := by omega
    simp [costToBuyLoop, h0, stairCharge]
  | succ fuel ih =>
    rw [costToBuyLoop]
    dsimp only
    split_ifs with hdone hshort hempty
    · have h0 : remaining = 0 := by omega
      simp [h0, stairCharge]
    · have hstage := stageAt_bounds hs (by omega)
      have hstep := stairCharge_advance hs (by omega) hremaining (by omega) (le_refl (s + remaining))
        (.inl rfl)
      rw [ih _ (by omega) (by omega) (by omega) (by omega), hstep, sub_self, add_zero, add_assoc]
    · have hstage := stageAt_bounds hs (by omega)
      omega
    · have hstage := stageAt_bounds hs (by omega)
      have hedge : s + (((stageAt s : Int) + 1) * tokensPerStage - s) =
          ((stageAt s : Int) + 1) * tokensPerStage := by omega
      have hend : ((stageAt s : Int) + 1) * tokensPerStage +
          (remaining - (((stageAt s : Int) + 1) * tokensPerStage - s)) = s + remaining := by omega
      have hstep := stairCharge_advance hs (by omega)
        (by omega : 0 ≤ ((stageAt s : Int) + 1) * tokensPerStage - s) (by omega)
        (by omega : _ ≤ s + remaining) (.inr hedge)
      rw [ih _ (by omega) (by omega) (by omega) (by omega), hstep, hedge, hend, add_assoc]

theorem costToBuy_eq {supply amount : Int} (hsupply : 0 ≤ supply) (hamount : 0 ≤ amount)
    (hcap : supply + amount ≤ publicSupplyTokens) :
    costToBuy supply amount = .ok (stairCharge supply (supply + amount)) := by
  rw [costToBuy, costToBuyLoop_eq _ _ hsupply hamount (by omega) hcap, zero_add]

/-- The reserve function charges every token from the first. -/
theorem requiredBackingSats_eq {supply : Int} (h0 : 0 ≤ supply)
    (hcap : supply ≤ publicSupplyTokens) :
    requiredBackingSats supply = .ok (stairCharge 0 supply) := by
  have hcost := costToBuy_eq (le_refl 0) h0 (by rwa [zero_add])
  rw [zero_add] at hcost
  simp only [requiredBackingSats, assertSupplyInRange, bind_eq_ok, ensure_eq_ok]
  exact ⟨(), ⟨(), h0, hcap⟩, hcost⟩

end Cove
