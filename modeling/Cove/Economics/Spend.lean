import Cove.Economics.Lots

/-! What lots bought from any supply cost: the reserve grows with every lot, and no fee falls when
more is bought. -/

namespace Cove

open Checked Metered

/-- No token is cheaper than on the first stair. -/
theorem tokenPrice_ge {s : Int} (h0 : 0 ≤ s) (hcap : s < publicSupplyTokens) :
    27 / 1000 ≤ tokenPrice s := by
  have hprice : 27000 ≤ stairs210.priceAt s := by
    rw [stairPriceAt_eq h0 hcap]
    unfold tokensPerStage
    omega
  have hcast : ((27000 : Int) : ℚ) ≤ stairs210.priceAt s := by exact_mod_cast hprice
  rw [tokenPrice, le_div_iff₀ (by norm_num [priceUnitTokens])]
  norm_num [priceUnitTokens] at hcast ⊢
  exact hcast

/-- A charge is at least what the meters advance. -/
theorem stairTotal_sub_le (a b : Int) : stairTotal b - stairTotal a ≤ stairCharge a b := by
  rw [stairTotal, stairTotal, ← Finset.sum_sub_distrib, stairCharge, charge, Int.cast_sum]
  apply Finset.sum_le_sum
  intro stage _
  exact Int.le_ceil _

/-- A lot or more costs 27 sats at least. -/
theorem stairCharge_ge_lot {a b : Int} (h0 : 0 ≤ a) (hab : a + lotTokens ≤ b)
    (hcap : b ≤ publicSupplyTokens) : 27 ≤ stairCharge a b := by
  unfold lotTokens at hab
  obtain ⟨n, hn⟩ : ∃ n : Nat, b = a + n := ⟨(b - a).toNat, by omega⟩
  subst hn
  have htotal := stairTotal_add n h0 hcap
  have hsum : (n : ℚ) * (27 / 1000) ≤ (Finset.range n).sum fun i => tokenPrice (a + i) := by
    have hconst := Finset.card_nsmul_le_sum (Finset.range n) (fun i => tokenPrice (a + i))
      (27 / 1000) fun i hi => tokenPrice_ge (by omega) (by have := Finset.mem_range.mp hi; omega)
    simpa using hconst
  have hcharge := stairTotal_sub_le a (a + n)
  have hlots : (1000 : ℚ) ≤ n := by
    have hnat : 1000 ≤ n := by omega
    exact_mod_cast hnat
  have hreal : (27 : ℚ) ≤ stairCharge a (a + n) := by linarith
  exact_mod_cast hreal

/-- Between supplies a lot apart the reserve grows. -/
theorem reserve_lt {a b : Int} (h0 : 0 ≤ a) (hab : a + lotTokens ≤ b)
    (hcap : b ≤ publicSupplyTokens) : stairCharge 0 a + 26 ≤ stairCharge 0 b := by
  have hlot := stairCharge_ge_lot h0 hab hcap
  unfold lotTokens at hab
  have hcut := stairs_sequential.add_le_charge h0 (by omega : a ≤ b)
  rw [← stairCharge, ← stairCharge, ← stairCharge] at hcut
  omega

/-- The gross of a lot or more is what the reserve grows by, whatever the supply. -/
theorem grossBuy_eq {s n : Int} (h0 : 0 ≤ s) (hn : lotTokens ≤ n)
    (hcap : s + n ≤ publicSupplyTokens) :
    grossBuy s n = .ok (stairCharge 0 (s + n) - stairCharge 0 s) := by
  have hgrows := reserve_lt h0 (by omega : s + lotTokens ≤ s + n) hcap
  unfold lotTokens at hn
  simp only [grossBuy, assertSupplyInRange, assertPositiveDelta, bind_eq_ok, ensure_eq_ok,
    pure_eq_ok]
  exact ⟨(), ⟨(), h0, by omega⟩, (), by omega, (), hcap, _,
    requiredBackingSats_eq (by omega) hcap, _, requiredBackingSats_eq h0 (by omega), (), by omega,
    rfl⟩

theorem deterministicFee_ok {grossSats feeBps flatSats minSats : Int} (hgross : 0 ≤ grossSats)
    (hbps : 0 ≤ feeBps) (hflat : 0 ≤ flatSats) (hmin : 0 ≤ minSats) :
    ∃ fee, deterministicFee grossSats feeBps flatSats minSats = .ok fee := by
  simp only [deterministicFee, bind_eq_ok, ensure_eq_ok]
  split
  · exact ⟨0, (), hgross, (), hbps, (), hflat, (), hmin, rfl⟩
  · exact ⟨_, (), hgross, (), hbps, (), hflat, (), hmin, rfl⟩

/-- No fee falls when the gross and the flat part do not. -/
theorem deterministicFee_mono {gross gross' feeBps flat flat' minSats fee fee' : Int}
    (h : deterministicFee gross feeBps flat minSats = .ok fee)
    (h' : deterministicFee gross' feeBps flat' minSats = .ok fee') (hgross : gross ≤ gross')
    (hflat : flat ≤ flat') : fee ≤ fee' := by
  have hnonneg := deterministicFee_nonneg h'
  simp only [deterministicFee, bind_eq_ok, ensure_eq_ok] at h h'
  obtain ⟨_, hg, _, hbps, _, -, _, -, h⟩ := h
  obtain ⟨_, -, _, -, _, -, _, -, h'⟩ := h'
  by_cases hzero : gross = 0
  · rw [if_pos hzero, pure_eq_ok] at h
    omega
  · have hzero' : gross' ≠ 0 := by omega
    rw [if_neg hzero, pure_eq_ok] at h
    rw [if_neg hzero', pure_eq_ok] at h'
    have hmul : gross * feeBps ≤ gross' * feeBps := mul_le_mul_of_nonneg_right hgross hbps
    have hdiv : (gross * feeBps + bpsDenom - 1) / bpsDenom ≤
        (gross' * feeBps + bpsDenom - 1) / bpsDenom := by
      unfold bpsDenom
      omega
    split_ifs at h h' <;> omega

end Cove
