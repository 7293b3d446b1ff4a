import Cove.Economics.Staircase

/-! Whole lots on the staircase: nothing is rounded there, so the reserve is the integral of the
price and every lot moves it. -/

namespace Cove

open Checked Metered

/-- A supply of whole lots. -/
def LotAligned (supply : Int) : Prop := 0 ≤ supply ∧ supply % lotTokens = 0

instance (supply : Int) : Decidable (LotAligned supply) := inferInstanceAs (Decidable (_ ∧ _))

theorem LotAligned.add {a b : Int} (ha : LotAligned a) (hb : LotAligned b) : LotAligned (a + b) := by
  unfold LotAligned lotTokens at *
  omega

/-- The price of the next token, in sats. -/
def tokenPrice (supply : Int) : ℚ := (stairs210.priceAt supply : ℚ) / (priceUnitTokens : Int)

/-- The integral of the staircase from the first token on. -/
def staircaseIntegral (supply : Int) : ℚ :=
  (Finset.range supply.toNat).sum fun i => tokenPrice i

/-- What all stairs together have charged at a supply, unrounded. -/
def stairTotal (supply : Int) : ℚ := stairMeters.sum fun stage => stairReading stage supply

/-- One more token advances only the stair it stands on, by its price. -/
theorem stairTotal_succ {s : Int} (h0 : 0 ≤ s) (hcap : s < publicSupplyTokens) :
    stairTotal (s + 1) = stairTotal s + tokenPrice s := by
  obtain ⟨hstage, hlow, hhigh⟩ := stageAt_bounds h0 hcap
  have hstep : ∀ stage ∈ stairMeters, stairReading stage (s + 1) =
      stairReading stage s + if stage = stageAt s then tokenPrice s else 0 := by
    intro stage _
    split_ifs with hk
    · subst hk
      rw [stairReading, stairReading, stairSold_within (by omega) (by omega),
        stairSold_within hlow hhigh.le, tokenPrice, ← add_div]
      congr 1
      simp only [stairs210]
      push_cast
      ring
    · rw [stairReading, stairReading, stairSold_other hk hlow hhigh.le,
        stairSold_other hk (by omega) (by omega : s + 1 ≤ ((stageAt s : Int) + 1) * tokensPerStage),
        add_zero]
  rw [stairTotal, Finset.sum_congr rfl hstep, Finset.sum_add_distrib, Finset.sum_ite_eq',
    if_pos ((mem_stairMeters _).mpr hstage), stairTotal]

/-- A purchase advances the stairs by the prices of its tokens. -/
theorem stairTotal_add {s : Int} (n : Nat) (h0 : 0 ≤ s) (hcap : s + n ≤ publicSupplyTokens) :
    stairTotal (s + n) = stairTotal s + (Finset.range n).sum fun i => tokenPrice (s + i) := by
  induction n with
  | zero => simp
  | succ n ih =>
    have hn := ih (by omega)
    have hlast := stairTotal_succ (by omega : 0 ≤ s + n) (by omega)
    rw [Finset.sum_range_succ, ← add_assoc, ← hn, ← hlast]
    congr 1
    push_cast
    ring

/-- On whole lots every stair charges whole sats. -/
theorem stairReading_lots {stage : Nat} {s : Int} (hstage : stage ∈ stairMeters)
    (hs : LotAligned s) : ∃ z : Int, stairReading stage s = z := by
  have hsold : stairSold stage s % 1000 = 0 := by
    unfold LotAligned lotTokens at hs
    unfold stairSold tokensPerStage
    omega
  have hprice := stagePrice_eq ((mem_stairMeters stage).mp hstage)
  have hlots := Int.mul_ediv_cancel' (Int.dvd_of_emod_eq_zero hsold)
  refine ⟨(27 + 27 * (stage : Int)) * (stairSold stage s / 1000), ?_⟩
  rw [stairReading, hprice, ← hlots, Int.mul_ediv_cancel_left _ (by decide)]
  unfold priceUnitTokens
  push_cast
  ring

theorem stairReading_lots_sub {stage : Nat} {a b : Int} (hstage : stage ∈ stairMeters)
    (ha : LotAligned a) (hb : LotAligned b) :
    ∃ z : Int, stairReading stage b - stairReading stage a = z := by
  obtain ⟨y, hy⟩ := stairReading_lots hstage hb
  obtain ⟨x, hx⟩ := stairReading_lots hstage ha
  refine ⟨y - x, ?_⟩
  rw [hy, hx, Int.cast_sub]

/-- A move between whole lots costs the prices of its tokens, unrounded. -/
theorem stairCharge_lots {s : Int} (n : Nat) (hs : LotAligned s) (hn : LotAligned (n : Int))
    (hcap : s + n ≤ publicSupplyTokens) :
    (stairCharge s (s + n) : ℚ) = (Finset.range n).sum fun i => tokenPrice (s + i) := by
  have hexact : ((stairCharge s (s + n) : Int) : ℚ) = stairTotal (s + n) - stairTotal s := by
    rw [stairCharge, cast_charge_of_exact fun stage hstage =>
      stairReading_lots_sub hstage hs (hs.add hn), stairTotal, stairTotal, Finset.sum_sub_distrib]
  rw [hexact, stairTotal_add n hs.1 hcap, add_sub_cancel_left]

/-- The reserve at the end of a move from whole lots is the one at its start and the charge. -/
theorem stairCharge_from_lots {a : Int} (b : Int) (ha : LotAligned a) :
    stairCharge 0 a + stairCharge a b = stairCharge 0 b := by
  apply charge_add_of_exact
  intro stage hstage
  exact stairReading_lots_sub hstage ⟨le_refl 0, rfl⟩ ha

/-! What the reserve does from lot to lot. -/

theorem stairPriceAt_eq {s : Int} (h0 : 0 ≤ s) (hcap : s < publicSupplyTokens) :
    stairs210.priceAt s = (27 + 27 * (s / tokensPerStage)) * 1000 := by
  have hstage := (stageAt_bounds h0 hcap).1
  have hindex : (stageAt s : Int) = s / tokensPerStage := by
    unfold stageAt tokensPerStage
    rw [if_neg (by omega)]
    omega
  rw [← hindex]
  exact stagePrice_eq hstage

theorem tokenPrice_pos {s : Int} (h0 : 0 ≤ s) (hcap : s < publicSupplyTokens) : 0 < tokenPrice s := by
  have hprice : 0 < stairs210.priceAt s := by
    rw [stairPriceAt_eq h0 hcap]
    unfold tokensPerStage
    omega
  apply div_pos
  · exact_mod_cast hprice
  · norm_num [priceUnitTokens]

theorem tokenPrice_mono {s t : Int} (h0 : 0 ≤ s) (hst : s ≤ t) (hcap : t < publicSupplyTokens) :
    tokenPrice s ≤ tokenPrice t := by
  have hprice : stairs210.priceAt s ≤ stairs210.priceAt t := by
    rw [stairPriceAt_eq h0 (by omega), stairPriceAt_eq (by omega) hcap]
    unfold tokensPerStage
    omega
  apply div_le_div_of_nonneg_right
  · exact_mod_cast hprice
  · norm_num [priceUnitTokens]

/-- Any lot costs a sat at least. -/
theorem stairCharge_lots_pos {s q : Int} (hs : LotAligned s) (hq : LotAligned q) (hpos : 0 < q)
    (hcap : s + q ≤ publicSupplyTokens) : 1 ≤ stairCharge s (s + q) := by
  lift q to Nat using hq.1
  have hsum : (0 : ℚ) < (Finset.range q).sum fun i => tokenPrice (s + i) := by
    apply Finset.sum_pos
    · intro i hi
      have hi' := Finset.mem_range.mp hi
      have h0 := hs.1
      exact tokenPrice_pos (by omega) (by omega)
    · exact Finset.nonempty_range_iff.mpr (by omega)
  rw [← stairCharge_lots q hs hq hcap] at hsum
  have hint : 0 < stairCharge s (s + q) := by exact_mod_cast hsum
  omega

/-- The same lots cost no less further up. -/
theorem stairCharge_lots_mono {s t q : Int} (hs : LotAligned s) (ht : LotAligned t)
    (hq : LotAligned q) (hst : s ≤ t) (hcap : t + q ≤ publicSupplyTokens) :
    stairCharge s (s + q) ≤ stairCharge t (t + q) := by
  lift q to Nat using hq.1
  have hsum : (stairCharge s (s + q) : ℚ) ≤ stairCharge t (t + q) := by
    rw [stairCharge_lots q hs hq (by omega), stairCharge_lots q ht hq hcap]
    apply Finset.sum_le_sum
    intro i hi
    have hi' := Finset.mem_range.mp hi
    have h0 := hs.1
    exact tokenPrice_mono (by omega) (by omega) (by omega)
  exact_mod_cast hsum

theorem requiredBackingSats_lots {s : Int} (hs : LotAligned s) (hcap : s ≤ publicSupplyTokens) :
    ∃ r : Int, requiredBackingSats s = .ok r ∧ (r : ℚ) = staircaseIntegral s := by
  refine ⟨_, requiredBackingSats_eq hs.1 hcap, ?_⟩
  have hn : ((s.toNat : Nat) : Int) = s := Int.toNat_of_nonneg hs.1
  have hsum := stairCharge_lots s.toNat ⟨le_refl 0, rfl⟩ (by rw [hn]; exact hs) (by omega)
  rw [zero_add, hn] at hsum
  rw [hsum, staircaseIntegral]
  apply Finset.sum_congr rfl
  intro i _
  rw [zero_add]

/-- Between whole lots the reserve moves by the charge. -/
theorem requiredBackingSats_sub {s q r₁ r₂ : Int} (hs : LotAligned s) (hq : 0 ≤ q)
    (hcap : s + q ≤ publicSupplyTokens) (h₁ : requiredBackingSats s = .ok r₁)
    (h₂ : requiredBackingSats (s + q) = .ok r₂) : r₂ - r₁ = stairCharge s (s + q) := by
  have h0 := hs.1
  rw [requiredBackingSats_eq h0 (by omega), Except.ok.injEq] at h₁
  rw [requiredBackingSats_eq (by omega) hcap, Except.ok.injEq] at h₂
  have hsplit := stairCharge_from_lots (s + q) hs
  omega

theorem grossBuy_lots {s q : Int} (hs : LotAligned s) (hq : LotAligned q) (hpos : 0 < q)
    (hcap : s + q ≤ publicSupplyTokens) : ∃ gross, 1 ≤ gross ∧ grossBuy s q = .ok gross := by
  have h0 := hs.1
  have hafter := requiredBackingSats_eq (by omega : 0 ≤ s + q) hcap
  have hbefore := requiredBackingSats_eq h0 (by omega)
  have hgross := requiredBackingSats_sub hs hq.1 hcap hbefore hafter
  have hone := stairCharge_lots_pos hs hq hpos hcap
  refine ⟨stairCharge s (s + q), hone, ?_⟩
  simp only [grossBuy, assertSupplyInRange, assertPositiveDelta, bind_eq_ok, ensure_eq_ok,
    pure_eq_ok]
  exact ⟨(), ⟨(), h0, by omega⟩, (), hpos, (), hcap, _, hafter, _, hbefore, (), by omega, hgross⟩

theorem grossRedeem_lots {s q : Int} (hs : LotAligned s) (hq : LotAligned q) (hpos : 0 < q)
    (hle : q ≤ s) (hcap : s ≤ publicSupplyTokens) :
    ∃ gross, 1 ≤ gross ∧ grossRedeem s q = .ok gross := by
  have hlower : LotAligned (s - q) := by
    unfold LotAligned lotTokens at *
    omega
  have heq : s - q + q = s := by omega
  have hbefore := requiredBackingSats_eq hs.1 hcap
  have hafter := requiredBackingSats_eq hlower.1 (by omega)
  have hgross := requiredBackingSats_sub hlower hq.1 (by omega) hafter (by rw [heq]; exact hbefore)
  have hone := stairCharge_lots_pos hlower hq hpos (by omega)
  rw [heq] at hgross hone
  refine ⟨stairCharge (s - q) s, hone, ?_⟩
  simp only [grossRedeem, assertSupplyInRange, assertPositiveDelta, bind_eq_ok, ensure_eq_ok,
    pure_eq_ok]
  exact ⟨(), ⟨(), hs.1, hcap⟩, (), hpos, (), hle, _, hbefore, _, hafter, (), by omega, hgross⟩

end Cove
