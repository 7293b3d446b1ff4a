import Cove.Economics.Fee
import Mathlib.Algebra.Order.BigOperators.Group.List
import Mathlib.Algebra.Order.Ring.Int

/-! Backing quotes: `packages/cove-economics/src/backing.ts`. Buys and redeems move along one
reserve function, so what a run of them pays in and takes out telescopes. -/

namespace Cove

open Checked

/-- A quote; the net is what the buyer pays or the seller receives. -/
structure Quote where
  gross : Int
  fee : Int
  net : Int
  deriving DecidableEq, Repr

def assertPositiveDelta (gross : Int) : Except Fault Unit :=
  ensure (1 ≤ gross)
    ⟨some "ECONOMIC_DUST", "zero backing delta: positive quantity produced a 0-sat R-delta"⟩

def grossBuy (supply amount : Int) : Except Fault Int := do
  assertSupplyInRange supply
  ensure (0 < amount) ⟨some "INVALID_AMOUNT", "amount must be positive"⟩
  ensure (supply + amount ≤ publicSupplyTokens) ⟨some "PUBLIC_CAP_EXCEEDED", "public cap exceeded"⟩
  let after ← requiredBackingSats (supply + amount)
  let before ← requiredBackingSats supply
  assertPositiveDelta (after - before)
  return after - before

def grossRedeem (supply amount : Int) : Except Fault Int := do
  assertSupplyInRange supply
  ensure (0 < amount) ⟨some "INVALID_AMOUNT", "amount must be positive"⟩
  ensure (amount ≤ supply)
    ⟨some "INSUFFICIENT_TOKEN_BALANCE", "redeem amount exceeds issued supply"⟩
  let before ← requiredBackingSats supply
  let after ← requiredBackingSats (supply - amount)
  assertPositiveDelta (before - after)
  return before - after

def quoteBuy (supply amount : Int) (feeConfig : CoveFeeConfig) : Except Fault Quote := do
  let gross ← grossBuy supply amount
  let fee ← mintFeeSats gross (amount * atomsPerToken) feeConfig.buyFeeBps
    feeConfig.buyFeeFlatSats feeConfig.buyFeeLotSats
  return ⟨gross, fee, gross + fee⟩

def quoteRedeem (supply amount : Int) (feeConfig : CoveFeeConfig) : Except Fault Quote := do
  let gross ← grossRedeem supply amount
  let fee ← redeemFeeSats gross feeConfig.redeemFeeBps feeConfig.redeemFeeFlatSats
    feeConfig.redeemFeeMinSats
  return ⟨gross, fee, gross - fee⟩

structure RedeemPayoutCheck where
  grossSats : Int
  feeSats : Int
  netSats : Int
  dustThresholdSats : Int
  isPayable : Bool
  minimumGrossSats : Int
  deriving DecidableEq, Repr

/-- `redeemPayout.ts`: a payout below the dust threshold is not worth making. -/
def checkRedeemPayout (grossSats feeSats : Int) (payoutScript : Bytes) :
    Except Fault RedeemPayoutCheck := do
  ensure (0 ≤ grossSats) ⟨none, "grossSats must be non-negative"⟩
  ensure (0 ≤ feeSats) ⟨none, "feeSats must be non-negative"⟩
  let dust := dustThreshold payoutScript
  let netSats := grossSats - feeSats
  return {
    grossSats, feeSats, netSats
    dustThresholdSats := dust
    isPayable := dust ≤ netSats
    minimumGrossSats := feeSats + dust }

/-! The range of the reserve function. -/

/-- No stair sells a token for more than six sats. -/
theorem stagePrice_bounds (stage : Nat) :
    0 ≤ stagePricesSatsPerMillion.getD stage 0 ∧
      stagePricesSatsPerMillion.getD stage 0 ≤ 6 * priceUnitTokens := by
  unfold stagePricesSatsPerMillion stageCount lotBaseSats lotStepSats priceUnitTokens lotTokens
  by_cases h : stage < 210
  · have hget : ((List.range 210).map fun (i : Nat) =>
        (27 + 27 * (i : Int)) * (1000000 / 1000)).getD stage 0 =
        (27 + 27 * (stage : Int)) * (1000000 / 1000) := by simp [h]
    rw [hget]
    omega
  · have hget : ((List.range 210).map fun (i : Nat) =>
        (27 + 27 * (i : Int)) * (1000000 / 1000)).getD stage 0 = 0 := by
      simp [h]
    rw [hget]
    omega

/-- A chunk costs at most six sats a token, rounding included. -/
theorem ceilDiv_chunk_bounds {chunk price : Int} (hchunk : 0 < chunk) (h0 : 0 ≤ price)
    (h6 : price ≤ 6 * priceUnitTokens) :
    0 ≤ ceilDiv (chunk * price) priceUnitTokens ∧
      ceilDiv (chunk * price) priceUnitTokens ≤ 6 * chunk := by
  have hlow : 0 ≤ chunk * price := mul_nonneg (le_of_lt hchunk) h0
  have hhigh : chunk * price ≤ chunk * (6 * priceUnitTokens) :=
    mul_le_mul_of_nonneg_left h6 (le_of_lt hchunk)
  unfold priceUnitTokens at *
  unfold ceilDiv
  split_ifs with hz
  · omega
  · omega

theorem costToBuyLoop_bounds {supply amount : Int} (fuel : Nat) {remaining s cost total : Int}
    (h : costToBuyLoop supply amount fuel remaining s cost = .ok total) :
    cost ≤ total ∧ total ≤ cost + 6 * max remaining 0 := by
  induction fuel generalizing remaining s cost with
  | zero =>
    simp only [costToBuyLoop, Except.ok.injEq] at h
    omega
  | succ fuel ih =>
    rw [costToBuyLoop] at h
    dsimp only at h
    split_ifs at h with hdone hshort hempty
    · simp only [Except.ok.injEq] at h
      omega
    · have hrest := ih h
      have hprice := stagePrice_bounds (stageAt s)
      have hchunk := ceilDiv_chunk_bounds (Int.not_le.mp hdone) hprice.1 hprice.2
      omega
    · have hrest := ih h
      have hprice := stagePrice_bounds (stageAt s)
      have hchunk := ceilDiv_chunk_bounds (Int.not_le.mp hempty) hprice.1 hprice.2
      omega

theorem requiredBackingSats_bounds {supply backing : Int}
    (h : requiredBackingSats supply = .ok backing) :
    0 ≤ backing ∧ backing ≤ 6 * publicSupplyTokens := by
  simp only [requiredBackingSats, assertSupplyInRange, bind_eq_ok, ensure_eq_ok] at h
  obtain ⟨_, ⟨_, h0, hcap⟩, hcost⟩ := h
  have hb := costToBuyLoop_bounds _ hcost
  omega

/-! Runs of trades. -/

inductive Trade
  | buy (amount : Int)
  | redeem (amount : Int)
  deriving DecidableEq, Repr

namespace Trade

def quote (feeConfig : CoveFeeConfig) (supply : Int) : Trade → Except Fault Quote
  | .buy amount => quoteBuy supply amount feeConfig
  | .redeem amount => quoteRedeem supply amount feeConfig

def supplyAfter (supply : Int) : Trade → Int
  | .buy amount => supply + amount
  | .redeem amount => supply - amount

/-- The sats the traders pay in. -/
def paid (q : Quote) : Trade → Int
  | .buy _ => q.net
  | .redeem _ => 0

/-- The sats the traders get out. -/
def received (q : Quote) : Trade → Int
  | .buy _ => 0
  | .redeem _ => q.net

end Trade

/-- Accepted trades one after the other, each quoted at the supply the one before left. -/
inductive TradeRun (feeConfig : CoveFeeConfig) : Int → List (Trade × Quote) → Int → Prop
  | nil (supply : Int) : TradeRun feeConfig supply [] supply
  | cons {supply final : Int} {t : Trade} {q : Quote} {rest : List (Trade × Quote)}
      (hq : t.quote feeConfig supply = .ok q)
      (hrest : TradeRun feeConfig (t.supplyAfter supply) rest final) :
      TradeRun feeConfig supply ((t, q) :: rest) final

def totalPaid (trades : List (Trade × Quote)) : Int := (trades.map fun e => e.1.paid e.2).sum

def totalReceived (trades : List (Trade × Quote)) : Int :=
  (trades.map fun e => e.1.received e.2).sum

def totalFees (trades : List (Trade × Quote)) : Int := (trades.map fun e => e.2.fee).sum

theorem deterministicFee_nonneg {grossSats feeBps flatSats minSats fee : Int}
    (h : deterministicFee grossSats feeBps flatSats minSats = .ok fee) : 0 ≤ fee := by
  simp only [deterministicFee, bind_eq_ok, ensure_eq_ok] at h
  obtain ⟨_, hgross, _, hbps, _, hflat, _, hmin, h⟩ := h
  have hmul : 0 ≤ grossSats * feeBps := mul_nonneg hgross hbps
  by_cases hz : grossSats = 0
  · rw [if_pos hz, pure_eq_ok] at h
    omega
  · rw [if_neg hz, pure_eq_ok] at h
    unfold bpsDenom at h
    split_ifs at h <;> omega

/-- A fee on anything at all is at least the minimum. -/
theorem deterministicFee_ge_min {grossSats feeBps flatSats minSats fee : Int}
    (h : deterministicFee grossSats feeBps flatSats minSats = .ok fee) (hgross : grossSats ≠ 0) :
    minSats ≤ fee := by
  simp only [deterministicFee, bind_eq_ok, if_neg hgross, pure_eq_ok] at h
  obtain ⟨_, -, _, -, _, -, _, -, rfl⟩ := h
  split_ifs <;> omega

/-- A trade moves the reserve by its gross, and the trader bears the fee. -/
theorem quote_spec {feeConfig : CoveFeeConfig} {supply : Int} {t : Trade} {q : Quote}
    (h : t.quote feeConfig supply = .ok q) :
    0 ≤ q.fee ∧ ∃ before after, requiredBackingSats supply = .ok before ∧
      requiredBackingSats (t.supplyAfter supply) = .ok after ∧
      t.paid q - t.received q = after - before + q.fee := by
  cases t with
  | buy amount =>
    simp only [Trade.quote, quoteBuy, grossBuy, bind_eq_ok, pure_eq_ok] at h
    obtain ⟨gross, ⟨_, -, _, -, _, -, after, hafter, before, hbefore, _, -, rfl⟩, fee, hfee, rfl⟩ := h
    refine ⟨deterministicFee_nonneg hfee, before, after, hbefore, hafter, ?_⟩
    simp only [Trade.paid, Trade.received]
    omega
  | redeem amount =>
    simp only [Trade.quote, quoteRedeem, grossRedeem, bind_eq_ok, pure_eq_ok] at h
    obtain ⟨gross, ⟨_, -, _, -, _, -, before, hbefore, after, hafter, _, -, rfl⟩, fee, hfee, rfl⟩ := h
    refine ⟨deterministicFee_nonneg hfee, before, after, hbefore, hafter, ?_⟩
    simp only [Trade.paid, Trade.received]
    omega

/-- Along a run the gross amounts telescope: only the fees are left over. -/
theorem TradeRun.telescopes {feeConfig : CoveFeeConfig} {supply final : Int}
    {trades : List (Trade × Quote)} (h : TradeRun feeConfig supply trades final) {before after : Int}
    (hbefore : requiredBackingSats supply = .ok before)
    (hafter : requiredBackingSats final = .ok after) :
    totalPaid trades - totalReceived trades = after - before + totalFees trades := by
  induction h generalizing before with
  | nil supply =>
    have heq : before = after := Except.ok.inj (hbefore.symm.trans hafter)
    simp [totalPaid, totalReceived, totalFees, heq]
  | @cons supply final t q rest hq _ ih =>
    obtain ⟨-, b, m, hb, hm, hstep⟩ := quote_spec hq
    have heq : before = b := Except.ok.inj (hbefore.symm.trans hb)
    have hrest := ih hm hafter
    simp only [totalPaid, totalReceived, totalFees, List.map_cons, List.sum_cons] at *
    omega

theorem TradeRun.fees_nonneg {feeConfig : CoveFeeConfig} {supply final : Int}
    {trades : List (Trade × Quote)} (h : TradeRun feeConfig supply trades final) :
    ∀ e ∈ trades, 0 ≤ e.2.fee := by
  induction h with
  | nil => simp
  | cons hq _ ih =>
    intro e he
    rcases List.mem_cons.mp he with rfl | he
    · exact (quote_spec hq).1
    · exact ih e he

/-- A cycle never pays: what the redeems give is at most what the buys cost, and less once any
fee was charged. -/
theorem no_profitable_cycle {feeConfig : CoveFeeConfig} {supply : Int}
    {trades : List (Trade × Quote)} (h : TradeRun feeConfig supply trades supply) :
    totalReceived trades ≤ totalPaid trades ∧
      ((∃ e ∈ trades, 0 < e.2.fee) → totalReceived trades < totalPaid trades) := by
  have hfees := h.fees_nonneg
  have hbalance : totalPaid trades - totalReceived trades = totalFees trades := by
    cases h with
    | nil => simp [totalPaid, totalReceived, totalFees]
    | cons hq hrest =>
      obtain ⟨-, before, _, hbefore, -⟩ := quote_spec hq
      have htele := (TradeRun.cons hq hrest).telescopes hbefore hbefore
      omega
  have hsum : 0 ≤ totalFees trades := by
    apply List.sum_nonneg
    intro x hx
    obtain ⟨e, he, rfl⟩ := List.mem_map.mp hx
    exact hfees e he
  refine ⟨by omega, ?_⟩
  rintro ⟨e, he, hpos⟩
  have hle : e.2.fee ≤ totalFees trades := by
    apply List.single_le_sum
    · intro x hx
      obtain ⟨e', he', rfl⟩ := List.mem_map.mp hx
      exact hfees e' he'
    · exact List.mem_map.mpr ⟨e, he, rfl⟩
  omega

/-- One lot is bought and redeemed. -/
theorem no_profitable_cycle_lot :
    totalReceived [(.buy 1000, ⟨27, 5013, 5040⟩), (.redeem 1000, ⟨27, 1000, -973⟩)] <
      totalPaid [(.buy 1000, ⟨27, 5013, 5040⟩), (.redeem 1000, ⟨27, 1000, -973⟩)] := by
  have hrun : TradeRun coveFeeConfig 0
      [(.buy 1000, ⟨27, 5013, 5040⟩), (.redeem 1000, ⟨27, 1000, -973⟩)] 0 :=
    .cons (by decide +kernel) (.cons (by decide +kernel) (.nil 0))
  exact (no_profitable_cycle hrun).2 ⟨_, List.mem_cons_self, by decide⟩

end Cove
