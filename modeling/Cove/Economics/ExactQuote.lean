import Cove.Economics.Lots
import Cove.Lib.Loop

/-! The quotes of `packages/curve/src/quote.ts`, beside its `getStagePrice` and `ceilDiv`. Stairs
are counted from one here. -/

namespace Cove

open Checked Loop

namespace ExactQuote

structure QuoteResult where
  tokens : Int
  curveContributionSats : Int
  startingStage : Nat
  endingStage : Nat
  supplyBefore : Int
  supplyAfter : Int
  deriving DecidableEq, Repr

def getStagePrice (stage : Nat) : Except Fault Int := do
  ensure (1 ≤ stage ∧ stage ≤ stageCount)
    ⟨some "INVALID_STAGE", s!"Stage must be an integer between 1 and {stageCount}."⟩
  return stagePricesSatsPerMillion.getD (stage - 1) 0

def ceilDiv (numerator denominator : Int) : Except Fault Int := do
  ensure (denominator ≠ 0) ⟨none, "Division by zero."⟩
  ensure (0 ≤ numerator ∧ 0 ≤ denominator) ⟨none, "ceilDiv requires non-negative inputs."⟩
  return if numerator = 0 then 0 else (numerator + denominator - 1) / denominator

def assertSupply (supply : Int) : Except Fault Unit := do
  ensure (0 ≤ supply) ⟨some "NEGATIVE_SUPPLY", "Supply cannot be negative."⟩
  ensure (supply < publicSupplyTokens) ⟨some "MINT_SOLD_OUT", "Public mint is sold out."⟩

/-- The variables of the loop of `quoteExactTokens`. -/
structure TokensWalk where
  endingStage : Nat
  supply : Int
  remaining : Int
  totalSats : Int

def tokensTurn (w : TokensWalk) : Except Fault (Turn TokensWalk) :=
  if w.remaining ≤ 0 then .ok (.leave w)
  else do
    let stage ← getStageForSupply w.supply
    let stageEnd := (stage : Int) * tokensPerStage
    let remainingInStage := stageEnd - w.supply
    let chunk := if w.remaining < remainingInStage then w.remaining else remainingInStage
    let price ← getStagePrice stage
    let cost ← ceilDiv (chunk * price) priceUnitTokens
    return .again {
      endingStage := stage
      supply := w.supply + chunk
      remaining := w.remaining - chunk
      totalSats := w.totalSats + cost }

/-- The checks before the loop, and the stage it starts in. -/
def exactTokensStart (desiredTokens currentSupply : Int) : Except Fault Nat := do
  ensure (0 < desiredTokens) ⟨some "ZERO_QUANTITY", "Desired token quantity must be positive."⟩
  assertSupply currentSupply
  let remainingPublic := publicSupplyTokens - currentSupply
  ensure (desiredTokens ≤ remainingPublic) ⟨some "EXCEEDS_REMAINING_SUPPLY",
    s!"Requested {desiredTokens} tokens but only {remainingPublic} remain."⟩
  getStageForSupply currentSupply

/-- None when the loop outlasts the fuel. -/
def quoteExactTokens (fuel : Nat) (desiredTokens currentSupply : Int) :
    Option (Except Fault QuoteResult) :=
  match exactTokensStart desiredTokens currentSupply with
  | .error e => some (.error e)
  | .ok startingStage =>
    (run tokensTurn fuel ⟨startingStage, currentSupply, desiredTokens, 0⟩).map fun walked => do
      let w ← walked
      return {
        tokens := desiredTokens
        curveContributionSats := w.totalSats
        startingStage
        endingStage := w.endingStage
        supplyBefore := currentSupply
        supplyAfter := w.supply }

/-- The variables of the loop of `quoteExactSats`. -/
structure SatsWalk where
  endingStage : Nat
  supply : Int
  remainingSats : Int
  totalTokens : Int

def satsTurn (w : SatsWalk) : Except Fault (Turn SatsWalk) :=
  if ¬(0 < w.remainingSats ∧ w.supply < publicSupplyTokens) then .ok (.leave w)
  else do
    let stage ← getStageForSupply w.supply
    let stageEnd := (stage : Int) * tokensPerStage
    let remainingInStage := stageEnd - w.supply
    let price ← getStagePrice stage
    let maxAffordableInStage := (w.remainingSats * priceUnitTokens).tdiv price
    let chunk :=
      if maxAffordableInStage < remainingInStage then maxAffordableInStage else remainingInStage
    -- the stage was already noted when the loop breaks off
    if chunk = 0 then return .leave { w with endingStage := stage }
    else do
      let cost ← ceilDiv (chunk * price) priceUnitTokens
      return .again {
        endingStage := stage
        supply := w.supply + chunk
        remainingSats := w.remainingSats - cost
        totalTokens := w.totalTokens + chunk }

def exactSatsStart (availableSats currentSupply : Int) : Except Fault Nat := do
  ensure (0 < availableSats) ⟨some "ZERO_QUANTITY", "Available sats must be positive."⟩
  assertSupply currentSupply
  getStageForSupply currentSupply

/-- None when the loop outlasts the fuel. -/
def quoteExactSats (fuel : Nat) (availableSats currentSupply : Int) :
    Option (Except Fault QuoteResult) :=
  match exactSatsStart availableSats currentSupply with
  | .error e => some (.error e)
  | .ok startingStage =>
    (run satsTurn fuel ⟨startingStage, currentSupply, availableSats, 0⟩).map fun walked => do
      let w ← walked
      return {
        tokens := w.totalTokens
        curveContributionSats := availableSats - w.remainingSats
        startingStage
        endingStage := w.endingStage
        supplyBefore := currentSupply
        supplyAfter := w.supply }

/-! Below the cap the parts of a turn succeed. -/

theorem getStageForSupply_eq {s : Int} (h0 : 0 ≤ s) (hcap : s < publicSupplyTokens) :
    getStageForSupply s = .ok (stageAt s + 1) := by
  have hstage := (stageAt_bounds h0 hcap).1
  unfold getStageForSupply
  rw [if_neg (by omega), if_neg (by omega)]
  unfold stageAt at hstage ⊢
  rw [if_neg (by omega)] at hstage ⊢
  rw [min_eq_left (by omega)]

theorem getStagePrice_eq {stage : Nat} (h : stage < stageCount) :
    getStagePrice (stage + 1) = .ok (stagePricesSatsPerMillion.getD stage 0) := by
  simp only [getStagePrice, bind_eq_ok, ensure_eq_ok, pure_eq_ok]
  exact ⟨(), ⟨by omega, by omega⟩, rfl⟩

theorem ceilDiv_eq {n d : Int} (hn : 0 ≤ n) (hd : 0 < d) : ceilDiv n d = .ok (Cove.ceilDiv n d) := by
  simp only [ceilDiv, bind_eq_ok, ensure_eq_ok, pure_eq_ok]
  refine ⟨(), by omega, (), ⟨hn, hd.le⟩, ?_⟩
  unfold Cove.ceilDiv
  by_cases hz : n = 0
  · rw [if_pos hz, if_pos (by omega)]
  · rw [if_neg hz, if_neg (by omega)]

theorem assertSupply_eq {s : Int} (h0 : 0 ≤ s) (hcap : s < publicSupplyTokens) :
    assertSupply s = .ok () := by
  simp only [assertSupply, bind_eq_ok, ensure_eq_ok]
  exact ⟨(), h0, hcap⟩

/-! Exact tokens. -/

/-- What is left to pay and what was paid make up the price of the whole. -/
structure TokensInv (supply amount : Int) (w : TokensWalk) : Prop where
  supply_nonneg : 0 ≤ w.supply
  remaining_nonneg : 0 ≤ w.remaining
  total : w.supply + w.remaining = supply + amount
  paid : w.totalSats + stairCharge w.supply (supply + amount) = stairCharge supply (supply + amount)

theorem tokensTurn_again {w : TokensWalk} (h0 : 0 ≤ w.supply) (hpos : 0 < w.remaining)
    (hcap : w.supply < publicSupplyTokens) :
    ∃ chunk, 0 < chunk ∧ chunk ≤ w.remaining ∧
      w.supply + chunk ≤ ((stageAt w.supply : Int) + 1) * tokensPerStage ∧
      (chunk = w.remaining ∨
        w.supply + chunk = ((stageAt w.supply : Int) + 1) * tokensPerStage) ∧
      tokensTurn w = .ok (.again {
        endingStage := stageAt w.supply + 1
        supply := w.supply + chunk
        remaining := w.remaining - chunk
        totalSats := w.totalSats + Cove.ceilDiv
          (chunk * stagePricesSatsPerMillion.getD (stageAt w.supply) 0) priceUnitTokens }) := by
  obtain ⟨hstage, hlow, hhigh⟩ := stageAt_bounds h0 hcap
  have hprice := (stagePrice_bounds (stageAt w.supply)).1
  have hend : ((stageAt w.supply + 1 : Nat) : Int) * tokensPerStage =
      ((stageAt w.supply : Int) + 1) * tokensPerStage := by
    push_cast
    rfl
  obtain ⟨chunk, hchunk⟩ : ∃ chunk, chunk =
      if w.remaining < ((stageAt w.supply : Int) + 1) * tokensPerStage - w.supply then w.remaining
      else ((stageAt w.supply : Int) + 1) * tokensPerStage - w.supply := ⟨_, rfl⟩
  have hpos' : 0 < chunk := by
    rw [hchunk]
    split_ifs <;> omega
  refine ⟨chunk, hpos', ?_, ?_, ?_, ?_⟩
  · rw [hchunk]
    split_ifs <;> omega
  · rw [hchunk]
    split_ifs <;> omega
  · rw [hchunk]
    split_ifs <;> omega
  · rw [tokensTurn, if_neg (by omega)]
    simp only [bind_eq_ok, pure_eq_ok]
    refine ⟨_, getStageForSupply_eq h0 hcap, _, getStagePrice_eq hstage, Cove.ceilDiv
      (chunk * stagePricesSatsPerMillion.getD (stageAt w.supply) 0) priceUnitTokens, ?_, ?_⟩
    · rw [hend, ← hchunk]
      exact ceilDiv_eq (mul_nonneg hpos'.le hprice) (by decide)
    · rw [hend, ← hchunk]

/-- With fuel for every token the loop ends with the whole charged. -/
theorem tokensWalk_total {supply amount : Int} (h0 : 0 ≤ supply) (hpos : 0 < amount)
    (hcap : supply + amount ≤ publicSupplyTokens) (stage : Nat) {fuel : Nat}
    (hfuel : amount.toNat < fuel) :
    ∃ w, run tokensTurn fuel ⟨stage, supply, amount, 0⟩ = some (.ok w) ∧
      w.supply = supply + amount ∧ w.totalSats = stairCharge supply (supply + amount) := by
  have hstart : TokensInv supply amount ⟨stage, supply, amount, 0⟩ :=
    ⟨h0, hpos.le, rfl, zero_add _⟩
  refine run_total (TokensInv supply amount) _ (fun w => w.remaining.toNat) ?_ hstart hfuel
  intro w hw
  obtain ⟨hw0, hr, htotal, hpaid⟩ := hw
  by_cases hdone : w.remaining ≤ 0
  · left
    have hend : w.supply = supply + amount := by omega
    refine ⟨w, by rw [tokensTurn, if_pos hdone], hend, ?_⟩
    rw [hend] at hpaid
    simpa [stairCharge] using hpaid
  · right
    obtain ⟨chunk, hchunk, hle, hin, hedge, hturn⟩ :=
      tokensTurn_again hw0 (by omega) (by omega)
    have hstep := stairCharge_advance hw0 (by omega) hchunk.le hin
      (by omega : w.supply + chunk ≤ supply + amount) (by omega)
    refine ⟨_, hturn, ⟨?_, ?_, ?_, ?_⟩, ?_⟩
    · dsimp only
      omega
    · dsimp only
      omega
    · dsimp only
      omega
    · dsimp only
      omega
    · dsimp only
      omega

theorem quoteExactTokens_eq {supply amount : Int} (h0 : 0 ≤ supply) (hpos : 0 < amount)
    (hcap : supply + amount ≤ publicSupplyTokens) {fuel : Nat} (hfuel : amount.toNat < fuel) :
    ∃ q, quoteExactTokens fuel amount supply = some (.ok q) ∧
      q.curveContributionSats = stairCharge supply (supply + amount) ∧
      q.supplyAfter = supply + amount := by
  obtain ⟨w, hrun, hsupply, htotal⟩ :=
    tokensWalk_total h0 hpos hcap (stageAt supply + 1) hfuel
  have hstart : exactTokensStart amount supply = .ok (stageAt supply + 1) := by
    simp only [exactTokensStart, bind_eq_ok, ensure_eq_ok]
    exact ⟨(), hpos, (), assertSupply_eq h0 (by omega), (), by omega,
      getStageForSupply_eq h0 (by omega)⟩
  refine ⟨⟨amount, w.totalSats, stageAt supply + 1, w.endingStage, supply, w.supply⟩, ?_, htotal,
    hsupply⟩
  rw [quoteExactTokens, hstart]
  simp only [hrun, Option.map_some]
  rfl

theorem quoteExactTokens_fuel {fuel more : Nat} {amount supply : Int} {r : Except Fault QuoteResult}
    (hle : fuel ≤ more) (h : quoteExactTokens fuel amount supply = some r) :
    quoteExactTokens more amount supply = some r := by
  unfold quoteExactTokens at h ⊢
  cases hstart : exactTokensStart amount supply with
  | error e => simpa only [hstart] using h
  | ok stage =>
    simp only [hstart, Option.map_eq_some_iff] at h ⊢
    obtain ⟨walked, hrun, hr⟩ := h
    exact ⟨walked, run_fuel hle hrun, hr⟩

/-- The exact-tokens quote is accepted, ends, and charges what the staircase of the economics
package does: at least what the reserve rises by, and just that from whole lots. -/
theorem quoteExactTokens_agrees {supply amount : Int} (h0 : 0 ≤ supply) (hpos : 0 < amount)
    (hcap : supply + amount ≤ publicSupplyTokens) :
    ∃ q before after,
      (∀ fuel, amount.toNat < fuel → quoteExactTokens fuel amount supply = some (.ok q)) ∧
      costToBuy supply amount = .ok q.curveContributionSats ∧
      requiredBackingSats supply = .ok before ∧
      requiredBackingSats (supply + amount) = .ok after ∧
      after - before ≤ q.curveContributionSats ∧
      (supply % lotTokens = 0 → q.curveContributionSats = after - before) := by
  obtain ⟨q, hq, hcost, -⟩ := quoteExactTokens_eq h0 hpos hcap (Nat.lt_succ_self _)
  refine ⟨q, _, _, fun fuel hfuel => quoteExactTokens_fuel hfuel hq, ?_,
    requiredBackingSats_eq h0 (by omega), requiredBackingSats_eq (by omega) hcap, ?_, ?_⟩
  · rw [costToBuy_eq h0 hpos.le hcap, hcost]
  · have hsplit : stairCharge 0 (supply + amount) ≤
        stairCharge 0 supply + stairCharge supply (supply + amount) := Metered.charge_le_add _ _ _
    omega
  · intro hlots
    have hsplit := stairCharge_from_lots (supply + amount) ⟨h0, hlots⟩
    omega

/-- A token from the last one of the first stair and a lot of the second. -/
theorem quoteExactTokens_agrees_edge :
    ∃ q before after,
      (∀ fuel, (1001 : Int).toNat < fuel → quoteExactTokens fuel 1001 99999 = some (.ok q)) ∧
      costToBuy 99999 1001 = .ok q.curveContributionSats ∧
      requiredBackingSats 99999 = .ok before ∧
      requiredBackingSats (99999 + 1001) = .ok after ∧
      after - before ≤ q.curveContributionSats ∧
      ((99999 : Int) % lotTokens = 0 → q.curveContributionSats = after - before) :=
  quoteExactTokens_agrees (by decide) (by decide) (by decide)

/-! Exact sats. -/

/-- What a chunk costs is within the sats when its exact price is. -/
theorem ceilDiv_le_iff {n d r : Int} (hn : 0 ≤ n) (hd : 0 < d) :
    Cove.ceilDiv n d ≤ r ↔ n ≤ r * d := by
  have hd' : (0 : ℚ) < d := by exact_mod_cast hd
  rw [ceilDiv_eq_ceil hn hd, Int.ceil_le, div_le_iff₀ hd']
  exact_mod_cast Iff.rfl

/-- Prices from the start can be read off at the supply. -/
def CutAt (start supply : Int) : Prop :=
  ∀ stop, supply ≤ stop →
    stairCharge start supply + stairCharge supply stop = stairCharge start stop

/-- No further token can be had for the sats. -/
def SoldOutFor (start available supply : Int) : Prop :=
  ∀ stop, supply < stop → stop ≤ publicSupplyTokens → available < stairCharge start stop

/-- The walk has paid for what it took. It stands at a cut, or the next token is too dear. -/
structure SatsInv (start available : Int) (w : SatsWalk) : Prop where
  tokens_nonneg : 0 ≤ w.totalTokens
  supply : w.supply = start + w.totalTokens
  supply_le : w.supply ≤ publicSupplyTokens
  sats_nonneg : 0 ≤ w.remainingSats
  paid : stairCharge start w.supply = available - w.remainingSats
  next : CutAt start w.supply ∨
    (w.remainingSats * priceUnitTokens < stagePricesSatsPerMillion.getD (stageAt w.supply) 0 ∧
      SoldOutFor start available w.supply)

/-- At a cut, what one token more than a number of tokens costs bounds what the sats buy. -/
theorem CutAt.soldOut {start available supply remaining a : Int} (h0 : 0 ≤ supply)
    (hcap : supply < publicSupplyTokens) (hcut : CutAt start supply)
    (hpaid : stairCharge start supply = available - remaining) (ha : 0 ≤ a)
    (hin : supply + (a + 1) ≤ ((stageAt supply : Int) + 1) * tokensPerStage)
    (hdear : remaining * priceUnitTokens <
      (a + 1) * stagePricesSatsPerMillion.getD (stageAt supply) 0) :
    SoldOutFor start available (supply + a) := by
  intro stop hstop _
  obtain ⟨hstage, hlow, -⟩ := stageAt_bounds h0 hcap
  have hprice := (stagePrice_bounds (stageAt supply)).1
  have hchunk := stairCharge_chunk supply (a + 1) hstage hlow (by omega) hin
  have hcost : remaining < stairCharge supply (supply + (a + 1)) := by
    rw [hchunk, ← not_le, ceilDiv_le_iff (mul_nonneg (by omega) hprice) (by decide)]
    omega
  have hmore := hcut (supply + (a + 1)) (by omega)
  have hmono : stairCharge start (supply + (a + 1)) ≤ stairCharge start stop :=
    stairs_sequential.charge_mono start (by omega)
  omega

/-- What one turn does while sats and tokens are left. -/
theorem satsTurn_eq {w : SatsWalk} (h0 : 0 ≤ w.supply) (hcap : w.supply < publicSupplyTokens)
    (hsats : 0 < w.remainingSats) :
    ∃ chunk, 0 ≤ chunk ∧
      chunk = min (w.remainingSats * priceUnitTokens /
        stagePricesSatsPerMillion.getD (stageAt w.supply) 0)
        (((stageAt w.supply : Int) + 1) * tokensPerStage - w.supply) ∧
      satsTurn w = if chunk = 0 then .ok (.leave { w with endingStage := stageAt w.supply + 1 })
        else .ok (.again {
          endingStage := stageAt w.supply + 1
          supply := w.supply + chunk
          remainingSats := w.remainingSats - Cove.ceilDiv
            (chunk * stagePricesSatsPerMillion.getD (stageAt w.supply) 0) priceUnitTokens
          totalTokens := w.totalTokens + chunk }) := by
  obtain ⟨hstage, hlow, hhigh⟩ := stageAt_bounds h0 hcap
  have hprice := (stagePrice_bounds (stageAt w.supply)).1
  have hend : ((stageAt w.supply + 1 : Nat) : Int) * tokensPerStage =
      ((stageAt w.supply : Int) + 1) * tokensPerStage := by
    push_cast
    rfl
  have hbudget : 0 ≤ w.remainingSats * priceUnitTokens :=
    mul_nonneg hsats.le (by decide)
  have hafford := Int.ediv_nonneg hbudget hprice
  obtain ⟨chunk, hchunk⟩ : ∃ chunk, chunk = min (w.remainingSats * priceUnitTokens /
        stagePricesSatsPerMillion.getD (stageAt w.supply) 0)
        (((stageAt w.supply : Int) + 1) * tokensPerStage - w.supply) := ⟨_, rfl⟩
  have hchunk' : (if w.remainingSats * priceUnitTokens /
        stagePricesSatsPerMillion.getD (stageAt w.supply) 0 <
        ((stageAt w.supply : Int) + 1) * tokensPerStage - w.supply then
      w.remainingSats * priceUnitTokens / stagePricesSatsPerMillion.getD (stageAt w.supply) 0
      else ((stageAt w.supply : Int) + 1) * tokensPerStage - w.supply) = chunk := by
    rw [hchunk]
    split_ifs <;> omega
  have hnonneg : 0 ≤ chunk := by omega
  refine ⟨chunk, hnonneg, hchunk, ?_⟩
  rw [satsTurn, if_neg (by omega), getStageForSupply_eq h0 hcap]
  simp only [bind, Except.bind, getStagePrice_eq hstage, hend, Int.tdiv_eq_ediv_of_nonneg hbudget,
    hchunk', ceilDiv_eq (mul_nonneg hnonneg hprice) (by decide : 0 < priceUnitTokens)]
  rfl

/-- Every turn leaves with the sats spent as far as they go, or moves on. -/
theorem satsTurn_step {start available : Int} (hstart : 0 ≤ start) {w : SatsWalk}
    (hw : SatsInv start available w) :
    (∃ w', satsTurn w = .ok (.leave w') ∧
      SatsInv start available w' ∧ SoldOutFor start available w'.supply) ∨
    ∃ w', satsTurn w = .ok (.again w') ∧ SatsInv start available w' ∧
      (publicSupplyTokens - w'.supply).toNat < (publicSupplyTokens - w.supply).toNat := by
  have htokens := hw.tokens_nonneg
  have hsupply := hw.supply
  have h0 : 0 ≤ w.supply := by omega
  by_cases hgo : 0 < w.remainingSats ∧ w.supply < publicSupplyTokens
  · obtain ⟨hsats, hcap⟩ := hgo
    obtain ⟨hstage, hlow, hhigh⟩ := stageAt_bounds h0 hcap
    obtain ⟨chunk, hnonneg, hchunk, hturn⟩ := satsTurn_eq h0 hcap hsats
    have hprice : 0 < stagePricesSatsPerMillion.getD (stageAt w.supply) 0 := by
      rw [stagePrice_eq hstage]
      omega
    obtain ⟨price, hpeq⟩ : ∃ price, price = stagePricesSatsPerMillion.getD (stageAt w.supply) 0 :=
      ⟨_, rfl⟩
    rw [← hpeq] at hprice hchunk hturn
    have hbudget : 0 ≤ w.remainingSats * priceUnitTokens := mul_nonneg hsats.le (by decide)
    have hfloor := Int.ediv_mul_le (w.remainingSats * priceUnitTokens) hprice.ne'
    have hnext := Int.lt_ediv_add_one_mul_self (w.remainingSats * priceUnitTokens) hprice
    have hafford : chunk * price ≤ w.remainingSats * priceUnitTokens := by
      apply le_trans _ hfloor
      exact mul_le_mul_of_nonneg_right (by omega) hprice.le
    have hcost := (ceilDiv_le_iff (mul_nonneg hnonneg hprice.le) (by decide)).mpr hafford
    by_cases hzero : chunk = 0
    · -- one token is too dear
      left
      have hnone : w.remainingSats * priceUnitTokens / price = 0 := by omega
      rw [hnone, zero_add, one_mul] at hnext
      refine ⟨{ w with endingStage := stageAt w.supply + 1 }, by rw [hturn, if_pos hzero],
        ⟨htokens, hsupply, hw.supply_le, hsats.le, hw.paid,
        hw.next⟩, ?_⟩
      rcases hw.next with hcut | hstuck
      · have hsold := hcut.soldOut h0 hcap hw.paid (le_refl 0) (by omega)
          (by rw [← hpeq]; omega)
        rwa [add_zero] at hsold
      · exact hstuck.2
    · right
      have hcut : CutAt start w.supply := by
        rcases hw.next with hcut | hstuck
        · exact hcut
        · -- a walk that is stuck takes no chunk
          have hnone : w.remainingSats * priceUnitTokens / price = 0 :=
            Int.ediv_eq_zero_of_lt hbudget (by rw [hpeq]; exact hstuck.1)
          omega
      have hcharge := stairCharge_chunk w.supply chunk hstage hlow hnonneg (by omega)
      rw [← hpeq] at hcharge
      have hpaid := hcut (w.supply + chunk) (by omega)
      have hpaid₀ := hw.paid
      have hstages : ((stageAt w.supply : Int) + 1) * tokensPerStage ≤ publicSupplyTokens := by
        unfold tokensPerStage publicSupplyTokens stageCount at *
        omega
      refine ⟨_, by rw [hturn, if_neg hzero], ⟨?_, ?_, ?_, ?_, ?_, ?_⟩, ?_⟩
      · dsimp only
        omega
      · dsimp only
        omega
      · dsimp only
        omega
      · dsimp only
        omega
      · dsimp only
        omega
      · dsimp only
        by_cases hfull : ((stageAt w.supply : Int) + 1) * tokensPerStage = w.supply + chunk
        · left
          intro stop hstop
          rw [← hfull] at hstop ⊢
          exact stairCharge_add_edge (stageAt w.supply) (by omega) hstop
        · right
          have heq : chunk = w.remainingSats * priceUnitTokens / price := by omega
          rw [← heq] at hnext
          have hsame : stageAt (w.supply + chunk) = stageAt w.supply :=
            stageAt_eq (by omega) (by omega) (by omega)
          have hround := (ceilDiv_le_iff (mul_nonneg hnonneg hprice.le)
            (by decide : 0 < priceUnitTokens)).mp (le_refl _)
          refine ⟨?_, hcut.soldOut h0 hcap hw.paid hnonneg (by omega) (by rw [← hpeq]; exact hnext)⟩
          rw [hsame, ← hpeq, sub_mul]
          rw [add_mul, one_mul] at hnext
          omega
      · dsimp only
        omega
  · left
    refine ⟨w, by rw [satsTurn, if_pos hgo], hw, ?_⟩
    by_cases hcap : w.supply < publicSupplyTokens
    · rcases hw.next with hcut | hstuck
      · have hspent : w.remainingSats = 0 := by
          have hsats := hw.sats_nonneg
          omega
        obtain ⟨hstage, hlow, hhigh⟩ := stageAt_bounds h0 hcap
        have hsold := hcut.soldOut h0 hcap hw.paid (le_refl 0) (by omega)
          (by rw [hspent, stagePrice_eq hstage]; omega)
        rwa [add_zero] at hsold
      · exact hstuck.2
    · intro stop _ _
      omega

/-- The loop of `quoteExactSats` ends with all the sats can buy. -/
theorem satsWalk_total {start available : Int} (h0 : 0 ≤ start) (hcap : start < publicSupplyTokens)
    (havailable : 0 < available) (stage : Nat) {fuel : Nat}
    (hfuel : (publicSupplyTokens - start).toNat < fuel) :
    ∃ w, run satsTurn fuel ⟨stage, start, available, 0⟩ = some (.ok w) ∧
      SatsInv start available w ∧ SoldOutFor start available w.supply := by
  have hinit : SatsInv start available ⟨stage, start, available, 0⟩ := by
    refine ⟨le_refl 0, (add_zero start).symm, hcap.le, havailable.le, ?_, .inl ?_⟩
    · simp [stairCharge]
    · intro stop _
      simp [stairCharge]
  exact run_total (SatsInv start available)
    (fun w => SatsInv start available w ∧ SoldOutFor start available w.supply)
    (fun w => (publicSupplyTokens - w.supply).toNat) (fun w hw => satsTurn_step h0 hw) hinit hfuel

theorem quoteExactSats_fuel {fuel more : Nat} {available supply : Int} {r : Except Fault QuoteResult}
    (hle : fuel ≤ more) (h : quoteExactSats fuel available supply = some r) :
    quoteExactSats more available supply = some r := by
  unfold quoteExactSats at h ⊢
  cases hstart : exactSatsStart available supply with
  | error e => simpa only [hstart] using h
  | ok stage =>
    simp only [hstart, Option.map_eq_some_iff] at h ⊢
    obtain ⟨walked, hrun, hr⟩ := h
    exact ⟨walked, run_fuel hle hrun, hr⟩

theorem quoteExactSats_eq {supply available : Int} (h0 : 0 ≤ supply)
    (hcap : supply < publicSupplyTokens) (havailable : 0 < available) {fuel : Nat}
    (hfuel : (publicSupplyTokens - supply).toNat < fuel) :
    ∃ q, quoteExactSats fuel available supply = some (.ok q) ∧ 0 ≤ q.tokens ∧
      supply + q.tokens ≤ publicSupplyTokens ∧
      q.curveContributionSats = stairCharge supply (supply + q.tokens) ∧
      q.curveContributionSats ≤ available ∧ SoldOutFor supply available (supply + q.tokens) := by
  obtain ⟨w, hrun, hw, hsold⟩ := satsWalk_total h0 hcap havailable (stageAt supply + 1) hfuel
  have hstart : exactSatsStart available supply = .ok (stageAt supply + 1) := by
    simp only [exactSatsStart, bind_eq_ok, ensure_eq_ok]
    exact ⟨(), havailable, (), assertSupply_eq h0 hcap, getStageForSupply_eq h0 hcap⟩
  have hsupply := hw.supply
  have hpaid := hw.paid
  have hsats := hw.sats_nonneg
  have hle := hw.supply_le
  rw [hsupply] at hpaid hsold hle
  refine ⟨⟨w.totalTokens, available - w.remainingSats, stageAt supply + 1, w.endingStage, supply,
    w.supply⟩, ?_, hw.tokens_nonneg, hle, hpaid.symm, ?_, hsold⟩
  · rw [quoteExactSats, hstart]
    simp only [hrun, Option.map_some]
    rfl
  · dsimp only
    omega

/-- The cost at which the exact-tokens quote of an amount ends. -/
def TokensCost (supply amount cost : Int) : Prop :=
  ∃ fuel q, quoteExactTokens fuel amount supply = some (.ok q) ∧ q.curveContributionSats = cost

theorem tokensCost_iff {supply amount cost : Int} (h0 : 0 ≤ supply) (hpos : 0 < amount)
    (hcap : supply + amount ≤ publicSupplyTokens) :
    TokensCost supply amount cost ↔ cost = stairCharge supply (supply + amount) := by
  obtain ⟨q, hq, hcost, -⟩ := quoteExactTokens_eq h0 hpos hcap (Nat.lt_succ_self _)
  constructor
  · intro h
    obtain ⟨fuel, q', hq', hcost'⟩ := h
    have hmore := quoteExactTokens_fuel (Nat.le_add_right (amount.toNat + 1) fuel) hq
    have hmore' := quoteExactTokens_fuel (Nat.le_add_left fuel (amount.toNat + 1)) hq'
    have heq : q' = q := Except.ok.inj (Option.some.inj (hmore'.symm.trans hmore))
    rw [← hcost', heq, hcost]
  · intro h
    exact ⟨_, q, hq, by rw [hcost, h]⟩

/-- The amounts within the remaining supply that the exact-tokens quote prices within the sats,
beside none at all. -/
def Affordable (supply available : Int) : Set Int :=
  {t | 0 ≤ t ∧ t ≤ publicSupplyTokens - supply ∧
    (t = 0 ∨ ∃ cost, TokensCost supply t cost ∧ cost ≤ available)}

/-- The exact-sats quote ends with the most tokens the sats buy, at the price the exact-tokens quote
has for them. -/
theorem quoteExactSats_greatest {supply available : Int} (h0 : 0 ≤ supply)
    (hcap : supply < publicSupplyTokens) (havailable : 0 < available) :
    ∃ q, (∀ fuel, (publicSupplyTokens - supply).toNat < fuel →
        quoteExactSats fuel available supply = some (.ok q)) ∧
      IsGreatest (Affordable supply available) q.tokens ∧
      (0 < q.tokens → TokensCost supply q.tokens q.curveContributionSats) := by
  obtain ⟨q, hq, htokens, hle, hpaid, hwithin, hsold⟩ :=
    quoteExactSats_eq h0 hcap havailable (Nat.lt_succ_self _)
  have hcost : 0 < q.tokens → TokensCost supply q.tokens q.curveContributionSats :=
    fun hpos => (tokensCost_iff h0 hpos hle).mpr hpaid
  refine ⟨q, fun fuel hfuel => quoteExactSats_fuel hfuel hq, ⟨⟨htokens, by omega, ?_⟩, ?_⟩, hcost⟩
  · by_cases hzero : q.tokens = 0
    · exact .inl hzero
    · exact .inr ⟨_, hcost (by omega), hwithin⟩
  · intro t ht
    obtain ⟨ht0, htcap, ht⟩ := ht
    rcases ht with hzero | hbuys
    · omega
    · obtain ⟨cost, hcost', hle'⟩ := hbuys
      by_contra hmore
      have hdear := hsold (supply + t) (by omega) (by omega)
      rw [tokensCost_iff h0 (by omega) (by omega)] at hcost'
      omega

/-- Five sats do not buy a token on the last stair. -/
theorem quoteExactSats_greatest_last_stair :
    ∃ q, (∀ fuel, (publicSupplyTokens - 20999000).toNat < fuel →
        quoteExactSats fuel 5 20999000 = some (.ok q)) ∧
      IsGreatest (Affordable 20999000 5) q.tokens ∧
      (0 < q.tokens → TokensCost 20999000 q.tokens q.curveContributionSats) :=
  quoteExactSats_greatest (by decide) (by decide) (by decide)

/-- A lot on the first stair. -/
example : (quoteExactSats 3 27 0).map Except.toOption =
    some (some ⟨1000, 27, 1, 1, 0, 1000⟩) := by decide +kernel

end ExactQuote

end Cove
