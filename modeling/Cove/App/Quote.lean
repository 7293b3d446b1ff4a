import Cove.App.Remote
import Cove.Economics.Spend
import Cove.Lib.Bisect

/-! The budget quote: `quoteBuyForSats` of `packages/cove-app/src/service.ts`, its two searches and
the smallest spend it hints at. -/

namespace Cove

open Checked Loop Bisect

/-- The per-mint limits the quote keeps to. -/
structure MintLimits where
  maxMintAtoms : Int
  maxGrossSats : Option Int
  minGrossSats : Int
  deriving DecidableEq, Repr

structure MintCost where
  gross : Int
  fee : Int
  creator : Int
  total : Int
  deriving DecidableEq, Repr

/-- Why a quote stopped where it did. -/
inductive LimitedBy
  | budget
  | perMintLimit
  | supply
  deriving DecidableEq, Repr

structure BuyQuote where
  amountAtoms : Int
  grossSats : Int
  feeSats : Int
  creatorFeeSats : Int
  carrierSats : Int
  totalSats : Int
  limitedBy : LimitedBy
  minGrossSats : Int
  maxGrossSats : Option Int
  minSpendSats : Option Int
  deriving DecidableEq, Repr

/-- The curve price of so many tokens, with every fee and the token carrier. -/
def costOf (config : V3AppConfig) (supplyTokens n : Int) : Except Fault MintCost := do
  let gross ← grossBuy supplyTokens n
  let fee ← mintFeeSats gross (n * atomsPerToken) config.buyFeeBps config.buyFeeFlatSats
    coveFeeConfig.buyFeeLotSats
  let creator ← creatorFeeSats gross coveFeeConfig.creatorFeeBps
  return ⟨gross, fee, creator, gross + fee + creator + tokenCarrierSats⟩

section

variable (config : V3AppConfig) (limits : MintLimits) (supplyAtoms budgetSats : Int)

def remainingTokens : Int := (publicSupplyAtoms - supplyAtoms) / atomsPerToken

def MintLimits.perMintLots : Int := (limits.maxMintAtoms.tdiv atomsPerToken).tdiv lotTokens

def fitsBudget (lots : Int) : Except Fault Bool := do
  let c ← costOf config (supplyAtoms / atomsPerToken) (lots * lotTokens)
  return decide (c.total ≤ budgetSats ∧ ∀ m ∈ limits.maxGrossSats, c.gross ≤ m)

def meetsMinimum (lots : Int) : Except Fault Bool := do
  let c ← costOf config (supplyAtoms / atomsPerToken) (lots * lotTokens)
  return decide (limits.minGrossSats ≤ c.gross)

/-- The first search: the most lots that fit. -/
def mostLots (fuel : Nat) : Option (Except Fault Interval) :=
  run (lastTurn (fitsBudget config limits supplyAtoms budgetSats)) fuel
    ⟨0, min (remainingTokens supplyAtoms / lotTokens) limits.perMintLots⟩

/-- The second search: the fewest lots that meet the minimum, and what these cost. -/
def minSpend (fuel : Nat) : Option (Except Fault (Option Int)) :=
  if 0 < remainingTokens supplyAtoms / lotTokens then
    andThen (run (firstTurn (meetsMinimum config limits supplyAtoms)) fuel
      ⟨1, remainingTokens supplyAtoms / lotTokens⟩) fun w => some do
        let c ← costOf config (supplyAtoms / atomsPerToken) (w.lo * lotTokens)
        return if limits.minGrossSats ≤ c.gross then some c.total else none
  else some (.ok none)

/-- What one lot more would have cost, when any tokens remain. -/
def nextLotCost (lo : Int) : Except Fault (Option MintCost) :=
  if lo < remainingTokens supplyAtoms then
    some <$> costOf config (supplyAtoms / atomsPerToken) (lo + lotTokens)
  else .ok none

/-- The quote for the lots found. -/
def quoteOf (lo : Int) (minSpendSats : Option Int) : Except Fault BuyQuote := do
  let nothing : BuyQuote := ⟨0, 0, 0, 0, tokenCarrierSats, 0, .budget, limits.minGrossSats,
    limits.maxGrossSats, minSpendSats⟩
  if lo = 0 then return nothing
  let c ← costOf config (supplyAtoms / atomsPerToken) lo
  if c.gross < limits.minGrossSats then return nothing
  let next ← nextLotCost config supplyAtoms lo
  let limitedBy :=
    if lo = remainingTokens supplyAtoms then LimitedBy.supply
    else if lo = limits.perMintLots * lotTokens ∨ ∃ n ∈ next, n.total ≤ budgetSats then
      .perMintLimit
    else .budget
  return ⟨lo * atomsPerToken, c.gross, c.fee, c.creator, tokenCarrierSats, c.total, limitedBy,
    limits.minGrossSats, limits.maxGrossSats, minSpendSats⟩

def quoteAtSupply (fuel : Nat) : Option (Except Fault BuyQuote) :=
  andThen (mostLots config limits supplyAtoms budgetSats fuel) fun w =>
    andThen (minSpend config limits supplyAtoms fuel) fun minSpendSats =>
      some (quoteOf config limits supplyAtoms budgetSats (w.lo * lotTokens) minSpendSats)

end

/-- None when the fuel of the searches ends first. -/
def V3AppService.quoteBuyForSats (C : Crypto) (app : V3AppService) (limits : MintLimits)
    (fuel : Nat) (tokenId : Bytes) (budgetSats : Int) : Option (Except Fault BuyQuote) :=
  match app.loadBacking C tokenId with
  | .error e => some (.error e)
  | .ok backing =>
    quoteAtSupply app.config limits backing.state.issuedPublicSupplyAtoms budgetSats fuel

/-- What the configuration loaders promise of the mint fee. -/
structure V3AppConfig.FeesSound (config : V3AppConfig) : Prop where
  bps : 0 ≤ config.buyFeeBps
  flat : 0 ≤ config.buyFeeFlatSats

section

variable {config : V3AppConfig} {limits : MintLimits} {supplyAtoms budgetSats : Int}

theorem tdiv_nonpos {a b : Int} (ha : a ≤ 0) (hb : 0 ≤ b) : a.tdiv b ≤ 0 := by
  have h := Int.tdiv_nonneg (by omega : 0 ≤ -a) hb
  rw [Int.neg_tdiv] at h
  omega

theorem lots_le_perMintLots {n : Int} (hn : 0 < n) :
    n ≤ limits.perMintLots ↔ n * lotAtoms ≤ limits.maxMintAtoms := by
  rw [MintLimits.perMintLots, atomsPerToken_eq, lotAtoms_eq, lotTokens]
  by_cases h : 0 ≤ limits.maxMintAtoms
  · rw [Int.tdiv_eq_ediv_of_nonneg h, Int.tdiv_eq_ediv_of_nonneg (by omega)]
    omega
  · have hneg : (limits.maxMintAtoms.tdiv 100000000).tdiv 1000 ≤ 0 := by
      have hinner : limits.maxMintAtoms.tdiv 100000000 ≤ 0 := tdiv_nonpos (by omega) (by decide)
      exact tdiv_nonpos hinner (by decide)
    omega

theorem lots_le_remaining {n : Int} :
    n ≤ remainingTokens supplyAtoms / lotTokens ↔
      supplyAtoms + n * lotAtoms ≤ publicSupplyAtoms := by
  rw [remainingTokens, atomsPerToken_eq, lotAtoms_eq, lotTokens]
  omega

/-- Lots that remain in atoms remain in tokens. -/
theorem lots_in_tokens (h0 : 0 ≤ supplyAtoms) {n : Int}
    (hcap : supplyAtoms + n * lotAtoms ≤ publicSupplyAtoms) :
    0 ≤ supplyAtoms / atomsPerToken ∧
      supplyAtoms / atomsPerToken + n * lotTokens ≤ publicSupplyTokens := by
  rw [lotAtoms_eq, publicSupplyAtoms_eq] at hcap
  rw [atomsPerToken_eq, publicSupplyTokens, lotTokens]
  omega

theorem tokens_in_lots (n : Int) : n * lotTokens * atomsPerToken / lotAtoms = n := by
  rw [atomsPerToken_eq, lotAtoms_eq, lotTokens]
  omega

theorem tokens_to_atoms (n : Int) : n * lotTokens * atomsPerToken = n * lotAtoms := by
  rw [lotAtoms, mul_assoc]

/-- Where whole lots are issued, what remains is whole lots too. -/
theorem next_lot_remains (hlots : supplyAtoms % lotAtoms = 0) {n : Int}
    (hmore : n * lotTokens < remainingTokens supplyAtoms) :
    supplyAtoms + (n + 1) * lotAtoms ≤ publicSupplyAtoms := by
  rw [remainingTokens, atomsPerToken_eq, publicSupplyAtoms_eq, lotTokens] at hmore
  rw [lotAtoms_eq] at hlots ⊢
  rw [publicSupplyAtoms_eq]
  omega

/-- Lots within the remaining supply have a cost, whatever the supply. -/
theorem costOf_lots (hfees : config.FeesSound) (h0 : 0 ≤ supplyAtoms) {n : Int} (hn : 0 < n)
    (hcap : supplyAtoms + n * lotAtoms ≤ publicSupplyAtoms) :
    ∃ c, costOf config (supplyAtoms / atomsPerToken) (n * lotTokens) = .ok c := by
  obtain ⟨hs, hn'⟩ := lots_in_tokens h0 hcap
  have hlots : lotTokens ≤ n * lotTokens := by
    unfold lotTokens
    omega
  have hgross := grossBuy_eq hs hlots hn'
  have hgrows := reserve_lt hs (by omega :
    supplyAtoms / atomsPerToken + lotTokens ≤ supplyAtoms / atomsPerToken + n * lotTokens) hn'
  have hten : coveFeeConfig.buyFeeLotSats = 10 := by decide
  have hflat := hfees.flat
  simp only [costOf, bind_eq_ok, pure_eq_ok]
  have hpositive : 0 ≤ stairCharge 0 (supplyAtoms / atomsPerToken + n * lotTokens) -
      stairCharge 0 (supplyAtoms / atomsPerToken) := by omega
  have hflats : 0 ≤ config.buyFeeFlatSats + coveFeeConfig.buyFeeLotSats *
      (n * lotTokens * atomsPerToken / lotAtoms) := by
    rw [tokens_in_lots, hten]
    omega
  obtain ⟨fee, hfee⟩ := deterministicFee_ok hpositive hfees.bps hflats (le_refl 0)
  obtain ⟨creator, hcreator⟩ := deterministicFee_ok hpositive
    (by decide : 0 ≤ coveFeeConfig.creatorFeeBps) (le_refl 0) (by decide : 0 ≤ creatorMinSats)
  exact ⟨_, _, hgross, fee, hfee, creator, hcreator, rfl⟩

/-- More lots cost more, and so do the tokens alone. -/
theorem costOf_lt (h0 : 0 ≤ supplyAtoms) {m n : Int}
    (hm : 0 < m) (hmn : m < n) (hcap : supplyAtoms + n * lotAtoms ≤ publicSupplyAtoms)
    {c d : MintCost}
    (hc : costOf config (supplyAtoms / atomsPerToken) (m * lotTokens) = .ok c)
    (hd : costOf config (supplyAtoms / atomsPerToken) (n * lotTokens) = .ok d) :
    c.gross < d.gross ∧ c.total < d.total := by
  obtain ⟨hs, hn'⟩ := lots_in_tokens h0 hcap
  have hlot : 0 < lotTokens := by decide
  have hlots : lotTokens ≤ m * lotTokens ∧ m * lotTokens + lotTokens ≤ n * lotTokens := by
    unfold lotTokens
    omega
  have hgross := grossBuy_eq hs hlots.1 (by omega)
  have hgross' := grossBuy_eq hs (by unfold lotTokens at *; omega : lotTokens ≤ n * lotTokens) hn'
  have hgrows := reserve_lt (by unfold lotTokens at *; omega :
    0 ≤ supplyAtoms / atomsPerToken + m * lotTokens) (by omega) hn'
  simp only [costOf, bind_eq_ok, pure_eq_ok, hgross] at hc
  simp only [costOf, bind_eq_ok, pure_eq_ok, hgross'] at hd
  obtain ⟨g, hg, fee, hfee, creator, hcreator, hc⟩ := hc
  obtain ⟨g', hg', fee', hfee', creator', hcreator', hd⟩ := hd
  have hg := Except.ok.inj hg
  have hg' := Except.ok.inj hg'
  have hten : coveFeeConfig.buyFeeLotSats = 10 := by decide
  have hfees := deterministicFee_mono hfee hfee' (by omega)
    (by rw [tokens_in_lots, tokens_in_lots, hten]; omega)
  have hcreators := deterministicFee_mono hcreator hcreator' (by omega) (le_refl 0)
  rw [← hc, ← hd]
  dsimp only
  omega

theorem costOf_gross {n : Int} {c : MintCost}
    (h : costOf config (supplyAtoms / atomsPerToken) n = .ok c) :
    grossBuy (supplyAtoms / atomsPerToken) n = .ok c.gross := by
  simp only [costOf, bind_eq_ok, pure_eq_ok] at h
  obtain ⟨gross, hgross, fee, -, creator, -, hc⟩ := h
  rw [← hc]
  exact hgross

/-! What the searches look for. -/

variable (config limits supplyAtoms budgetSats) in
/-- Lots that cost no more than the budget, with a gross within its maximum. -/
def FitsBudget (n : Int) : Prop :=
  ∃ c, costOf config (supplyAtoms / atomsPerToken) (n * lotTokens) = .ok c ∧
    c.total ≤ budgetSats ∧ ∀ m ∈ limits.maxGrossSats, c.gross ≤ m

variable (limits supplyAtoms) in
/-- Lots whose curve price meets the minimum. -/
def MeetsMinimum (n : Int) : Prop :=
  ∃ gross, grossBuy (supplyAtoms / atomsPerToken) (n * lotTokens) = .ok gross ∧
    limits.minGrossSats ≤ gross

variable (config limits supplyAtoms budgetSats) in
/-- The numbers of lots a budget may buy: none, or what remains of the curve, is within the per-mint
cap and fits. -/
def Buyable : Set Int :=
  {n | n = 0 ∨ 0 < n ∧ supplyAtoms + n * lotAtoms ≤ publicSupplyAtoms ∧
    n * lotAtoms ≤ limits.maxMintAtoms ∧ FitsBudget config limits supplyAtoms budgetSats n}

variable (limits supplyAtoms) in
/-- The numbers of lots that remain and meet the minimum. -/
def MeetingMinimum : Set Int :=
  {n | 0 < n ∧ supplyAtoms + n * lotAtoms ≤ publicSupplyAtoms ∧ MeetsMinimum limits supplyAtoms n}

theorem remainingLots_lt (h0 : 0 ≤ supplyAtoms) :
    remainingTokens supplyAtoms / lotTokens ≤ 21000 := by
  rw [remainingTokens, atomsPerToken_eq, publicSupplyAtoms_eq, lotTokens]
  omega

/-- Where more lots fit, fewer do. -/
theorem FitsBudget.mono (hfees : config.FeesSound) (h0 : 0 ≤ supplyAtoms) {m n : Int} (hm : 0 < m)
    (hmn : m ≤ n) (hcap : supplyAtoms + n * lotAtoms ≤ publicSupplyAtoms)
    (h : FitsBudget config limits supplyAtoms budgetSats n) :
    FitsBudget config limits supplyAtoms budgetSats m := by
  obtain ⟨d, hd, htotal, hgross⟩ := h
  by_cases heq : m = n
  · rw [heq]
    exact ⟨d, hd, htotal, hgross⟩
  · have hn := lots_le_remaining.mpr hcap
    obtain ⟨c, hc⟩ := costOf_lots hfees h0 hm (lots_le_remaining.mp (by omega))
    have hless := costOf_lt h0 hm (by omega : m < n) hcap hc hd
    refine ⟨c, hc, by omega, ?_⟩
    intro g hg
    have hmax := hgross g hg
    omega

variable (limits) in
theorem meetsMinimum_iff {n : Int} {c : MintCost}
    (hc : costOf config (supplyAtoms / atomsPerToken) (n * lotTokens) = .ok c) :
    MeetsMinimum limits supplyAtoms n ↔ limits.minGrossSats ≤ c.gross := by
  rw [MeetsMinimum, costOf_gross hc]
  simp

theorem fitsBudget_iff {n : Int} {c : MintCost}
    (hc : costOf config (supplyAtoms / atomsPerToken) (n * lotTokens) = .ok c) :
    FitsBudget config limits supplyAtoms budgetSats n ↔
      c.total ≤ budgetSats ∧ ∀ m ∈ limits.maxGrossSats, c.gross ≤ m := by
  rw [FitsBudget, hc]
  simp

/-- Where fewer lots meet the minimum, more do. -/
theorem MeetsMinimum.mono (hfees : config.FeesSound) (h0 : 0 ≤ supplyAtoms) {m n : Int} (hm : 0 < m)
    (hmn : m ≤ n) (hcap : supplyAtoms + n * lotAtoms ≤ publicSupplyAtoms)
    (h : MeetsMinimum limits supplyAtoms m) : MeetsMinimum limits supplyAtoms n := by
  by_cases heq : m = n
  · rw [← heq]
    exact h
  · have hn := lots_le_remaining.mpr hcap
    obtain ⟨c, hc⟩ := costOf_lots hfees h0 hm (lots_le_remaining.mp (by omega))
    obtain ⟨d, hd⟩ := costOf_lots hfees h0 (by omega : 0 < n) hcap
    have hless := costOf_lt h0 hm (by omega : m < n) hcap hc hd
    rw [meetsMinimum_iff limits hc] at h
    rw [meetsMinimum_iff limits hd]
    omega

variable (limits budgetSats) in
/-- The first search ends, without a fault, with the most lots that may be bought. -/
theorem mostLots_total (hfees : config.FeesSound) (h0 : 0 ≤ supplyAtoms) :
    ∃ w, (∀ fuel, 21000 < fuel →
        mostLots config limits supplyAtoms budgetSats fuel = some (.ok w)) ∧
      IsGreatest (Buyable config limits supplyAtoms budgetSats) w.lo := by
  classical
  have hbound := remainingLots_lt h0
  have hrange (m : Int) (hpos : 0 < m) :
      m ≤ min (remainingTokens supplyAtoms / lotTokens) limits.perMintLots ↔
        supplyAtoms + m * lotAtoms ≤ publicSupplyAtoms ∧ m * lotAtoms ≤ limits.maxMintAtoms := by
    rw [le_min_iff, lots_le_remaining, lots_le_perMintLots hpos]
  have htest : ∀ m, 0 < m → m ≤ min (remainingTokens supplyAtoms / lotTokens) limits.perMintLots →
      fitsBudget config limits supplyAtoms budgetSats m =
        .ok (decide (FitsBudget config limits supplyAtoms budgetSats m)) := by
    intro m hpos hm
    obtain ⟨c, hc⟩ := costOf_lots hfees h0 hpos ((hrange m hpos).mp hm).1
    simp [fitsBudget, hc, fitsBudget_iff hc]
  have hmono : ∀ m n, 0 < m → m ≤ n →
      n ≤ min (remainingTokens supplyAtoms / lotTokens) limits.perMintLots →
      FitsBudget config limits supplyAtoms budgetSats n →
      FitsBudget config limits supplyAtoms budgetSats m := by
    intro m n hpos hmn hn h
    exact h.mono hfees h0 hpos hmn ((hrange n (by omega)).mp hn).1
  obtain ⟨w, hw, hgreatest⟩ := last_total htest hmono (by omega :
    (min (remainingTokens supplyAtoms / lotTokens) limits.perMintLots - 0).toNat < 21001)
  refine ⟨w, fun fuel hfuel => run_fuel hfuel hw, ?_⟩
  have hset : Buyable config limits supplyAtoms budgetSats = {m | m = 0 ∨ 0 < m ∧
      m ≤ min (remainingTokens supplyAtoms / lotTokens) limits.perMintLots ∧
      FitsBudget config limits supplyAtoms budgetSats m} := by
    apply Set.ext
    intro m
    constructor
    · intro h
      rcases h with h | ⟨hpos, hremain, hmint, hfits⟩
      · exact Or.inl h
      · exact Or.inr ⟨hpos, (hrange m hpos).mpr ⟨hremain, hmint⟩, hfits⟩
    · intro h
      rcases h with h | ⟨hpos, hm, hfits⟩
      · exact Or.inl h
      · obtain ⟨hremain, hmint⟩ := (hrange m hpos).mp hm
        exact Or.inr ⟨hpos, hremain, hmint, hfits⟩
  rw [hset]
  exact hgreatest

variable (limits) in
/-- The second search ends, without a fault, with the cost of the fewest lots that meet the minimum,
if any do. -/
theorem minSpend_total (hfees : config.FeesSound) (h0 : 0 ≤ supplyAtoms) :
    ∃ r, (∀ fuel, 21000 < fuel → minSpend config limits supplyAtoms fuel = some (.ok r)) ∧
      (MeetingMinimum limits supplyAtoms = ∅ ∧ r = none ∨
        ∃ k c, IsLeast (MeetingMinimum limits supplyAtoms) k ∧
          costOf config (supplyAtoms / atomsPerToken) (k * lotTokens) = .ok c ∧
          r = some c.total) := by
  classical
  have hbound := remainingLots_lt h0
  by_cases hany : 0 < remainingTokens supplyAtoms / lotTokens
  · have htest : ∀ m, 1 ≤ m → m < remainingTokens supplyAtoms / lotTokens →
        meetsMinimum config limits supplyAtoms m =
          .ok (decide (MeetsMinimum limits supplyAtoms m)) := by
      intro m hpos hm
      obtain ⟨c, hc⟩ := costOf_lots hfees h0 hpos (lots_le_remaining.mp hm.le)
      simp [meetsMinimum, hc, meetsMinimum_iff limits hc]
    have hmono : ∀ m n, 1 ≤ m → m ≤ n → n ≤ remainingTokens supplyAtoms / lotTokens →
        MeetsMinimum limits supplyAtoms m → MeetsMinimum limits supplyAtoms n := by
      intro m n hpos hmn hn h
      exact h.mono hfees h0 hpos hmn (lots_le_remaining.mp hn)
    obtain ⟨w, hw, hmem, hlower⟩ := first_total (by omega : (1 : Int) ≤ _) htest
      (fun m n hm hmn hn => hmono m n hm hmn hn.le)
      (by omega : (remainingTokens supplyAtoms / lotTokens - 1).toNat < 21001)
    have hpos : 1 ≤ w.lo := by
      rcases hmem with htop | ⟨hlow, -, -⟩
      · omega
      · exact hlow
    have hle : w.lo ≤ remainingTokens supplyAtoms / lotTokens := by
      rcases hmem with htop | ⟨-, hhigh, -⟩
      · omega
      · omega
    obtain ⟨c, hc⟩ := costOf_lots hfees h0 hpos (lots_le_remaining.mp hle)
    have hrun : ∀ fuel, 21000 < fuel → minSpend config limits supplyAtoms fuel =
        some (.ok (if limits.minGrossSats ≤ c.gross then some c.total else none)) := by
      intro fuel hfuel
      simp [minSpend, hany, run_fuel hfuel hw, hc]
    refine ⟨_, hrun, ?_⟩
    by_cases hmeets : limits.minGrossSats ≤ c.gross
    · right
      have henough := (meetsMinimum_iff limits hc).mpr hmeets
      refine ⟨w.lo, c, ⟨⟨hpos, lots_le_remaining.mp hle, henough⟩, ?_⟩, hc, if_pos hmeets⟩
      intro k hk
      obtain ⟨hkpos, hkcap, hkmeets⟩ := hk
      have hkle := lots_le_remaining.mpr hkcap
      apply hlower
      by_cases hktop : k = remainingTokens supplyAtoms / lotTokens
      · exact Or.inl hktop
      · exact Or.inr ⟨hkpos, by omega, hkmeets⟩
    · left
      refine ⟨?_, if_neg hmeets⟩
      -- the search ended at the top without a pass, so nothing below it passes either
      apply Set.eq_empty_iff_forall_notMem.mpr
      intro k hk
      obtain ⟨hkpos, hkcap, hkmeets⟩ := hk
      have hkle := lots_le_remaining.mpr hkcap
      have htop : w.lo = remainingTokens supplyAtoms / lotTokens := by
        rcases hmem with htop | ⟨-, -, hlo⟩
        · exact htop
        · exact absurd ((meetsMinimum_iff limits hc).mp hlo) hmeets
      apply hmeets
      rw [← meetsMinimum_iff limits hc]
      exact hmono k w.lo hkpos (by omega) hle hkmeets
  · refine ⟨none, fun fuel _ => by simp [minSpend, hany], Or.inl ⟨?_, rfl⟩⟩
    apply Set.eq_empty_iff_forall_notMem.mpr
    intro k hk
    have hkle := lots_le_remaining.mpr hk.2.1
    have hkpos := hk.1
    omega

variable (config limits supplyAtoms) in
/-- The quote is for so many lots, or for nothing when there are none or their price is below the
minimum. -/
structure QuotesLots (n : Int) (q : BuyQuote) : Prop where
  none_fits : n = 0 → q.amountAtoms = 0
  too_small : 0 < n → ¬ MeetsMinimum limits supplyAtoms n → q.amountAtoms = 0
  lots : 0 < n → MeetsMinimum limits supplyAtoms n → q.amountAtoms = n * lotAtoms ∧
    costOf config (supplyAtoms / atomsPerToken) (n * lotTokens) =
      .ok ⟨q.grossSats, q.feeSats, q.creatorFeeSats, q.totalSats⟩

theorem QuotesLots.pos_iff {n : Int} {q : BuyQuote}
    (h : QuotesLots config limits supplyAtoms n q) (hn : 0 ≤ n) :
    0 < q.amountAtoms ↔ 0 < n ∧ MeetsMinimum limits supplyAtoms n := by
  have hlot : 0 < lotAtoms := by norm_num [lotAtoms, lotTokens, atomsPerToken]
  by_cases hzero : n = 0
  · have hnone := h.none_fits hzero
    omega
  · have hpos : 0 < n := by omega
    by_cases hmeets : MeetsMinimum limits supplyAtoms n
    · have hamount := (h.lots hpos hmeets).1
      have hprod : 0 < n * lotAtoms := mul_pos hpos hlot
      rw [hamount]
      exact ⟨fun _ => ⟨hpos, hmeets⟩, fun _ => hprod⟩
    · have hnone := h.too_small hpos hmeets
      rw [hnone]
      simp [hmeets]

variable (limits budgetSats) in
/-- From whole lots the next lot either remains or was the last. -/
theorem quoteOf_lots (hfees : config.FeesSound) (h0 : 0 ≤ supplyAtoms)
    (hlots : supplyAtoms % lotAtoms = 0) {n : Int}
    (hn : n = 0 ∨ 0 < n ∧ supplyAtoms + n * lotAtoms ≤ publicSupplyAtoms) (hint : Option Int) :
    ∃ q, quoteOf config limits supplyAtoms budgetSats (n * lotTokens) hint = .ok q ∧
      q.minSpendSats = hint ∧ QuotesLots config limits supplyAtoms n q := by
  by_cases hzero : n = 0
  · have hq : quoteOf config limits supplyAtoms budgetSats (n * lotTokens) hint =
        .ok ⟨0, 0, 0, 0, tokenCarrierSats, 0, .budget, limits.minGrossSats, limits.maxGrossSats,
          hint⟩ := by
      simp [quoteOf, hzero]
    exact ⟨_, hq, rfl, fun _ => rfl, fun h => absurd h (by omega), fun h => absurd h (by omega)⟩
  · obtain ⟨hpos, hcap⟩ := hn.resolve_left hzero
    obtain ⟨c, hc⟩ := costOf_lots hfees h0 hpos hcap
    have hne : n * lotTokens ≠ 0 := by
      unfold lotTokens
      omega
    by_cases hmeets : MeetsMinimum limits supplyAtoms n
    · have hlarge := (meetsMinimum_iff limits hc).mp hmeets
      obtain ⟨next, hnext⟩ : ∃ next, nextLotCost config supplyAtoms (n * lotTokens) = .ok next := by
        by_cases hmore : n * lotTokens < remainingTokens supplyAtoms
        · obtain ⟨d, hd⟩ := costOf_lots hfees h0 (by omega : 0 < n + 1)
            (next_lot_remains hlots hmore)
          have hsucc : n * lotTokens + lotTokens = (n + 1) * lotTokens := by
            unfold lotTokens
            omega
          exact ⟨some d, by simp [nextLotCost, hmore, hsucc, hd]⟩
        · exact ⟨none, by simp [nextLotCost, hmore]⟩
      have hq : quoteOf config limits supplyAtoms budgetSats (n * lotTokens) hint =
          .ok ⟨n * lotTokens * atomsPerToken, c.gross, c.fee, c.creator, tokenCarrierSats, c.total,
            if n * lotTokens = remainingTokens supplyAtoms then LimitedBy.supply
            else if n * lotTokens = limits.perMintLots * lotTokens ∨
              ∃ d ∈ next, d.total ≤ budgetSats then .perMintLimit
            else .budget, limits.minGrossSats, limits.maxGrossSats, hint⟩ := by
        simp only [quoteOf, if_neg hne, hc, bind_eq_ok, Except.ok.injEq, exists_eq_left',
          if_neg (not_lt.mpr hlarge)]
        exact ⟨next, hnext, rfl⟩
      exact ⟨_, hq, rfl, fun h => absurd h hzero, fun _ h => absurd hmeets h,
        fun _ _ => ⟨tokens_to_atoms n, hc⟩⟩
    · have hsmall : c.gross < limits.minGrossSats := by
        rw [meetsMinimum_iff limits hc] at hmeets
        omega
      have hq : quoteOf config limits supplyAtoms budgetSats (n * lotTokens) hint =
          .ok ⟨0, 0, 0, 0, tokenCarrierSats, 0, .budget, limits.minGrossSats, limits.maxGrossSats,
            hint⟩ := by
        simp [quoteOf, hne, hc, hsmall]
      exact ⟨_, hq, rfl, fun _ => rfl, fun _ _ => rfl, fun _ h => absurd h hmeets⟩

variable (limits budgetSats) in
/-- What the quote of a supply in whole lots is: the most lots that may be bought, and the cost of
the fewest that meet the minimum. -/
theorem quoteAtSupply_total (hfees : config.FeesSound) (h0 : 0 ≤ supplyAtoms)
    (hlots : supplyAtoms % lotAtoms = 0) :
    ∃ q n, (∀ fuel, 21000 < fuel →
        quoteAtSupply config limits supplyAtoms budgetSats fuel = some (.ok q)) ∧
      IsGreatest (Buyable config limits supplyAtoms budgetSats) n ∧
      QuotesLots config limits supplyAtoms n q ∧
      (MeetingMinimum limits supplyAtoms = ∅ ∧ q.minSpendSats = none ∨
        ∃ k c, IsLeast (MeetingMinimum limits supplyAtoms) k ∧
          costOf config (supplyAtoms / atomsPerToken) (k * lotTokens) = .ok c ∧
          q.minSpendSats = some c.total) := by
  obtain ⟨w, hw, hgreatest⟩ := mostLots_total limits budgetSats hfees h0
  obtain ⟨hint, hr, hspec⟩ := minSpend_total limits hfees h0
  have hrange : w.lo = 0 ∨ 0 < w.lo ∧ supplyAtoms + w.lo * lotAtoms ≤ publicSupplyAtoms := by
    rcases hgreatest.1 with hzero | ⟨hpos, hcap, -⟩
    · exact Or.inl hzero
    · exact Or.inr ⟨hpos, hcap⟩
  obtain ⟨q, hq, hqint, hquotes⟩ := quoteOf_lots limits budgetSats hfees h0 hlots hrange hint
  refine ⟨q, w.lo, ?_, hgreatest, hquotes, ?_⟩
  · intro fuel hfuel
    simp [quoteAtSupply, hw fuel hfuel, hr fuel hfuel, hq]
  · rw [hqint]
    exact hspec

theorem Buyable.nonneg {n : Int} (h : n ∈ Buyable config limits supplyAtoms budgetSats) :
    0 ≤ n := by
  rcases h with hzero | ⟨hpos, -⟩
  · omega
  · omega

/-- A quote offers something exactly when the fewest lots that meet the minimum may be bought. -/
theorem quote_positive_iff (hfees : config.FeesSound) (h0 : 0 ≤ supplyAtoms) {q : BuyQuote}
    {n k : Int} (hn : IsGreatest (Buyable config limits supplyAtoms budgetSats) n)
    (hq : QuotesLots config limits supplyAtoms n q)
    (hk : IsLeast (MeetingMinimum limits supplyAtoms) k) :
    0 < q.amountAtoms ↔ k ∈ Buyable config limits supplyAtoms budgetSats := by
  obtain ⟨⟨hkpos, hkcap, hkmeets⟩, hkleast⟩ := hk
  rw [hq.pos_iff (Buyable.nonneg hn.1)]
  constructor
  · intro h
    obtain ⟨hpos, hmeets⟩ := h
    obtain ⟨-, hcap, hmint, hfits⟩ := hn.1.resolve_left (by omega)
    have hkn : k ≤ n := hkleast ⟨hpos, hcap, hmeets⟩
    have hlot : 0 < lotAtoms := by norm_num [lotAtoms, lotTokens, atomsPerToken]
    have hatoms : k * lotAtoms ≤ n * lotAtoms := mul_le_mul_of_nonneg_right hkn hlot.le
    exact Or.inr ⟨hkpos, hkcap, by omega, hfits.mono hfees h0 hkpos hkn hcap⟩
  · intro hmem
    have hkn : k ≤ n := hn.2 hmem
    obtain ⟨-, hcap, -, -⟩ := hn.1.resolve_left (by omega)
    exact ⟨by omega, hkmeets.mono hfees h0 hkpos hkn hcap⟩

/-- Nothing is offered where no remaining lots meet the minimum. -/
theorem quote_nothing {q : BuyQuote} {n : Int}
    (hn : IsGreatest (Buyable config limits supplyAtoms budgetSats) n)
    (hq : QuotesLots config limits supplyAtoms n q)
    (hnone : MeetingMinimum limits supplyAtoms = ∅) : ¬ 0 < q.amountAtoms := by
  rw [hq.pos_iff (Buyable.nonneg hn.1)]
  intro h
  obtain ⟨hpos, hmeets⟩ := h
  obtain ⟨-, hcap, -, -⟩ := hn.1.resolve_left (by omega)
  have hmem : n ∈ MeetingMinimum limits supplyAtoms := ⟨hpos, hcap, hmeets⟩
  rw [hnone] at hmem
  exact hmem

end

section

variable {C : Crypto} {app : V3AppService} {tokenId : Bytes} {tip : AppBacking}

theorem quoteBuyForSats_eq (hload : app.loadBacking C tokenId = .ok tip) (limits : MintLimits)
    (fuel : Nat) (budgetSats : Int) : app.quoteBuyForSats C limits fuel tokenId budgetSats =
      quoteAtSupply app.config limits tip.state.issuedPublicSupplyAtoms budgetSats fuel := by
  rw [V3AppService.quoteBuyForSats, hload]

/-- The app's quote at a valid state, and its hint. -/
theorem quoteBuyForSats_total (hload : app.loadBacking C tokenId = .ok tip)
    (hsupply : 0 ≤ tip.state.issuedPublicSupplyAtoms)
    (hlots : tip.state.issuedPublicSupplyAtoms % lotAtoms = 0) (hfees : app.config.FeesSound)
    (limits : MintLimits) (budgetSats : Int) :
    ∃ q n, (∀ fuel, 21000 < fuel →
        app.quoteBuyForSats C limits fuel tokenId budgetSats = some (.ok q)) ∧
      IsGreatest (Buyable app.config limits tip.state.issuedPublicSupplyAtoms budgetSats) n ∧
      QuotesLots app.config limits tip.state.issuedPublicSupplyAtoms n q ∧
      (MeetingMinimum limits tip.state.issuedPublicSupplyAtoms = ∅ ∧ q.minSpendSats = none ∨
        ∃ k c, IsLeast (MeetingMinimum limits tip.state.issuedPublicSupplyAtoms) k ∧
          costOf app.config (tip.state.issuedPublicSupplyAtoms / atomsPerToken) (k * lotTokens) =
            .ok c ∧ q.minSpendSats = some c.total) := by
  obtain ⟨q, n, hq, hspec⟩ := quoteAtSupply_total limits budgetSats hfees hsupply hlots
  refine ⟨q, n, ?_, hspec⟩
  intro fuel hfuel
  rw [quoteBuyForSats_eq hload]
  exact hq fuel hfuel

/-- Enough fuel gives one quote. -/
theorem quote_unique {limits : MintLimits} {budgetSats : Int} {q q' : BuyQuote}
    (hq : ∀ fuel, 21000 < fuel →
      app.quoteBuyForSats C limits fuel tokenId budgetSats = some (.ok q))
    (hq' : ∀ fuel, 21000 < fuel →
      app.quoteBuyForSats C limits fuel tokenId budgetSats = some (.ok q')) : q = q' := by
  have hrun := hq 21001 (by decide)
  rw [hq' 21001 (by decide)] at hrun
  exact (Except.ok.inj (Option.some.inj hrun)).symm

/-- Both searches end without a fault at any supply, the first with the most lots that may be
bought; where whole lots are issued, as in every valid state, the quote is for these. -/
theorem quote_optimal (hload : app.loadBacking C tokenId = .ok tip)
    (hsupply : 0 ≤ tip.state.issuedPublicSupplyAtoms) (hfees : app.config.FeesSound)
    (limits : MintLimits) (budgetSats : Int) :
    ∃ n, IsGreatest (Buyable app.config limits tip.state.issuedPublicSupplyAtoms budgetSats) n ∧
      (∃ w, w.lo = n ∧ ∀ fuel, 21000 < fuel →
        mostLots app.config limits tip.state.issuedPublicSupplyAtoms budgetSats fuel =
          some (.ok w)) ∧
      (∃ hint, ∀ fuel, 21000 < fuel →
        minSpend app.config limits tip.state.issuedPublicSupplyAtoms fuel = some (.ok hint)) ∧
      (tip.state.issuedPublicSupplyAtoms % lotAtoms = 0 → ∃ q,
        (∀ fuel, 21000 < fuel →
          app.quoteBuyForSats C limits fuel tokenId budgetSats = some (.ok q)) ∧
        QuotesLots app.config limits tip.state.issuedPublicSupplyAtoms n q) := by
  obtain ⟨w, hw, hgreatest⟩ := mostLots_total limits budgetSats hfees hsupply
  obtain ⟨hint, hr, -⟩ := minSpend_total limits hfees hsupply
  refine ⟨w.lo, hgreatest, ⟨w, rfl, hw⟩, ⟨hint, hr⟩, ?_⟩
  intro hlots
  obtain ⟨q, n, hq, hn, hquotes, -⟩ :=
    quoteBuyForSats_total hload hsupply hlots hfees limits budgetSats
  have heq : n = w.lo := hn.unique hgreatest
  rw [← heq]
  exact ⟨q, hq, hquotes⟩

/-- The hint is exact for every budget exactly when the fewest lots that meet the minimum are within
the per-mint cap and cost no more than the maximum gross. -/
theorem min_spend_exact_iff (hload : app.loadBacking C tokenId = .ok tip)
    (hsupply : 0 ≤ tip.state.issuedPublicSupplyAtoms)
    (hlots : tip.state.issuedPublicSupplyAtoms % lotAtoms = 0) (hfees : app.config.FeesSound)
    (limits : MintLimits) :
    (∀ budgetSats, ∃ q, (∀ fuel, 21000 < fuel →
        app.quoteBuyForSats C limits fuel tokenId budgetSats = some (.ok q)) ∧
      (0 < q.amountAtoms ↔ ∃ m, q.minSpendSats = some m ∧ m ≤ budgetSats)) ↔
    ∀ k, IsLeast (MeetingMinimum limits tip.state.issuedPublicSupplyAtoms) k →
      k * lotAtoms ≤ limits.maxMintAtoms ∧
        ∃ gross, grossBuy (tip.state.issuedPublicSupplyAtoms / atomsPerToken) (k * lotTokens) =
          .ok gross ∧ ∀ m ∈ limits.maxGrossSats, gross ≤ m := by
  constructor
  · intro h k hk
    obtain ⟨hkpos, hkcap, -⟩ := hk.1
    obtain ⟨c, hc⟩ := costOf_lots hfees hsupply hkpos hkcap
    -- the budget the hint names
    obtain ⟨q, hq, hiff⟩ := h c.total
    obtain ⟨q', n, hq', hn, hquotes, hhint⟩ :=
      quoteBuyForSats_total hload hsupply hlots hfees limits c.total
    obtain rfl := quote_unique hq hq'
    have hpositive : 0 < q.amountAtoms := by
      rcases hhint with ⟨hnone, -⟩ | ⟨k', c', hk', hc', hmin⟩
      · have hmem := hk.1
        rw [hnone] at hmem
        exact hmem.elim
      · have heq := hk'.unique hk
        subst heq
        rw [hc] at hc'
        exact hiff.mpr ⟨c'.total, hmin, by rw [Except.ok.inj hc']⟩
    obtain ⟨-, -, hmint, hfits⟩ :=
      ((quote_positive_iff hfees hsupply hn hquotes hk).mp hpositive).resolve_left (by omega)
    exact ⟨hmint, c.gross, costOf_gross hc, ((fitsBudget_iff hc).mp hfits).2⟩
  · intro h budgetSats
    obtain ⟨q, n, hq, hn, hquotes, hhint⟩ :=
      quoteBuyForSats_total hload hsupply hlots hfees limits budgetSats
    refine ⟨q, hq, ?_⟩
    rcases hhint with ⟨hnone, hmin⟩ | ⟨k, c, hk, hc, hmin⟩
    · simp [quote_nothing hn hquotes hnone, hmin]
    · obtain ⟨hkpos, hkcap, -⟩ := hk.1
      obtain ⟨hmint, gross, hgross, hmax⟩ := h k hk
      have hg : c.gross = gross := by
        rw [costOf_gross hc] at hgross
        exact Except.ok.inj hgross
      rw [quote_positive_iff hfees hsupply hn hquotes hk, hmin]
      constructor
      · intro hmem
        obtain ⟨-, -, -, hfits⟩ := hmem.resolve_left (by omega)
        exact ⟨c.total, rfl, ((fitsBudget_iff hc).mp hfits).1⟩
      · intro hparts
        obtain ⟨m, hm, hle⟩ := hparts
        have hmem : FitsBudget app.config limits tip.state.issuedPublicSupplyAtoms budgetSats k :=
          (fitsBudget_iff hc).mpr ⟨by rw [Option.some.inj hm]; exact hle, by rw [hg]; exact hmax⟩
        exact Or.inr ⟨hkpos, hkcap, hmint, hmem⟩

end

/-! ALPHA with one lot left to mint. -/

def lastLotRow : BackingRow where
  stateHash := List.replicate 32 0xaa
  stateVersion := 2
  policyVersion := 3
  issuedSupplyAtoms := 20999 * lotAtoms
  backingSats := 59812830
  curveStage := 210
  txid := List.replicate 32 0x33
  vout := 1
  scriptPubKey := 0x51 :: 0x20 :: List.replicate 32 0xab
  btcValue := 59822830
  blockHeight := 9
  blockHash := List.replicate 32 0xb9

def lastLotApp : V3AppService :=
  sampleApp false { Db.empty with backingStates := Dict.set ∅ alphaId lastLotRow } ∅ fun _ => none

def lastLotTip : AppBacking where
  state := lastLotRow.toState alphaId
  outpoint := ⟨lastLotRow.txid, lastLotRow.vout⟩
  stateHash := lastLotRow.stateHash
  script := lastLotRow.scriptPubKey
  valueSats := lastLotRow.btcValue

theorem lastLotApp_loads : lastLotApp.loadBacking sampleCrypto alphaId = .ok lastLotTip := by
  simp [V3AppService.loadBacking, lastLotApp, sampleApp, loadConfirmedBacking, followPendingBacking,
    maxPendingBackingChain, findBroadcastSpendOfBacking, TxSessions, lastLotTip]

theorem lastLotApp_fees : lastLotApp.config.FeesSound := by
  constructor
  · decide
  · decide

/-- The last lot costs more than the maximum gross: nothing can be bought, whatever the budget, yet
the hint names a spend. -/
theorem last_lot_hint_misleads :
    lastLotApp.quoteBuyForSats sampleCrypto ⟨publicSupplyAtoms, some 5000, 1000⟩ 21001 alphaId
      100000 = some (.ok {
        amountAtoms := 0
        grossSats := 0
        feeSats := 0
        creatorFeeSats := 0
        carrierSats := 1000
        totalSats := 0
        limitedBy := .budget
        minGrossSats := 1000
        maxGrossSats := some 5000
        minSpendSats := some 14941 }) := by
  rw [quoteBuyForSats_eq lastLotApp_loads]
  decide +kernel

/-- Without a maximum a budget of 100000 sats is quoted for. -/
theorem quote_optimal_last_lot :
    ∃ q n, (∀ fuel, 21000 < fuel → lastLotApp.quoteBuyForSats sampleCrypto
        ⟨publicSupplyAtoms, none, 1000⟩ fuel alphaId 100000 = some (.ok q)) ∧
      IsGreatest (Buyable lastLotApp.config ⟨publicSupplyAtoms, none, 1000⟩ (20999 * lotAtoms)
        100000) n ∧
      QuotesLots lastLotApp.config ⟨publicSupplyAtoms, none, 1000⟩ (20999 * lotAtoms) n q := by
  obtain ⟨n, hn, -, -, hquote⟩ := quote_optimal lastLotApp_loads (by decide) lastLotApp_fees
    ⟨publicSupplyAtoms, none, 1000⟩ 100000
  obtain ⟨q, hq, hquotes⟩ := hquote (by decide)
  exact ⟨q, n, hq, hn, hquotes⟩

/-- Without a maximum, and with a per-mint cap of the whole supply, the hint is exact. -/
theorem min_spend_exact_last_lot :
    lastLotApp.loadBacking sampleCrypto alphaId = .ok lastLotTip ∧
    ∀ budgetSats, ∃ q, (∀ fuel, 21000 < fuel → lastLotApp.quoteBuyForSats sampleCrypto
        ⟨publicSupplyAtoms, none, 1000⟩ fuel alphaId budgetSats = some (.ok q)) ∧
      (0 < q.amountAtoms ↔ ∃ m, q.minSpendSats = some m ∧ m ≤ budgetSats) := by
  refine ⟨lastLotApp_loads, ?_⟩
  apply (min_spend_exact_iff lastLotApp_loads (by decide) (by decide) lastLotApp_fees
    ⟨publicSupplyAtoms, none, 1000⟩).mpr
  intro k hk
  obtain ⟨-, hcap, gross, hgross, -⟩ := hk.1
  have hsupply : 0 ≤ lastLotTip.state.issuedPublicSupplyAtoms := by decide
  refine ⟨by dsimp only; omega, gross, hgross, ?_⟩
  intro m hm
  cases hm

end Cove
