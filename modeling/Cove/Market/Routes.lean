import Cove.App.QuoteLimits
import Cove.Guardian.Laid
import Cove.Lib.Greedy
import Cove.Market.Types

/-! The ways to buy an amount of a token, cheapest first: `getBuyRoutes` of
`packages/cove-market/src/best-execution.ts`. The canonical rows of one network. -/

namespace Cove

open Checked

structure BackingBuyBreakdown where
  grossSats : Int
  buyFeeSats : Int
  feeBps : Int
  deriving DecidableEq, Repr

structure P2PBuyBreakdown where
  listingId : Bytes
  sellerPriceSats : Int
  marketFeeSats : Int
  feeBps : Int
  deriving DecidableEq, Repr

inductive BuyRoute
  | backing (amountAtoms totalCostSats : Int) (breakdown : BackingBuyBreakdown)
  | p2p (amountAtoms totalCostSats : Int) (breakdown : P2PBuyBreakdown)
  deriving DecidableEq, Repr

def BuyRoute.totalCostSats : BuyRoute → Int
  | backing _ total _ => total
  | p2p _ total _ => total

/-- The fee schedule a quote uses. -/
structure BuyRouteFees where
  buyFeeBps : Int := coveFeeConfig.buyFeeBps
  p2pFeeBps : Int := coveFeeConfig.p2pFeeBps
  buyFeeFlatSats : Option Int := none
  p2pFeeMinSats : Option Int := none
  deriving DecidableEq, Repr

section

variable (fees : BuyRouteFees)

def backingRoute (supplyAtoms amountAtoms : Int) : Except Fault BuyRoute := do
  let grossSats ← grossBuy (supplyAtoms.tdiv atomsPerToken) (amountAtoms.tdiv atomsPerToken)
  let buyFeeSats ← mintFeeSats grossSats amountAtoms fees.buyFeeBps
    (fees.buyFeeFlatSats.getD coveFeeConfig.buyFeeFlatSats) coveFeeConfig.buyFeeLotSats
  let creatorSats ← creatorFeeSats grossSats coveFeeConfig.creatorFeeBps
  return .backing amountAtoms (grossSats + buyFeeSats + creatorSats)
    ⟨grossSats, buyFeeSats, fees.buyFeeBps⟩

/-- A token without a backing row counts as one with no supply. -/
def issuedSupplyAtoms (backingStates : Dict Bytes BackingRow) (tokenId : Bytes) : Int :=
  ((backingStates.get tokenId).map BackingRow.issuedSupplyAtoms).getD 0

/-- Whole tokens within the public cap: what a backing route is offered for. -/
def Offered (supplyAtoms amountAtoms : Int) : Prop :=
  (0 < amountAtoms ∧ amountAtoms % atomsPerToken = 0) ∧ supplyAtoms + amountAtoms ≤ publicSupplyAtoms

instance (supplyAtoms amountAtoms : Int) : Decidable (Offered supplyAtoms amountAtoms) :=
  inferInstanceAs (Decidable ((0 < amountAtoms ∧ amountAtoms % atomsPerToken = 0) ∧
    supplyAtoms + amountAtoms ≤ publicSupplyAtoms))

def backingRoutes (supplyAtoms amountAtoms : Int) : Except Fault (List BuyRoute) :=
  if Offered supplyAtoms amountAtoms then do
    let route ← backingRoute fees supplyAtoms amountAtoms
    return [route]
  else return []

def p2pRoute (amountAtoms : Int) (l : Bytes × Listing) : Except Fault BuyRoute := do
  let marketFeeSats ← deterministicFee l.2.totalPriceSats fees.p2pFeeBps 0
    (fees.p2pFeeMinSats.getD coveFeeConfig.p2pFeeMinSats)
  return .p2p amountAtoms (l.2.totalPriceSats + marketFeeSats)
    ⟨l.1, l.2.totalPriceSats, marketFeeSats, fees.p2pFeeBps⟩

/-- A listing is bought whole: it is for the amount or it is no candidate. -/
def candidateListings (listings : List (Bytes × Listing)) (tokenId : Bytes) (amountAtoms : Int) :
    List (Bytes × Listing) :=
  listings.filter fun l =>
    l.2.tokenId = tokenId ∧ l.2.status = .active ∧ l.2.amountAtoms = amountAtoms

/-- The listings come in the order the database reads them. -/
def getBuyRoutes (backingStates : Dict Bytes BackingRow) (listings : List (Bytes × Listing))
    (tokenId : Bytes) (amountAtoms : Int) : Except Fault (List BuyRoute) := do
  let backing ← backingRoutes fees (issuedSupplyAtoms backingStates tokenId) amountAtoms
  let p2p ← (candidateListings listings tokenId amountAtoms).mapM (p2pRoute fees amountAtoms)
  return (backing ++ p2p).insertionSort fun a b => a.totalCostSats ≤ b.totalCostSats

end

/-! What the routes promise. -/

/-- A mint is built under the schedule of a quote, with the creator's share at its default. -/
structure MintParams.Under (params : MintParams) (fees : BuyRouteFees) : Prop where
  buyFeeBps : params.buyFeeBps.getD coveFeeConfig.buyFeeBps = fees.buyFeeBps
  buyFeeFlatSats : params.buyFeeFlatSats.getD coveFeeConfig.buyFeeFlatSats =
    fees.buyFeeFlatSats.getD coveFeeConfig.buyFeeFlatSats
  creatorFeeBps : params.creatorFeeBps.getD coveFeeConfig.creatorFeeBps = coveFeeConfig.creatorFeeBps

/-- The covenant mints the amount for the total: its gross and the two fees on it. -/
def MintsFor (s : CoveStateV2) (fees : BuyRouteFees) (amountAtoms total : Int) : Prop :=
  ∃ next gross buyFee creatorFee, applyMintV2 s amountAtoms = .ok ⟨next, gross⟩ ∧
    mintFeeSats gross amountAtoms fees.buyFeeBps
      (fees.buyFeeFlatSats.getD coveFeeConfig.buyFeeFlatSats) coveFeeConfig.buyFeeLotSats =
        .ok buyFee ∧
    creatorFeeSats gross coveFeeConfig.creatorFeeBps = .ok creatorFee ∧
    total = gross + buyFee + creatorFee

/-- Each backing route can be executed at the token's state, for what a mint built there charges,
and the cheapest route comes first. -/
structure RoutesRight (state : Option CoveStateV2) (fees : BuyRouteFees) (amountAtoms : Int)
    (routes : List BuyRoute) : Prop where
  executable : ∀ amount total b, .backing amount total b ∈ routes →
    amount = amountAtoms ∧ ∃ s ∈ state, MintsFor s fees amountAtoms total
  charged : ∀ amount total b, .backing amount total b ∈ routes →
    ∀ (C : Crypto) (scriptForKind : ScriptForKind) (params : MintParams) (r : MintResult),
      params.Under fees → params.prevState ∈ state → params.mintAmountAtoms = amountAtoms →
      buildMintPsbtV3 C scriptForKind params = .ok r →
      total = r.grossSats + r.buyFeeSats + r.creatorFeeSats
  sorted : routes.Pairwise fun a b => a.totalCostSats ≤ b.totalCostSats

/-- The state of a token's backing row. -/
def backingState (backingStates : Dict Bytes BackingRow) (tokenId : Bytes) : Option CoveStateV2 :=
  (backingStates.get tokenId).map (BackingRow.toState tokenId)

/-- The token has a valid state, and the amount is whole lots. -/
def LotsMintable (state : Option CoveStateV2) (amountAtoms : Int) : Prop :=
  (∃ s ∈ state, validateStateV2 s = .ok ()) ∧ amountAtoms % lotAtoms = 0

section

variable {fees : BuyRouteFees} {supplyAtoms amountAtoms : Int} {route : BuyRoute}

theorem backingRoute_ok (h : backingRoute fees supplyAtoms amountAtoms = .ok route) :
    ∃ gross buyFee creatorFee,
      grossBuy (supplyAtoms.tdiv atomsPerToken) (amountAtoms.tdiv atomsPerToken) = .ok gross ∧
      mintFeeSats gross amountAtoms fees.buyFeeBps
        (fees.buyFeeFlatSats.getD coveFeeConfig.buyFeeFlatSats) coveFeeConfig.buyFeeLotSats =
          .ok buyFee ∧
      creatorFeeSats gross coveFeeConfig.creatorFeeBps = .ok creatorFee ∧
      route = .backing amountAtoms (gross + buyFee + creatorFee) ⟨gross, buyFee, fees.buyFeeBps⟩ := by
  simp only [backingRoute, bind_eq_ok, pure_eq_ok] at h
  obtain ⟨gross, hgross, buyFee, hbuyFee, creatorFee, hcreatorFee, rfl⟩ := h
  exact ⟨gross, buyFee, creatorFee, hgross, hbuyFee, hcreatorFee, rfl⟩

theorem mem_backingRoutes {routes : List BuyRoute}
    (h : backingRoutes fees supplyAtoms amountAtoms = .ok routes) :
    route ∈ routes ↔ Offered supplyAtoms amountAtoms ∧
      backingRoute fees supplyAtoms amountAtoms = .ok route := by
  unfold backingRoutes at h
  split at h
  · rename_i hoffered
    simp only [bind_eq_ok, pure_eq_ok] at h
    obtain ⟨r, hr, rfl⟩ := h
    rw [List.mem_singleton, hr, Except.ok.injEq]
    exact ⟨fun he => ⟨hoffered, he.symm⟩, fun he => he.2.symm⟩
  · rename_i hnot
    obtain rfl := Except.ok.inj h
    simp [hnot]

/-- What a listing is offered for is no backing route. -/
theorem p2pRoutes_ok {listings : List (Bytes × Listing)} {routes : List BuyRoute}
    (h : listings.mapM (p2pRoute fees amountAtoms) = .ok routes) {amount total : Int}
    {b : BackingBuyBreakdown} : .backing amount total b ∉ routes := by
  induction listings generalizing routes with
  | nil =>
    obtain rfl := Except.ok.inj h
    exact List.not_mem_nil
  | cons l listings ih =>
    simp only [List.mapM_cons, bind_eq_ok, pure_eq_ok] at h
    obtain ⟨r, hr, rest, hrest, rfl⟩ := h
    simp only [p2pRoute, bind_eq_ok, pure_eq_ok] at hr
    obtain ⟨marketFee, -, rfl⟩ := hr
    intro hmem
    rcases List.mem_cons.mp hmem with heq | htail
    · cases heq
    · exact ih hrest htail

end

section

variable {fees : BuyRouteFees} {backingStates : Dict Bytes BackingRow}
  {listings : List (Bytes × Listing)} {tokenId : Bytes} {amountAtoms : Int}
  {routes : List BuyRoute}

/-- The backing route of an amount is offered exactly where the planner's own guards let it. -/
theorem getBuyRoutes_backing (h : getBuyRoutes fees backingStates listings tokenId amountAtoms =
    .ok routes) {amount total : Int} {b : BackingBuyBreakdown} :
    .backing amount total b ∈ routes ↔
      Offered (issuedSupplyAtoms backingStates tokenId) amountAtoms ∧
        backingRoute fees (issuedSupplyAtoms backingStates tokenId) amountAtoms =
          .ok (.backing amount total b) := by
  simp only [getBuyRoutes, bind_eq_ok, pure_eq_ok] at h
  obtain ⟨backing, hbacking, p2p, hp2p, rfl⟩ := h
  rw [List.mem_insertionSort, List.mem_append, mem_backingRoutes hbacking]
  exact or_iff_left (p2pRoutes_ok hp2p)

/-- An offer the guards let through is in the list. -/
theorem getBuyRoutes_offers (h : getBuyRoutes fees backingStates listings tokenId amountAtoms =
    .ok routes) (hoffered : Offered (issuedSupplyAtoms backingStates tokenId) amountAtoms) :
    ∃ amount total b, .backing amount total b ∈ routes := by
  have hroutes := h
  simp only [getBuyRoutes, backingRoutes, if_pos hoffered, bind_eq_ok, pure_eq_ok] at hroutes
  obtain ⟨_, ⟨route, hroute, -⟩, -⟩ := hroutes
  obtain ⟨gross, buyFee, creatorFee, -, -, -, rfl⟩ := backingRoute_ok hroute
  exact ⟨_, _, _, (getBuyRoutes_backing h).mpr ⟨hoffered, hroute⟩⟩

/-- Falling gains are rising costs. -/
theorem getBuyRoutes_sorted (h : getBuyRoutes fees backingStates listings tokenId amountAtoms =
    .ok routes) : routes.Pairwise fun a b => a.totalCostSats ≤ b.totalCostSats := by
  simp only [getBuyRoutes, bind_eq_ok, pure_eq_ok] at h
  obtain ⟨backing, -, p2p, -, rfl⟩ := h
  have hfalling : Greedy.Falling (fun r => -r.totalCostSats)
      ((backing ++ p2p).insertionSort fun a b => a.totalCostSats ≤ b.totalCostSats) := by
    apply Greedy.falling_insertionSort
    · exact fun a b hle => neg_le_neg hle
    · exact fun a b hnot => neg_le_neg (le_of_not_ge hnot)
  exact hfalling.imp fun hge => neg_le_neg_iff.mp hge

end

/-! The covenant's lots against the planner's tokens. -/

section

variable {s : CoveStateV2} {fees : BuyRouteFees} {amountAtoms total : Int}

theorem MintsFor.mintable (h : MintsFor s fees amountAtoms total) :
    validateStateV2 s = .ok () ∧ amountAtoms % lotAtoms = 0 := by
  obtain ⟨next, gross, _, _, hmint, -⟩ := h
  have hstep := applyMintV2_iff.mp hmint
  exact ⟨(validateStateV2_eq_ok s).mpr hstep.lower_valid, hstep.amount_lots⟩

/-- A mint built under the same schedule charges the same. -/
theorem MintsFor.charged (h : MintsFor s fees amountAtoms total) {C : Crypto}
    {scriptForKind : ScriptForKind} {params : MintParams} {r : MintResult}
    (hunder : params.Under fees) (hprev : params.prevState = s)
    (hamount : params.mintAmountAtoms = amountAtoms)
    (hbuilt : buildMintPsbtV3 C scriptForKind params = .ok r) :
    total = r.grossSats + r.buyFeeSats + r.creatorFeeSats := by
  obtain ⟨next, gross, buyFee, creatorFee, hmint, hbuyFee, hcreatorFee, rfl⟩ := h
  have hlaid := buildMintPsbtV3_laid hbuilt
  have hcanonical := (buildMintPsbtV3_ok hbuilt).canonical
  rw [hprev, hamount, hmint] at hcanonical
  obtain ⟨-, rfl⟩ := TransitionV2Result.mk.inj (Except.ok.inj hcanonical)
  have hbuyFee' := hlaid.buyFee
  rw [hunder.buyFeeBps, hunder.buyFeeFlatSats, hamount, hbuyFee] at hbuyFee'
  have hcreatorFee' := hlaid.creatorFee
  rw [hunder.creatorFeeBps, hcreatorFee] at hcreatorFee'
  rw [Except.ok.inj hbuyFee', Except.ok.inj hcreatorFee']

/-- Of whole lots at a valid state the planner has the covenant's price. -/
theorem mintsFor_of_route {amount : Int} {b : BackingBuyBreakdown} (hs : ValidStateV2 s)
    (hoffered : Offered s.issuedPublicSupplyAtoms amountAtoms)
    (hlots : amountAtoms % lotAtoms = 0)
    (h : backingRoute fees s.issuedPublicSupplyAtoms amountAtoms =
      .ok (.backing amount total b)) :
    amount = amountAtoms ∧ MintsFor s fees amountAtoms total := by
  obtain ⟨gross, buyFee, creatorFee, hgross, hbuyFee, hcreatorFee, heq⟩ := backingRoute_ok h
  obtain ⟨rfl, rfl, -⟩ := BuyRoute.backing.inj heq
  refine ⟨rfl, ?_⟩
  obtain ⟨⟨hpos, -⟩, hcap⟩ := hoffered
  obtain ⟨n, rfl⟩ := Int.dvd_of_emod_eq_zero hlots
  have hn : 0 < n := by
    rw [lotAtoms_eq] at hpos
    omega
  have htokens : (lotAtoms * n) / atomsPerToken = n * lotTokens := by
    rw [lotAtoms_eq, atomsPerToken_eq, lotTokens]
    omega
  rw [mul_comm] at hcap
  obtain ⟨next, gross', hmint, hgross'⟩ := applyMintV2_lots hs hn hcap
  rw [Int.tdiv_eq_ediv_of_nonneg hs.supply_nonneg, Int.tdiv_eq_ediv_of_nonneg hpos.le, htokens,
    hgross'] at hgross
  obtain rfl := Except.ok.inj hgross
  rw [mul_comm] at hmint
  exact ⟨next, gross', buyFee, creatorFee, hmint, hbuyFee, hcreatorFee, rfl⟩

end

theorem issuedSupplyAtoms_of_state {backingStates : Dict Bytes BackingRow} {tokenId : Bytes}
    {s : CoveStateV2} (h : s ∈ backingState backingStates tokenId) :
    issuedSupplyAtoms backingStates tokenId = s.issuedPublicSupplyAtoms := by
  obtain ⟨row, hrow, rfl⟩ := Option.map_eq_some_iff.mp h
  rw [issuedSupplyAtoms, hrow]
  rfl

/-- The routes are right exactly where an offer is for whole lots at a valid state. -/
theorem getBuyRoutes_right_iff {fees : BuyRouteFees} {backingStates : Dict Bytes BackingRow}
    {listings : List (Bytes × Listing)} {tokenId : Bytes} {amountAtoms : Int}
    {routes : List BuyRoute}
    (h : getBuyRoutes fees backingStates listings tokenId amountAtoms = .ok routes) :
    RoutesRight (backingState backingStates tokenId) fees amountAtoms routes ↔
      (Offered (issuedSupplyAtoms backingStates tokenId) amountAtoms →
        LotsMintable (backingState backingStates tokenId) amountAtoms) := by
  constructor
  · intro hright hoffered
    obtain ⟨amount, total, b, hmem⟩ := getBuyRoutes_offers h hoffered
    obtain ⟨-, s, hs, hmints⟩ := hright.executable amount total b hmem
    obtain ⟨hvalid, hlots⟩ := hmints.mintable
    exact ⟨⟨s, hs, hvalid⟩, hlots⟩
  · intro hcond
    have hmints : ∀ amount total b, .backing amount total b ∈ routes →
        amount = amountAtoms ∧ ∃ s ∈ backingState backingStates tokenId,
          MintsFor s fees amountAtoms total := by
      intro amount total b hmem
      obtain ⟨hoffered, hroute⟩ := (getBuyRoutes_backing h).mp hmem
      obtain ⟨⟨s, hs, hvalid⟩, hlots⟩ := hcond hoffered
      rw [issuedSupplyAtoms_of_state hs] at hoffered hroute
      obtain ⟨hamount, hprice⟩ :=
        mintsFor_of_route ((validateStateV2_eq_ok s).mp hvalid) hoffered hlots hroute
      exact ⟨hamount, s, hs, hprice⟩
    constructor
    case executable => exact hmints
    case charged =>
      intro amount total b hmem C scriptForKind params r hunder hprev hparams hbuilt
      obtain ⟨-, s, hs, hprice⟩ := hmints amount total b hmem
      have hsame : params.prevState = s := Option.mem_unique hprev hs
      exact hprice.charged hunder hsame hparams hbuilt
    case sorted => exact getBuyRoutes_sorted h

/-- One and a half lots of ALPHA are offered at a price, and the covenant refuses them. -/
theorem getBuyRoutes_offers_part_lot :
    getBuyRoutes {} (quietApp false).db.backingStates [] alphaId 150000000000 =
      .ok [.backing 150000000000 5601 ⟨41, 5014, 750⟩] ∧
    (∀ s ∈ backingState (quietApp false).db.backingStates alphaId,
      validateStateV2 s = .ok () ∧ applyMintV2 s 150000000000 =
        .error (covenantFault "NOT_WHOLE_LOTS" "mint whole lots of 1000 tokens")) ∧
    ¬ RoutesRight (backingState (quietApp false).db.backingStates alphaId) {} 150000000000
      [.backing 150000000000 5601 ⟨41, 5014, 750⟩] := by
  refine ⟨by decide +kernel, ?_, ?_⟩
  · intro s hs
    obtain rfl := Option.some.inj hs
    decide +kernel
  · intro hright
    obtain ⟨-, s, -, hmints⟩ := hright.executable _ _ _ List.mem_cons_self
    exact absurd hmints.mintable.2 (by decide)

def millionBacking : Dict Bytes BackingRow :=
  Dict.set ∅ millionId { lastLotRow with
    issuedSupplyAtoms := 0
    backingSats := 0
    curveStage := 1 }

/-- A million tokens for less than the curve asks. -/
def millionListing : Listing where
  tokenId := millionId
  sellerTokenScript := millionScript 3
  sellerPayoutScript := millionScript 4
  sellerTokenChangeScript := millionScript 3
  sourceTxid := List.replicate 32 7
  sourceVout := 2
  sourceAmountAtoms := 100000000000000
  amountAtoms := 100000000000000
  totalPriceSats := 200000
  creationHeight := 1
  expiryHeight := 100
  status := .active

/-- The listing comes first, and the vault's price is what the built mint charges. -/
theorem getBuyRoutes_right_million :
    RoutesRight (backingState millionBacking millionId) {} 100000000000000 [
      .p2p 100000000000000 215000 ⟨List.replicate 32 9, 200000, 15000, 750⟩,
      .backing 100000000000000 248888 ⟨148500, 26138, 750⟩] ∧
    ((buildMintPsbtV3 millionCrypto noKeys (millionMint (Bytes.ascii "ALPHA"))).toOption.map
      fun r => r.grossSats + r.buyFeeSats + r.creatorFeeSats) = some 248888 := by
  have hroutes : getBuyRoutes {} millionBacking [(List.replicate 32 9, millionListing)] millionId
      100000000000000 = .ok [
        .p2p 100000000000000 215000 ⟨List.replicate 32 9, 200000, 15000, 750⟩,
        .backing 100000000000000 248888 ⟨148500, 26138, 750⟩] := by
    decide +kernel
  refine ⟨(getBuyRoutes_right_iff hroutes).mpr ?_, by decide +kernel⟩
  intro _
  exact ⟨⟨(millionMint []).prevState, rfl, by decide +kernel⟩, by decide⟩

end Cove
