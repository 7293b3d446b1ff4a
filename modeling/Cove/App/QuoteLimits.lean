import Cove.App.Quote
import Cove.Guardian.RiskPolicy

/-! The limits the app quotes within and the caps the Guardian signs within, taken from one profile:
`mintLimits` of `packages/cove-app/src/config.ts`, `riskPolicyFromProfile` of
`apps/guardian/src/service.ts`. -/

namespace Cove

open Checked Mainnet

namespace Mainnet

variable {C : Crypto}

theorem ValidProfile.shapeOk {p : MainnetProfile} (h : ValidProfile C p) :
    (p.recovery.threshold = 2 ∧ (p.recovery.pubkeys.map bufferFromHex).length = 3) ∨
      (p.recovery.threshold = 1 ∧ (p.recovery.pubkeys.map bufferFromHex).length = 1) := by
  rw [List.length_map]
  exact h.recoveryShape

/-- The values a validated profile spells out. -/
def MainnetProfile.decoded (p : MainnetProfile) (h : ValidProfile C p) : Cove.MainnetProfile where
  guardianXOnly := bufferFromHex (p.guardianXOnly.getD [])
  recovery := {
    threshold := p.recovery.threshold
    pubkeys := p.recovery.pubkeys.map bufferFromHex
    csvBlocks := p.recovery.csvBlocks.getD 0
    shapeOk := h.shapeOk }
  feeScript := bufferFromHex (p.feeScript.getD [])
  buyFeeBps := p.buyFeeBps.getD 0
  redeemFeeBps := p.redeemFeeBps.getD 0

def mintLimits (profile : MainnetProfile) : MintLimits where
  maxMintAtoms := profile.canary.maxMintAtoms.getD publicSupplyAtoms
  maxGrossSats := profile.canary.maxSingleBuySats
  minGrossSats := profile.canary.minMintGrossSats.getD 0

theorem decoded_feesSound {p : MainnetProfile} (h : ValidProfile C p) (discoveryEnvelope : Bool) :
    (loadV3AppConfig (p.decoded h) discoveryEnvelope).FeesSound := by
  obtain ⟨bps, hbps, hvalid⟩ := h.buyFeeBps
  simp only [bpsValid, Bool.and_eq_true, decide_eq_true_eq] at hvalid
  constructor
  · show 0 ≤ p.buyFeeBps.getD 0
    rw [hbps]
    exact hvalid.1
  · show 0 ≤ coveFeeConfig.buyFeeFlatSats
    decide

end Mainnet

/-- The analysis of a mint of so many atoms at a state. -/
structure MintsAt (state : CoveStateV2) (amountAtoms : Int) (a : MintAnalysis) : Prop where
  tokenId : a.tokenId = state.tokenId
  amount : a.amountAtoms = amountAtoms
  canonical : applyMintV2 state amountAtoms = .ok ⟨a.nextState, a.grossSats⟩

theorem MintAnalyzed.mintsAt {params : ValidateParams} {a : MintAnalysis}
    (h : MintAnalyzed params a) (htoken : a.tokenId = a.currentState.tokenId) :
    MintsAt a.currentState a.amountAtoms a :=
  ⟨htoken, rfl, h.canonical⟩

/-- Remaining lots can be minted, for the gross the app computes. -/
theorem applyMintV2_lots {s : CoveStateV2} (hs : ValidStateV2 s) {n : Int} (hn : 0 < n)
    (hcap : s.issuedPublicSupplyAtoms + n * lotAtoms ≤ publicSupplyAtoms) :
    ∃ next gross, applyMintV2 s (n * lotAtoms) = .ok ⟨next, gross⟩ ∧
      grossBuy (s.issuedPublicSupplyAtoms / atomsPerToken) (n * lotTokens) = .ok gross := by
  have h0 := hs.supply_nonneg
  obtain ⟨hsupply, htokens⟩ := lots_in_tokens h0 hcap
  have hlots : 0 < lotTokens ∧ lotTokens ≤ n * lotTokens := by
    unfold lotTokens
    omega
  have hmove : (s.issuedPublicSupplyAtoms + n * lotAtoms) / atomsPerToken =
      s.issuedPublicSupplyAtoms / atomsPerToken + n * lotTokens := by
    rw [lotAtoms_eq, atomsPerToken_eq, lotTokens]
    omega
  have hgrows := reserve_lt hsupply (by omega : s.issuedPublicSupplyAtoms / atomsPerToken +
    lotTokens ≤ s.issuedPublicSupplyAtoms / atomsPerToken + n * lotTokens) htokens
  have hnext := requiredBackingSats_eq (by omega :
    0 ≤ s.issuedPublicSupplyAtoms / atomsPerToken + n * lotTokens) htokens
  have hbefore := requiredBackingSats_eq hsupply (by omega :
    s.issuedPublicSupplyAtoms / atomsPerToken ≤ publicSupplyTokens)
  obtain ⟨stage, hstage⟩ : ∃ stage,
      impliedStageV2 (s.issuedPublicSupplyAtoms + n * lotAtoms) = .ok stage := by
    rw [impliedStageV2, hmove, getStageForSupply, if_neg (by omega)]
    split_ifs
    · exact ⟨_, rfl⟩
    · exact ⟨_, rfl⟩
  let next : CoveStateV2 := { s with
    issuedPublicSupplyAtoms := s.issuedPublicSupplyAtoms + n * lotAtoms
    backingSats := stairCharge 0 (s.issuedPublicSupplyAtoms / atomsPerToken + n * lotTokens)
    curveStage := stage }
  refine ⟨next, _, ?_, grossBuy_eq hsupply hlots.2 htokens⟩
  simp only [applyMintV2, bind_eq_ok, ensure_eq_ok, pure_eq_ok, hmove, TransitionV2Result.mk.injEq]
  have hwhole : n * lotAtoms % lotAtoms = 0 := Int.mul_emod_left n lotAtoms
  have hpos : 0 < n * lotAtoms := by
    rw [lotAtoms_eq]
    omega
  exact ⟨(), (validateStateV2_eq_ok s).mpr hs, (), hpos, (), whole_tokens_of_lots _ hwhole, (),
    hwhole, (), hcap, _, hnext, _, hbefore, (), by omega, stage, hstage, rfl, rfl⟩

theorem MintsAt.lots {s : CoveStateV2} {a : MintAnalysis} {n gross : Int}
    (h : MintsAt s (n * lotAtoms) a) (hs : ValidStateV2 s) (hn : 0 < n)
    (hcap : s.issuedPublicSupplyAtoms + n * lotAtoms ≤ publicSupplyAtoms)
    (hgross : grossBuy (s.issuedPublicSupplyAtoms / atomsPerToken) (n * lotTokens) = .ok gross) :
    a.grossSats = gross ∧ a.nextState.backingSats = s.backingSats + gross := by
  obtain ⟨next, gross', hmint, hgross'⟩ := applyMintV2_lots hs hn hcap
  have heq : gross' = gross := by
    rw [hgross'] at hgross
    exact Except.ok.inj hgross
  have hsame := h.canonical
  rw [hmint] at hsame
  have hresult := TransitionV2Result.mk.inj (Except.ok.inj hsame)
  have hbacking := applyMintV2_gross h.canonical
  dsimp only at hbacking
  omega

section

variable {config : V3AppConfig} {limits : MintLimits} {supplyAtoms : Int}

variable (limits supplyAtoms) in
/-- The curve prices of the lots the limits allow. -/
def QuotedGross : Set Int :=
  {gross | ∃ n, 0 < n ∧ supplyAtoms + n * lotAtoms ≤ publicSupplyAtoms ∧
    n * lotAtoms ≤ limits.maxMintAtoms ∧
    grossBuy (supplyAtoms / atomsPerToken) (n * lotTokens) = .ok gross ∧
    limits.minGrossSats ≤ gross ∧ ∀ m ∈ limits.maxGrossSats, gross ≤ m}

/-- A budget of what lots cost buys these and no more. -/
theorem buyable_total (h0 : 0 ≤ supplyAtoms) {n : Int}
    (hn : 0 < n) (hcap : supplyAtoms + n * lotAtoms ≤ publicSupplyAtoms)
    (hmint : n * lotAtoms ≤ limits.maxMintAtoms) {c : MintCost}
    (hc : costOf config (supplyAtoms / atomsPerToken) (n * lotTokens) = .ok c)
    (hmax : ∀ m ∈ limits.maxGrossSats, c.gross ≤ m) :
    IsGreatest (Buyable config limits supplyAtoms c.total) n := by
  constructor
  · exact Or.inr ⟨hn, hcap, hmint, c, hc, le_refl _, hmax⟩
  · intro m hm
    rcases hm with hzero | ⟨hpos, hremain, -, d, hd, htotal, -⟩
    · omega
    · by_contra hlt
      have hmore := (costOf_lt h0 hn (by omega : n < m) hremain hc hd).2
      omega

/-- What a quote offers is lots within its limits. -/
theorem QuotesLots.quoted {n budgetSats : Int} {q : BuyQuote}
    (hn : IsGreatest (Buyable config limits supplyAtoms budgetSats) n)
    (hq : QuotesLots config limits supplyAtoms n q) (hpos : 0 < q.amountAtoms) :
    q.amountAtoms = n * lotAtoms ∧ q.grossSats ∈ QuotedGross limits supplyAtoms ∧ 0 < n ∧
      supplyAtoms + n * lotAtoms ≤ publicSupplyAtoms ∧ n * lotAtoms ≤ limits.maxMintAtoms ∧
      grossBuy (supplyAtoms / atomsPerToken) (n * lotTokens) = .ok q.grossSats := by
  obtain ⟨hnpos, hmeets⟩ := (hq.pos_iff (Buyable.nonneg hn.1)).mp hpos
  obtain ⟨-, hcap, hmint, hfits⟩ := hn.1.resolve_left (by omega)
  obtain ⟨hamount, hcost⟩ := hq.lots hnpos hmeets
  have hgross := costOf_gross hcost
  have hmin := (meetsMinimum_iff limits hcost).mp hmeets
  have hmax := ((fitsBudget_iff hcost).mp hfits).2
  exact ⟨hamount, ⟨n, hnpos, hcap, hmint, hgross, hmin, hmax⟩, hnpos, hcap, hmint, hgross⟩

end

section

variable {C : Crypto} {keys : TestKeys} {p : Mainnet.MainnetProfile} {allowTestKeys : Bool}
  {app : V3AppService} {tokenId : Bytes} {tip : AppBacking} {discoveryEnvelope : Bool}

/-- Every price within the limits is quoted, for the budget its lots cost, and is the price of a
mint without a miner fee. -/
theorem quoted_of_gross {limits : MintLimits} {gross : Int} (hfees : app.config.FeesSound)
    (hload : app.loadBacking C tokenId = .ok tip) (hstate : ValidStateV2 tip.state)
    (hgross : gross ∈ QuotedGross limits tip.state.issuedPublicSupplyAtoms) :
    ∃ budgetSats q a, (∀ fuel, 21000 < fuel →
        app.quoteBuyForSats C limits fuel tokenId budgetSats = some (.ok q)) ∧
      0 < q.amountAtoms ∧ MintsAt tip.state q.amountAtoms a ∧ a.minerFeeSats = 0 ∧
        a.nextState.backingSats = tip.state.backingSats + gross := by
  have h0 := hstate.supply_nonneg
  obtain ⟨n, hn, hcap, hmint, hprice, hmin, hmax⟩ := hgross
  obtain ⟨c, hc⟩ := costOf_lots hfees h0 hn hcap
  have hcgross : c.gross = gross := by
    rw [costOf_gross hc] at hprice
    exact Except.ok.inj hprice
  obtain ⟨q, m, hq, hm, hquotes, -⟩ :=
    quoteBuyForSats_total hload h0 hstate.supply_lots hfees limits c.total
  have hgreatest := buyable_total h0 hn hcap hmint hc (by rw [hcgross]; exact hmax)
  obtain rfl := hm.unique hgreatest
  have hmeets := (meetsMinimum_iff limits hc).mpr (by rw [hcgross]; exact hmin)
  have hamount := (hquotes.lots hn hmeets).1
  obtain ⟨next, gross', hcanonical, -⟩ := applyMintV2_lots hstate hn hcap
  have hpos := (applyMintV2_spec hcanonical).2.2.2.1
  let a : MintAnalysis := {
    tokenId := tip.state.tokenId
    amountAtoms := m * lotAtoms
    recipientVout := 2
    currentState := tip.state
    backingOutpoint := tip.outpoint
    nextState := next
    grossSats := gross'
    protocolFeeSats := c.fee
    creatorFeeSats := c.creator
    creatorScript := []
    minerFeeSats := 0
    backingInputIndex := 0
    buyerInputIndices := [] }
  have ha : MintsAt tip.state (m * lotAtoms) a := ⟨rfl, rfl, hcanonical⟩
  refine ⟨c.total, q, a, hq, by omega, ?_, rfl, (ha.lots hstate hn hcap hprice).2⟩
  rw [hamount]
  exact ha

/-- The Guardian's policy takes every mint the app quotes, with a miner fee within the cap, exactly
when the token's id is listed as the policy spells it and no price within the limits takes the
backing above its cap. -/
theorem quote_within_policy_iff (hprofile : validateMainnetProfile C keys p allowTestKeys = [])
    (hconfig : app.config =
      loadV3AppConfig (p.decoded (validateMainnetProfile_eq_nil hprofile)) discoveryEnvelope)
    (hload : app.loadBacking C tokenId = .ok tip) (hstate : ValidStateV2 tip.state) :
    (∀ budgetSats q, (∀ fuel, 21000 < fuel →
        app.quoteBuyForSats C (mintLimits p) fuel tokenId budgetSats = some (.ok q)) →
      0 < q.amountAtoms → ∀ a, MintsAt tip.state q.amountAtoms a →
      a.minerFeeSats ≤ maxMinerFeeSats →
      checkRiskPolicy (riskPolicyFromProfile p) (.inl a) = .ok ()) ↔
    ∀ gross ∈ QuotedGross (mintLimits p) tip.state.issuedPublicSupplyAtoms,
      tip.state.tokenId.hexText ∈ p.canary.allowedTokenIds ∧
        ∀ cap ∈ p.canary.maxBackingSats, tip.state.backingSats + gross ≤ cap := by
  have hvalid := validateMainnetProfile_eq_nil hprofile
  have hfees : app.config.FeesSound := by
    rw [hconfig]
    exact decoded_feesSound hvalid discoveryEnvelope
  have h0 := hstate.supply_nonneg
  obtain ⟨maxBacking, hbacking, -⟩ := hvalid.maxBackingSats
  obtain ⟨maxGross, hgrossCap, -⟩ := hvalid.maxSingleBuySats
  obtain ⟨maxMint, hmintCap, -⟩ := hvalid.maxMintAtoms
  obtain ⟨minGross, hminCap, -⟩ := hvalid.minMintGrossSats
  constructor
  · intro h gross hgross
    obtain ⟨budgetSats, q, a, hquote, hpos, ha, hfee, hnext⟩ :=
      quoted_of_gross hfees hload hstate hgross
    have hminer : a.minerFeeSats ≤ maxMinerFeeSats := by
      rw [hfee]
      decide
    have haccepts := checkRiskPolicy_mint.mp (h budgetSats q hquote hpos a ha hminer)
    have htoken := haccepts.token rfl
    rw [ha.tokenId] at htoken
    refine ⟨htoken, ?_⟩
    intro cap hcapBacking
    have hle := haccepts.backing
    rw [hnext, riskPolicyFromProfile, hcapBacking] at hle
    exact hle
  · intro h budgetSats q hquote hpos a ha hfee
    obtain ⟨q', n, hq, hn, hquotes, -⟩ :=
      quoteBuyForSats_total hload h0 hstate.supply_lots hfees (mintLimits p) budgetSats
    obtain rfl := quote_unique hquote hq
    obtain ⟨hamount, hmem, hnpos, hcap, hmint, hgross⟩ := hquotes.quoted hn hpos
    obtain ⟨htoken, hnextCap⟩ := h q.grossSats hmem
    obtain ⟨-, -, -, -, -, hmin, hmax⟩ := hmem
    rw [hamount] at ha
    obtain ⟨hagross, hanext⟩ := ha.lots hstate hnpos hcap hgross
    apply checkRiskPolicy_mint.mpr
    simp only [mintLimits, hmintCap, hgrossCap, hminCap, Option.getD_some, Option.mem_some_iff,
      forall_eq'] at hmint hmin hmax
    constructor
    · intro _
      rw [ha.tokenId]
      exact htoken
    · rw [hagross, riskPolicyFromProfile, hgrossCap]
      exact hmax
    · rw [ha.amount, riskPolicyFromProfile, hmintCap]
      exact hmint
    · rw [hagross, riskPolicyFromProfile, hminCap]
      exact hmin
    · rw [hanext, riskPolicyFromProfile, hbacking]
      exact hnextCap maxBacking hbacking
    · exact hfee

end

/-! ALPHA with one lot left to mint, and a cap on the backing below or above its last price. -/

theorem lowCap_valid :
    validateMainnetProfile mainnetCrypto sampleTestKeys (profileWithCap 59815000) false = [] := by
  decide +kernel

theorem highCap_valid :
    validateMainnetProfile mainnetCrypto sampleTestKeys (profileWithCap 60000000) false = [] := by
  decide +kernel

/-- The app of a profile, where one lot is left. -/
def cappedApp {p : Mainnet.MainnetProfile} (h : ValidProfile mainnetCrypto p) : V3AppService :=
  { lastLotApp with config := loadV3AppConfig (p.decoded h) false }

theorem cappedApp_loads {p : Mainnet.MainnetProfile} (h : ValidProfile mainnetCrypto p) :
    (cappedApp h).loadBacking mainnetCrypto alphaId = .ok lastLotTip := by
  simp [V3AppService.loadBacking, cappedApp, lastLotApp, sampleApp, loadConfirmedBacking,
    followPendingBacking, maxPendingBackingChain, findBroadcastSpendOfBacking, TxSessions,
    lastLotTip]

theorem lastLotTip_valid : ValidStateV2 lastLotTip.state := by
  apply (validateStateV2_eq_ok lastLotTip.state).mp
  decide +kernel

/-- The mint of the last lot. -/
def lastLotMint : MintAnalysis where
  tokenId := alphaId
  amountAtoms := lotAtoms
  recipientVout := 2
  currentState := lastLotTip.state
  backingOutpoint := lastLotTip.outpoint
  nextState := { lastLotTip.state with
    issuedPublicSupplyAtoms := publicSupplyAtoms
    backingSats := 59818500 }
  grossSats := 5670
  protocolFeeSats := 5067
  creatorFeeSats := 2835
  creatorScript := sampleCreator
  minerFeeSats := 2000
  backingInputIndex := 0
  buyerInputIndices := [1]

theorem lastLotMint_mints : MintsAt lastLotTip.state lotAtoms lastLotMint := by
  refine ⟨rfl, rfl, ?_⟩
  decide +kernel

/-- The app quotes the last lot, which the Guardian does not sign for. -/
theorem quote_above_backing_cap :
    validateMainnetProfile mainnetCrypto sampleTestKeys (profileWithCap 59815000) false = [] ∧
    alphaId.hexText ∈ (profileWithCap 59815000).canary.allowedTokenIds ∧
    (∃ q, (cappedApp (validateMainnetProfile_eq_nil lowCap_valid)).quoteBuyForSats mainnetCrypto
        (mintLimits (profileWithCap 59815000)) 21001 alphaId 100000 = some (.ok q) ∧
      q.amountAtoms = lotAtoms) ∧
    MintsAt lastLotTip.state lotAtoms lastLotMint ∧ lastLotMint.minerFeeSats ≤ maxMinerFeeSats ∧
    checkRiskPolicy (riskPolicyFromProfile (profileWithCap 59815000)) (.inl lastLotMint) =
      .error "next backing 59818500 exceeds cap 59815000" := by
  refine ⟨lowCap_valid, List.mem_cons_self, ?_, lastLotMint_mints, ?_, ?_⟩
  · rw [quoteBuyForSats_eq (cappedApp_loads _)]
    have hquote : ((quoteAtSupply (cappedApp (validateMainnetProfile_eq_nil lowCap_valid)).config
        (mintLimits (profileWithCap 59815000)) lastLotTip.state.issuedPublicSupplyAtoms 100000
        21001).bind Except.toOption).map BuyQuote.amountAtoms = some lotAtoms := by
      decide +kernel
    obtain ⟨q, hq, hamount⟩ := Option.map_eq_some_iff.mp hquote
    obtain ⟨r, hr, hok⟩ := Option.bind_eq_some_iff.mp hq
    exact ⟨q, by rw [hr, toOption_eq_some.mp hok], hamount⟩
  · decide
  · decide +kernel

/-- Below the higher cap the Guardian takes whatever is quoted for the last lot. -/
theorem quote_within_policy_last_lot :
    validateMainnetProfile mainnetCrypto sampleTestKeys (profileWithCap 60000000) false = [] ∧
    ∀ budgetSats q, (∀ fuel, 21000 < fuel →
      (cappedApp (validateMainnetProfile_eq_nil highCap_valid)).quoteBuyForSats mainnetCrypto
        (mintLimits (profileWithCap 60000000)) fuel alphaId budgetSats = some (.ok q)) →
      0 < q.amountAtoms → ∀ a, MintsAt lastLotTip.state q.amountAtoms a →
      a.minerFeeSats ≤ maxMinerFeeSats →
      checkRiskPolicy (riskPolicyFromProfile (profileWithCap 60000000)) (.inl a) = .ok () := by
  refine ⟨highCap_valid, ?_⟩
  apply (quote_within_policy_iff highCap_valid rfl (cappedApp_loads _) lastLotTip_valid).mpr
  intro gross hgross
  obtain ⟨n, hn, hcap, -, hprice, -⟩ := hgross
  refine ⟨List.mem_cons_self, ?_⟩
  intro cap hcapBacking
  -- one lot is left
  have hone : n = 1 := by
    have hissued : lastLotTip.state.issuedPublicSupplyAtoms = 2099900000000000 := by decide
    rw [lotAtoms_eq, publicSupplyAtoms_eq] at hcap
    omega
  subst hone
  have hknown : grossBuy (lastLotTip.state.issuedPublicSupplyAtoms / atomsPerToken)
      (1 * lotTokens) = .ok 5670 := by
    decide +kernel
  rw [hknown] at hprice
  rw [← Except.ok.inj hprice, ← Option.some.inj hcapBacking]
  decide

end Cove
