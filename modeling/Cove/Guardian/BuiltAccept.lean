import Cove.Guardian.Laid

/-! Which built mints and redeems the Guardian accepts: the builders choose the layout the
validators look for, and the validators' own guards are what is left. -/

namespace Cove

open Checked

/-! What is assumed of the validator's arguments. -/

/-- The executor passes every witness. -/
structure SimplicityExecutor.Passes (X : SimplicityExecutor) : Prop where
  mint : ∀ w, (X.executeMintV3 w).pass = true ∧ (X.executeMintV3 w).failure ≠ some .cmrMismatch
  redeem : ∀ w, (X.executeRedeemV3 w).pass = true ∧ (X.executeRedeemV3 w).failure ≠ some .cmrMismatch

theorem checkSimplicity_passes {sim : SimplicityExecutionResult}
    (h : sim.pass = true ∧ sim.failure ≠ some .cmrMismatch) : checkSimplicity sim = .ok () := by
  simp only [checkSimplicity, bind_eq_ok, ensure_eq_ok]
  exact ⟨(), h.2, h.1⟩

/-- The checker passes the coins that are no carriers the view knows. -/
def ChecksPass (v : ValidateParams) (coins : List ResolvedInput) : Prop :=
  ∀ i ∈ coins, v.view.getTokenUtxo i.outpoint = none →
    v.fundingChecker.check i.outpoint = .ok .ok

/-- The validator is handed the built PSBT, the view the mint was built on, and the builder's keys
and fees. -/
structure MintSameTerms (params : MintParams) (r : MintResult) (v : ValidateParams) : Prop where
  psbt : v.psbt = r.psbt
  state : v.view.getCurrentBackingState params.tokenId = some params.prevState
  outpoint : v.view.getBackingOutpoint params.tokenId = some params.prevBacking.outpoint
  creator : v.view.getTokenCreatorScript params.tokenId = some params.creatorScript
  keys : v.vaultKeys = params.keys
  feeScript : v.feeScript = params.feeScript
  buyFeeBps : v.buyFeeBps = params.buyFeeBps
  buyFeeFlatSats : v.buyFeeFlatSats = params.buyFeeFlatSats
  creatorFeeBps : v.creatorFeeBps = params.creatorFeeBps
  ticker : ∀ ticker, params.discoveryEnvelope = some ticker → v.discoveryTicker = some ticker

/-- The recovery profile a network asks for. -/
def ProfileHeld (v : ValidateParams) : Prop :=
  v.network ≠ .mainnet ∨
    v.recoveryProfile.map VaultRecoveryProfile.profileVersion = some .mainnet1

theorem requireMainnetProfile_eq_ok {v : ValidateParams} {u : Unit} :
    requireMainnetProfile v = .ok u ↔ ProfileHeld v := by
  rw [requireMainnetProfile, ensure_eq_ok, ProfileHeld]

/-- What the validator asks of a mint that its builder does not check. -/
structure MintGuards (params : MintParams) (r : MintResult) (v : ValidateParams) : Prop where
  profile : ProfileHeld v
  backing : params.prevBacking.valueSats = reserveAnchorSats + params.prevState.backingSats
  carrier : isStandardCarrier params.buyerCarrierScript = true
  feeSettles : r.buyFeeSats = 0 ∨ dustThreshold params.feeScript ≤ r.buyFeeSats
  minerFee : 0 ≤ r.minerFeeSats
  funding : ∀ i ∈ params.buyerInputs, v.view.getTokenUtxo i.outpoint = none
  last : params.discoveryEnvelope = none → ¬ EndsInDiscovery r.psbt.txOutputs

theorem feeSettles_iff {feeSats : Int} (feeScript : Bytes) (feeBps : Int) (h : 0 ≤ feeSats) :
    FeeSettles feeSats feeScript feeBps ↔ feeSats = 0 ∨ dustThreshold feeScript ≤ feeSats := by
  simp only [FeeSettles, checkFeeSettlement, bind_eq_ok, ensure_eq_ok, pure_eq_ok]
  constructor
  · intro hparts
    obtain ⟨_, ⟨_, _, heq⟩, hstandard⟩ := hparts
    subst heq
    simpa using hstandard
  · intro hsettles
    exact ⟨_, ⟨(), h, rfl⟩, by simpa using hsettles⟩

/-- The funding check of the inputs after the vault, in terms of the coins they spend. -/
theorem checkFundingInputs_coins {v : ValidateParams} {coins : List ResolvedInput}
    {input0 : PsbtInput} {rest : List PsbtInput} (hinputs : v.psbt.inputs = input0 :: rest)
    (hrest : List.Forall₂ InputFor coins rest) (hpass : ChecksPass v coins) {u : Unit} :
    checkFundingInputs v ((List.range v.psbt.inputs.length).drop 1) = .ok u ↔
      ∀ i ∈ coins, v.view.getTokenUtxo i.outpoint = none := by
  obtain ⟨hlen, hget⟩ := List.forall₂_iff_get.mp hrest
  rw [checkFundingInputs_eq_ok]
  constructor
  · intro hchecked i hi
    obtain ⟨k, hk, rfl⟩ := List.mem_iff_getElem.mp hi
    have hmem : k + 1 ∈ (List.range v.psbt.inputs.length).drop 1 := by
      apply List.mem_iff_getElem?.mpr
      refine ⟨k, ?_⟩
      rw [List.getElem?_drop, List.getElem?_range (by rw [hinputs, List.length_cons]; omega),
        Nat.add_comm]
    obtain ⟨input, hinput, hnone, -⟩ := hchecked (k + 1) hmem
    rw [hinputs, List.getElem?_cons_succ, List.getElem?_eq_getElem (by omega)] at hinput
    obtain rfl := Option.some.inj hinput
    have hfor : rest[k].outpoint = coins[k].outpoint := (hget k hk (by omega)).outpoint
    rwa [← hfor]
  · intro hnone j hj
    obtain ⟨k, hk⟩ := List.mem_iff_getElem?.mp hj
    rw [List.getElem?_drop] at hk
    obtain ⟨hlt, hjk⟩ := List.getElem?_eq_some_iff.mp hk
    rw [List.getElem_range] at hjk
    subst hjk
    rw [List.length_range, hinputs, List.length_cons] at hlt
    have hrestLt : k < rest.length := by omega
    have hcoinLt : k < coins.length := by omega
    have hfor : rest[k].outpoint = coins[k].outpoint := (hget k hcoinLt hrestLt).outpoint
    have hview := hnone _ (List.getElem_mem hcoinLt)
    refine ⟨rest[k], ?_, ?_, ?_⟩
    · rw [hinputs, Nat.add_comm, List.getElem?_cons_succ, List.getElem?_eq_getElem hrestLt]
    · rw [hfor]
      exact hview
    · rw [hfor]
      exact hpass _ (List.getElem_mem hcoinLt) hview

/-! MINT. -/

section Mint

variable {C : Crypto} {X : SimplicityExecutor} {scriptForKind : ScriptForKind}
  {params : MintParams} {r : MintResult} {v : ValidateParams}

/-- What the Guardian makes of a built mint. -/
def MintParams.analysis (params : MintParams) (r : MintResult) : MintAnalysis where
  tokenId := params.tokenId
  amountAtoms := params.mintAmountAtoms
  recipientVout := 2
  currentState := params.prevState
  backingOutpoint := params.prevBacking.outpoint
  nextState := r.nextState
  grossSats := r.grossSats
  protocolFeeSats := r.buyFeeSats
  creatorFeeSats := r.creatorFeeSats
  creatorScript := params.creatorScript
  minerFeeSats := r.minerFeeSats
  backingInputIndex := 0
  buyerInputIndices := (List.range r.psbt.inputs.length).drop 1

theorem MintBuilt.decodes (h : MintBuilt C params r) :
    decodeCoveOpReturn r.psbt = .ok (.mint params.tokenId params.mintAmountAtoms 2) :=
  decodeCoveOpReturn_paid h.outputs rfl (decode_encodeMintV2 h.wire)

theorem analyzeMint_built (hbuilt : MintBuilt C params r) (hlaid : MintLaid params r)
    (hterms : MintSameTerms params r v) :
    analyzeMintTransitionV3 v = .ok (params.analysis r) := by
  obtain ⟨input0, rest, hinputs, hvault, -⟩ := hlaid.vault
  have hminer := minerFee_of_built hbuilt.inputs hbuilt.fee
  simp only [analyzeMintTransitionV3, bind_eq_ok, demand_eq_ok, plain_eq_ok, mapError_eq_ok,
    pure_eq_ok, Prod.exists, asMint_eq_some, hterms.psbt, hterms.buyFeeBps, hterms.buyFeeFlatSats,
    hterms.creatorFeeBps, checkBackingInput_eq_ok]
  refine ⟨_, hbuilt.decodes, _, _, _, rfl, _, hterms.state, _, hterms.outpoint, (), ?_, _,
    hbuilt.canonical, _, hlaid.buyFee, _, hterms.creator, _, hlaid.creatorFee, ?_⟩
  · exact ⟨input0, by rw [hinputs]; rfl, (vaultInput_ok hvault).1.outpoint⟩
  · rw [hminer]
    rfl

/-- The outputs of a built mint pass their count, unless the last reads as a payload. -/
theorem checkOutputCount_mint (h : buildMintPsbtV3 C scriptForKind params = .ok r)
    (hterms : MintSameTerms params r v)
    (hdirect : ∀ ticker, params.discoveryEnvelope = some ticker →
      ticker.length + digitCount params.mintAmountAtoms ≤ 30) {u : Unit} :
    checkOutputCount v r.psbt.txOutputs 6 = .ok u ↔
      (params.discoveryEnvelope = none → ¬ EndsInDiscovery r.psbt.txOutputs) := by
  have hlaid := buildMintPsbtV3_laid h
  have hwire := (buildMintPsbtV3_ok h).decodes
  rw [← hterms.psbt] at hwire
  have hge := hlaid.outputs_ge
  have hle := hlaid.outputs_le
  cases hticker : params.discoveryEnvelope with
  | none =>
    have hsix : r.psbt.txOutputs.length ≤ 6 := by
      rwa [hticker] at hle
    rw [checkOutputCount_valued hwire (by omega) hsix (hlaid.last hticker)]
    simp
  | some ticker =>
    rw [hticker] at hle
    have hcheck := buildMintPsbtV3_discovery hticker h
    rw [if_pos (hdirect ticker hticker)] at hcheck
    simp only [checkOutputCount, bind_eq_ok, ensure_eq_ok, thrown_eq_ok, hwire, Except.ok.injEq,
      exists_eq_left', hterms.ticker ticker hticker, hcheck]
    simp only [Option.toList_some, List.length_singleton] at hle
    simp
    omega

/-- A built mint is accepted just when it meets the guards its builder does not check. -/
theorem validateMint_built_iff (hX : X.Passes)
    (h : buildMintPsbtV3 C scriptForKind params = .ok r) (hterms : MintSameTerms params r v)
    (hpass : ChecksPass v params.buyerInputs)
    (hmax : r.minerFeeSats ≤ v.maxMinerFeeSats.getD 20000)
    (hdirect : ∀ ticker, params.discoveryEnvelope = some ticker →
      ticker.length + digitCount params.mintAmountAtoms ≤ 30) :
    (∃ a, validateMintTransitionV3 C X v = .ok a) ↔ MintGuards params r v := by
  have hbuilt := buildMintPsbtV3_ok h
  have hlaid := buildMintPsbtV3_laid h
  have hanalysis := analyzeMint_built hbuilt hlaid hterms
  obtain ⟨input0, rest, hinputs, hvault, hrest⟩ := hlaid.vault
  have hinputs' : v.psbt.inputs = input0 :: rest := by rw [hterms.psbt, hinputs]
  have hinput0 : v.psbt.inputs[0]? = some input0 := by rw [hinputs']; rfl
  obtain ⟨successor, hsuccessor, hsuccessorFor⟩ := hbuilt.outputs.get (k := 1) rfl
  obtain ⟨carrier, hcarrier, hcarrierFor⟩ := hbuilt.outputs.get (k := 2) rfl
  have hcarrierScript : carrier.script = params.buyerCarrierScript := hcarrierFor.script
  obtain ⟨fee, hfee, hfeeFor⟩ := hbuilt.outputs.get (k := 3) rfl
  obtain ⟨creator, hcreator, hcreatorFor⟩ := hbuilt.outputs.get (k := 4) rfl
  have hfeePaid := PaysTo.of_outputFor hfee hfeeFor
  have hsettles := feeSettles_iff params.feeScript (params.buyFeeBps.getD coveFeeConfig.buyFeeBps)
    (deterministicFee_nonneg hlaid.buyFee)
  have hw := buildMintSimplicityWitness_ok C hbuilt.canonical
  have hprev : buildBackingVaultV3 C (params.analysis r).currentState v.vaultKeys =
      .ok r.prevVault := hterms.keys ▸ hbuilt.prevVault
  have hnext : buildBackingVaultV3 C (params.analysis r).nextState v.vaultKeys =
      .ok r.nextVault := hterms.keys ▸ hbuilt.nextVault
  constructor
  · intro hparts
    obtain ⟨a, ha⟩ := hparts
    simp only [validateMintTransitionV3, bind_eq_ok, demand_eq_ok, ensure_eq_ok, analyzed_eq_ok,
      thrown_eq_ok, witnessResult_eq_ok, pure_eq_ok, hanalysis, Except.ok.injEq, exists_eq_left',
      hprev, hnext] at ha
    obtain ⟨_, hprofile, _, hin, _, -, _, -, c, hc, _, -, _, hstandard, _, hprotocol, _, -, _, -, _,
      hcount, _, hminer, _, hfund, -⟩ := ha
    rw [hterms.psbt] at hc hprotocol hcount
    obtain rfl : carrier = c := Option.some.inj (hcarrier.symm.trans hc)
    constructor
    case profile => exact requireMainnetProfile_eq_ok.mp hprofile
    case backing => exact (checkVaultInput_vault hinput0 hvault).mp hin
    case carrier => rwa [hcarrierScript] at hstandard
    case feeSettles =>
      have hsettled := (checkProtocolFee_eq_ok.mp hprotocol).2
      rw [hterms.feeScript, hterms.buyFeeBps] at hsettled
      exact hsettles.mp hsettled
    case minerFee => exact (checkMinerFeeBounds_eq_ok.mp hminer).1
    case funding =>
      have hindices : (params.analysis r).buyerInputIndices =
          (List.range v.psbt.inputs.length).drop 1 := by rw [hterms.psbt]; rfl
      rw [hindices] at hfund
      exact (checkFundingInputs_coins hinputs' hrest hpass).mp hfund
    case last => exact (checkOutputCount_mint h hterms hdirect).mp hcount
  · intro hguards
    simp only [validateMintTransitionV3, bind_eq_ok, demand_eq_ok, ensure_eq_ok, analyzed_eq_ok,
      thrown_eq_ok, witnessResult_eq_ok, pure_eq_ok, hanalysis, Except.ok.injEq, exists_eq_left',
      hprev, hnext]
    have hprotocol : FeeSettles r.buyFeeSats v.feeScript
        (v.buyFeeBps.getD coveFeeConfig.buyFeeBps) := by
      rw [hterms.feeScript, hterms.buyFeeBps]
      exact hsettles.mpr hguards.feeSettles
    have hindices : (params.analysis r).buyerInputIndices =
        (List.range v.psbt.inputs.length).drop 1 := by rw [hterms.psbt]; rfl
    refine ⟨_, (), requireMainnetProfile_eq_ok.mpr hguards.profile, (),
      (checkVaultInput_vault hinput0 hvault).mpr hguards.backing, (), rfl, (), ?_, carrier, ?_, (),
      hcarrierFor.value, (), ?_, (), ?_, creator, ?_, (), ⟨hcreatorFor.value, hcreatorFor.script⟩,
      (), ?_, (), checkMinerFeeBounds_eq_ok.mpr ⟨hguards.minerFee, hmax⟩, (), ?_, _, hw, (),
      checkSimplicity_passes (hX.mint _), rfl⟩
    · rw [hterms.psbt]
      exact checkSuccessor_paid hsuccessor hsuccessorFor
    · rw [hterms.psbt]
      exact hcarrier
    · rw [hcarrierScript]
      exact hguards.carrier
    · rw [hterms.psbt]
      exact checkProtocolFee_eq_ok.mpr ⟨hterms.feeScript ▸ hfeePaid, hprotocol⟩
    · rw [hterms.psbt]
      exact hcreator
    · rw [hterms.psbt]
      exact (checkOutputCount_mint h hterms hdirect).mpr hguards.last
    · rw [hindices]
      exact (checkFundingInputs_coins hinputs' hrest hpass).mpr hguards.funding

end Mint

/-! REDEEM. -/

/-- The validator is handed the built PSBT, the view the redeem was built on, and the builder's keys
and fees. -/
structure RedeemSameTerms (params : RedeemParams) (r : RedeemResult) (v : ValidateParams) : Prop where
  psbt : v.psbt = r.psbt
  state : v.view.getCurrentBackingState params.tokenId = some params.prevState
  outpoint : v.view.getBackingOutpoint params.tokenId = some params.prevBacking.outpoint
  keys : v.vaultKeys = params.keys
  feeScript : v.feeScript = params.feeScript
  redeemFeeBps : v.redeemFeeBps = params.redeemFeeBps
  redeemFeeFlatSats : v.redeemFeeFlatSats = params.redeemFeeFlatSats

/-- What the view knows of the coins of a redeem as carriers. -/
def RedeemParams.carriers (params : RedeemParams) (view : CoveCanonicalView) : List TokenUtxo :=
  params.coins.filterMap fun i => view.getTokenUtxo i.outpoint

/-- What the validator asks of a redeem that its builder does not check. -/
structure RedeemGuards (params : RedeemParams) (r : RedeemResult) (v : ValidateParams) : Prop where
  profile : ProfileHeld v
  backing : params.prevBacking.valueSats = reserveAnchorSats + params.prevState.backingSats
  carriers : ∀ tok ∈ params.carriers v.view, tok.tokenId = params.tokenId
  total : ((params.carriers v.view).map TokenUtxo.amountAtoms).sum = params.tokenInputTotalAtoms
  change : 0 < r.changeAtoms → isStandardCarrier params.sellerChangeScript = true
  feeSettles : r.redeemFeeSats = 0 ∨ dustThreshold params.feeScript ≤ r.redeemFeeSats
  minerFee : 0 ≤ r.minerFeeSats
  last : ¬ EndsInDiscovery r.psbt.txOutputs

section Redeem

variable {C : Crypto} {X : SimplicityExecutor} {scriptForKind : ScriptForKind}
  {params : RedeemParams} {r : RedeemResult} {v : ValidateParams}

/-- What the Guardian makes of a built redeem, the carriers it finds given. -/
def RedeemParams.analysis (params : RedeemParams) (r : RedeemResult)
    (toks : List (Nat × TokenUtxo)) : RedeemAnalysis where
  tokenId := params.tokenId
  redeemAmountAtoms := params.redeemAmountAtoms
  changeAllocations := if 0 < r.changeAtoms then [⟨4, r.changeAtoms⟩] else []
  currentState := params.prevState
  backingOutpoint := params.prevBacking.outpoint
  tokenInputOutpoints := toks.map fun t => t.2.outpoint
  tokenInputTotalAtoms := (toks.map fun t => t.2.amountAtoms).sum
  nextState := r.nextState
  grossSats := r.grossSats
  protocolFeeSats := r.redeemFeeSats
  netPayoutSats := r.netSats
  minerFeeSats := r.minerFeeSats
  backingInputIndex := 0
  tokenInputIndices := toks.map Prod.fst

theorem RedeemBuilt.decodes (h : RedeemBuilt C params r) :
    decodeCoveOpReturn r.psbt = .ok (.redeem params.tokenId params.redeemAmountAtoms
      (if 0 < r.changeAtoms then [⟨4, r.changeAtoms⟩] else [])) :=
  decodeCoveOpReturn_paid h.outputs rfl (decode_encodeRedeemV2 h.wire)

theorem outpoints_of_forall₂ {coins : List ResolvedInput} {inputs : List PsbtInput}
    (h : List.Forall₂ InputFor coins inputs) :
    inputs.map PsbtInput.outpoint = coins.map ResolvedInput.outpoint := by
  induction h with
  | nil => rfl
  | cons hi _ ih => rw [List.map_cons, List.map_cons, hi.outpoint, ih]

/-- The carriers found behind the vault are those the view knows among the coins. -/
theorem carriers_of_rest {rest : List PsbtInput} (view : CoveCanonicalView)
    (h : List.Forall₂ InputFor params.coins rest) :
    (knownCarriers view 1 (rest.map PsbtInput.outpoint)).map Prod.snd = params.carriers view := by
  rw [knownCarriers_snd, outpoints_of_forall₂ h, List.filterMap_map]
  rfl

theorem analyzeRedeem_built_iff (hbuilt : RedeemBuilt C params r) (hlaid : RedeemLaid params r)
    (hterms : RedeemSameTerms params r v) {input0 : PsbtInput} {rest : List PsbtInput}
    (hinputs : v.psbt.inputs = input0 :: rest) (h0 : InputFor params.prevBacking input0)
    (hrest : List.Forall₂ InputFor params.coins rest) {a : RedeemAnalysis} :
    analyzeRedeemTransitionV3 v = .ok a ↔
      (∀ tok ∈ params.carriers v.view, tok.tokenId = params.tokenId) ∧
        params.carriers v.view ≠ [] ∧
        a = params.analysis r (knownCarriers v.view 1 (rest.map PsbtInput.outpoint)) := by
  have hdecode := hbuilt.decodes
  rw [← hterms.psbt] at hdecode
  have hminer := minerFee_of_built hbuilt.inputs hbuilt.fee
  rw [← hterms.psbt] at hminer
  have hcarriers := carriers_of_rest v.view hrest
  have hall : (∀ t ∈ knownCarriers v.view 1 (rest.map PsbtInput.outpoint),
      t.2.tokenId = params.tokenId) ↔ ∀ tok ∈ params.carriers v.view,
        tok.tokenId = params.tokenId := by
    rw [← hcarriers, List.forall_mem_map]
  have hne : knownCarriers v.view 1 (rest.map PsbtInput.outpoint) ≠ [] ↔
      params.carriers v.view ≠ [] := by
    rw [← hcarriers, ne_eq, ne_eq, List.map_eq_nil_iff]
  rw [← hall, ← hne]
  simp only [analyzeRedeemTransitionV3, bind_eq_ok, demand_eq_ok, ensure_eq_ok, plain_eq_ok,
    mapError_eq_ok, pure_eq_ok, Prod.exists, asRedeem_eq_some, hterms.redeemFeeBps,
    hterms.redeemFeeFlatSats, checkBackingInput_eq_ok, resolveSellerInputs_eq_ok]
  constructor
  · intro h
    obtain ⟨e, hwire, tokenId, amount, changes, he, s, hs, o, ho, _, _, toks, ⟨htoks, htoken⟩, _,
      hsome, canonical, hcanonical, fee, hfee, ha⟩ := h
    subst he
    obtain ⟨rfl, rfl, rfl⟩ := ParsedEnvelopeV2.redeem.inj
      (Except.ok.inj (hdecode.symm.trans hwire))
    obtain rfl := Option.some.inj (hterms.state.symm.trans hs)
    obtain rfl := Option.some.inj (hterms.outpoint.symm.trans ho)
    obtain rfl := Except.ok.inj (hbuilt.canonical.symm.trans hcanonical)
    obtain rfl := Except.ok.inj (hlaid.redeemFee.symm.trans hfee)
    rw [hinputs, List.drop_one, List.tail_cons] at htoks
    subst htoks ha
    refine ⟨htoken, hsome, ?_⟩
    rw [RedeemParams.analysis, hbuilt.net, hminer]
  · intro h
    obtain ⟨htoken, hsome, ha⟩ := h
    subst ha
    refine ⟨_, hdecode, _, _, _, rfl, _, hterms.state, _, hterms.outpoint, (),
      ⟨input0, by rw [hinputs]; rfl, h0.outpoint⟩, _, ⟨by rw [hinputs]; rfl, htoken⟩, (), hsome, _,
      hbuilt.canonical, _, hlaid.redeemFee, ?_⟩
    rw [RedeemParams.analysis, hbuilt.net, hminer]

/-- Every coin that is no known carrier has passed the checker. -/
theorem checkFundingInputs_others {input0 : PsbtInput} {rest : List PsbtInput}
    (hinputs : v.psbt.inputs = input0 :: rest) (hrest : List.Forall₂ InputFor params.coins rest)
    (hpass : ChecksPass v params.coins) :
    checkFundingInputs v ((List.range v.psbt.inputs.length).filter fun i => i ≠ 0 ∧
      i ∉ (knownCarriers v.view 1 (rest.map PsbtInput.outpoint)).map Prod.fst) = .ok () := by
  obtain ⟨hlen, hget⟩ := List.forall₂_iff_get.mp hrest
  apply checkFundingInputs_eq_ok.mpr
  intro i hi
  simp only [List.mem_filter, List.mem_range, decide_eq_true_eq] at hi
  obtain ⟨hlt, hpos, hnot⟩ := hi
  obtain ⟨k, rfl⟩ := Nat.exists_eq_succ_of_ne_zero hpos
  rw [hinputs, List.length_cons] at hlt
  have hk : k < rest.length := by omega
  have hcoin : k < params.coins.length := by omega
  have hfor : rest[k].outpoint = params.coins[k].outpoint := (hget k hcoin hk).outpoint
  have hnone : v.view.getTokenUtxo rest[k].outpoint = none := by
    by_contra hsome
    obtain ⟨tok, htok⟩ := Option.ne_none_iff_exists'.mp hsome
    apply hnot
    apply List.mem_map.mpr
    refine ⟨(k + 1, tok), mem_knownCarriers.mpr ⟨rest[k].outpoint, by omega, ?_, htok⟩, rfl⟩
    rw [Nat.add_sub_cancel, List.getElem?_map, List.getElem?_eq_getElem hk]
    rfl
  refine ⟨rest[k], ?_, hnone, ?_⟩
  · rw [hinputs, List.getElem?_cons_succ, List.getElem?_eq_getElem hk]
  · rw [hfor] at hnone ⊢
    exact hpass _ (List.getElem_mem hcoin) hnone

theorem sumAllocations_change {changeAtoms : Int} (h : 0 ≤ changeAtoms) :
    sumAllocations (if 0 < changeAtoms then [⟨4, changeAtoms⟩] else []) = changeAtoms := by
  by_cases hpos : 0 < changeAtoms
  · simp [sumAllocations, hpos]
  · simp [sumAllocations, hpos]
    omega

theorem RedeemParams.payments_four (h : 0 < r.changeAtoms) :
    (params.payments r)[4]? = some ⟨params.sellerChangeScript, tokenCarrierSats⟩ := by
  rw [payments, if_pos h]
  rfl

/-- The change carrier of a built redeem is where it should be; only its script is open. -/
theorem changeCarried_iff (hbuilt : RedeemBuilt C params r) :
    ChangeCarried r.psbt.txOutputs r.changeAtoms
        (if 0 < r.changeAtoms then [⟨4, r.changeAtoms⟩] else []) ↔
      (0 < r.changeAtoms → isStandardCarrier params.sellerChangeScript = true) := by
  unfold ChangeCarried
  by_cases hpos : 0 < r.changeAtoms
  · obtain ⟨o, hget, ho⟩ := hbuilt.outputs.get (RedeemParams.payments_four hpos)
    have hscript : o.script = params.sellerChangeScript := ho.script
    simp only [hpos, forall_const]
    constructor
    · intro h
      obtain ⟨⟨o', hget', _, hstandard⟩, _⟩ := h
      obtain rfl : o = o' := Option.some.inj (hget.symm.trans hget')
      rwa [hscript] at hstandard
    · intro hstandard
      exact ⟨⟨o, hget, ho.value, by rwa [hscript]⟩, rfl⟩
  · simp [hpos]

/-- A built redeem is accepted just when it meets the guards its builder does not check. -/
theorem validateRedeem_built_iff (hX : X.Passes)
    (h : buildRedeemPsbtV3 C scriptForKind params = .ok r) (hterms : RedeemSameTerms params r v)
    (hpass : ChecksPass v params.coins) (hmax : r.minerFeeSats ≤ v.maxMinerFeeSats.getD 20000) :
    (∃ a, validateRedeemTransitionV3 C X v = .ok a) ↔ RedeemGuards params r v := by
  have hbuilt := buildRedeemPsbtV3_ok h
  have hlaid := buildRedeemPsbtV3_laid h
  obtain ⟨input0, rest, hinputs, hvault, hrest⟩ := hlaid.vault
  have hinputs' : v.psbt.inputs = input0 :: rest := by rw [hterms.psbt, hinputs]
  have hinput0 : v.psbt.inputs[0]? = some input0 := by rw [hinputs']; rfl
  have hanalysis := fun {a} => analyzeRedeem_built_iff hbuilt hlaid hterms hinputs'
    (vaultInput_ok hvault).1 hrest (a := a)
  have htoks := carriers_of_rest v.view hrest
  generalize htoksEq : knownCarriers v.view 1 (rest.map PsbtInput.outpoint) = toks at *
  have htotal : (toks.map fun t => t.2.amountAtoms).sum =
      ((params.carriers v.view).map TokenUtxo.amountAtoms).sum := by
    rw [← htoks, List.map_map]
    rfl
  obtain ⟨successor, hsuccessor, hsuccessorFor⟩ := hbuilt.outputs.get (k := 1) rfl
  obtain ⟨payout, hpayout, hpayoutFor⟩ := hbuilt.outputs.get (k := 2) rfl
  obtain ⟨fee, hfee, hfeeFor⟩ := hbuilt.outputs.get (k := 3) rfl
  have hfeePaid := PaysTo.of_outputFor hfee hfeeFor
  have hsettles := feeSettles_iff params.feeScript
    (params.redeemFeeBps.getD coveFeeConfig.redeemFeeBps)
    (deterministicFee_nonneg hlaid.redeemFee)
  have hw := buildRedeemSimplicityWitness_ok C hbuilt.canonical
  have hwire := hbuilt.decodes
  rw [← hterms.psbt] at hwire
  have hcountIff := fun {u : Unit} => checkOutputCount_valued (u := u) hwire
    (by have := hlaid.outputs_ge; omega) hlaid.outputs_le hlaid.last
  have hprev : buildBackingVaultV3 C (params.analysis r toks).currentState v.vaultKeys =
      .ok r.prevVault := hterms.keys ▸ hbuilt.prevVault
  have hnext : buildBackingVaultV3 C (params.analysis r toks).nextState v.vaultKeys =
      .ok r.nextVault := hterms.keys ▸ hbuilt.nextVault
  have hsumChange := sumAllocations_change hlaid.changeAtoms_nonneg
  have hchangeAtoms := hbuilt.changeAtoms
  constructor
  · intro hparts
    obtain ⟨a, ha⟩ := hparts
    simp only [validateRedeemTransitionV3, bind_eq_ok, demand_eq_ok, ensure_eq_ok, analyzed_eq_ok,
      thrown_eq_ok, witnessResult_eq_ok, pure_eq_ok, hanalysis] at ha
    obtain ⟨_, hprofile, _, ⟨htoken, _, rfl⟩, vault, hvault', _, _, _, hin, _, _, _, hsum, _, _, _, _,
      _, _, _, hprotocol, _, hchange, _, hcount, _, _, _, hminer, -⟩ := ha
    obtain rfl := Except.ok.inj (hprev.symm.trans hvault')
    have htotalEq : (toks.map fun t => t.2.amountAtoms).sum = params.tokenInputTotalAtoms := by
      have hsum' : sumAllocations (if 0 < r.changeAtoms then [⟨4, r.changeAtoms⟩] else []) =
          (toks.map fun t => t.2.amountAtoms).sum - params.redeemAmountAtoms := hsum
      omega
    have hatoms : (params.analysis r toks).tokenInputTotalAtoms -
        (params.analysis r toks).redeemAmountAtoms = r.changeAtoms := by
      rw [hchangeAtoms, ← htotalEq]
      rfl
    rw [hatoms] at hchange hcount
    rw [hterms.psbt] at hprotocol hchange hcount
    constructor
    case profile => exact requireMainnetProfile_eq_ok.mp hprofile
    case backing => exact (checkVaultInput_vault hinput0 hvault).mp hin
    case carriers => exact htoken
    case total => rw [← htotal, htotalEq]
    case change => exact (changeCarried_iff hbuilt).mp (checkChangeCarrier_eq_ok.mp hchange)
    case feeSettles =>
      have hsettled := (checkProtocolFee_eq_ok.mp hprotocol).2
      rw [hterms.feeScript, hterms.redeemFeeBps] at hsettled
      exact hsettles.mp hsettled
    case minerFee => exact (checkMinerFeeBounds_eq_ok.mp hminer).1
    case last => exact hcountIff.mp hcount
  · intro hguards
    have htotalEq : (toks.map fun t => t.2.amountAtoms).sum = params.tokenInputTotalAtoms := by
      rw [htotal, hguards.total]
    have hatoms : (params.analysis r toks).tokenInputTotalAtoms -
        (params.analysis r toks).redeemAmountAtoms = r.changeAtoms := by
      rw [hchangeAtoms, ← htotalEq]
      rfl
    have hredeemPos := (applyRedeemV2_iff.mp hbuilt.canonical).amount_pos
    have hnonneg := hlaid.changeAtoms_nonneg
    have hsome : params.carriers v.view ≠ [] := by
      intro hnil
      have hzero := hguards.total
      rw [hnil, List.map_nil, List.sum_nil] at hzero
      omega
    have hprotocol : FeeSettles r.redeemFeeSats v.feeScript
        (v.redeemFeeBps.getD coveFeeConfig.redeemFeeBps) := by
      rw [hterms.feeScript, hterms.redeemFeeBps]
      exact hsettles.mpr hguards.feeSettles
    have hgross := applyRedeemV2_gross hbuilt.canonical
    have hnet := hbuilt.net
    simp only [validateRedeemTransitionV3, bind_eq_ok, demand_eq_ok, ensure_eq_ok, analyzed_eq_ok,
      thrown_eq_ok, witnessResult_eq_ok, pure_eq_ok, hanalysis]
    refine ⟨_, (), requireMainnetProfile_eq_ok.mpr hguards.profile, _,
      ⟨hguards.carriers, hsome, rfl⟩, _, hprev, _, hnext, (),
      (checkVaultInput_vault hinput0 hvault).mpr hguards.backing, (), ?_, (), ?_, (), ?_, payout, ?_,
      (), hpayoutFor.value, (), ?_, (), ?_, (), ?_, (), ?_, (),
      checkMinerFeeBounds_eq_ok.mpr ⟨hguards.minerFee, hmax⟩, (), ?_, _, hw, (),
      checkSimplicity_passes (hX.redeem _), rfl⟩
    · omega
    · rw [hatoms]
      exact hsumChange
    · rw [hterms.psbt]
      exact checkSuccessor_paid hsuccessor hsuccessorFor
    · rw [hterms.psbt]
      exact hpayout
    · rw [hterms.psbt]
      exact checkProtocolFee_eq_ok.mpr ⟨hterms.feeScript ▸ hfeePaid, hprotocol⟩
    · rw [hatoms, hterms.psbt]
      exact checkChangeCarrier_eq_ok.mpr ((changeCarried_iff hbuilt).mpr hguards.change)
    · rw [hatoms, hterms.psbt]
      exact hcountIff.mpr hguards.last
    · show reserveAnchorSats + params.prevState.backingSats =
        reserveAnchorSats + r.nextState.backingSats + r.netSats + r.redeemFeeSats
      dsimp only at hgross
      omega
    · rw [← htoksEq]
      exact checkFundingInputs_others hinputs' hrest hpass

end Redeem

/-- A built PSBT within the fee limit is accepted with the same view, keys and fees just when it
meets the guards of its validator that the builder does not check. -/
theorem built_transitions_validate {C : Crypto} {X : SimplicityExecutor}
    {scriptForKind : ScriptForKind} (hX : X.Passes) :
    (∀ params r v, buildMintPsbtV3 C scriptForKind params = .ok r → MintSameTerms params r v →
      ChecksPass v params.buyerInputs → r.minerFeeSats ≤ v.maxMinerFeeSats.getD 20000 →
      (∀ ticker, params.discoveryEnvelope = some ticker →
        ticker.length + digitCount params.mintAmountAtoms ≤ 30) →
      ((∃ a, validateMintTransitionV3 C X v = .ok a) ↔ MintGuards params r v)) ∧
    (∀ params r v, buildRedeemPsbtV3 C scriptForKind params = .ok r → RedeemSameTerms params r v →
      ChecksPass v params.coins → r.minerFeeSats ≤ v.maxMinerFeeSats.getD 20000 →
      ((∃ a, validateRedeemTransitionV3 C X v = .ok a) ↔ RedeemGuards params r v)) :=
  ⟨fun _ _ _ h hterms hpass hmax hdirect => validateMint_built_iff hX h hterms hpass hmax hdirect,
    fun _ _ _ h hterms hpass hmax => validateRedeem_built_iff hX h hterms hpass hmax⟩

/-- A script that can be spent is no discovery payload. -/
theorem not_endsInDiscovery {outs : List TxOut}
    (h : ∀ o ∈ outs.getLast?, o.script.getD 0 0 ≠ 0x6a) : ¬ EndsInDiscovery outs := by
  intro hparts
  obtain ⟨last, hlast, payload, hpayload, _⟩ := hparts
  rw [opReturnPayload, if_pos (.inr (h last hlast))] at hpayload
  cases hpayload

/-! The mint of a million tokens, and the redeem of them. -/

def millionView (state : CoveStateV2) (backing carrier : OutPoint) : CoveCanonicalView where
  getCurrentBackingState t := if t = millionId then some state else none
  getBackingOutpoint t := if t = millionId then some backing else none
  getTokenUtxo o := if o = carrier then
    some ⟨o, millionId, 100000000000000, millionScript 3⟩ else none
  getTokenCreatorScript t := if t = millionId then some (millionScript 6) else none

/-- The checker refuses the carrier and nothing else. -/
def millionValidate (psbt : Psbt) (view : CoveCanonicalView) : ValidateParams where
  psbt := psbt
  view := view
  network := .regtest
  guardianXOnly := millionKeys.guardianXOnly
  recoveryKeyXOnly := millionKeys.recoveryKeyXOnly
  recoveryProfile := none
  feeScript := millionScript 5
  maxMinerFeeSats := none
  buyFeeBps := none
  buyFeeFlatSats := none
  creatorFeeBps := none
  redeemFeeBps := none
  redeemFeeFlatSats := none
  discoveryTicker := some (Bytes.ascii "ALPHA")
  fundingChecker := ⟨fun o => .ok (if (view.getTokenUtxo o).isSome then
    .refused .fundingHoldsToken "holds Cove tokens" else .ok)⟩

theorem millionValidate_checks (psbt : Psbt) (view : CoveCanonicalView)
    (coins : List ResolvedInput) : ChecksPass (millionValidate psbt view) coins := by
  intro i _ hnone
  have hview : view.getTokenUtxo i.outpoint = none := hnone
  simp [millionValidate, hview]

theorem millionValidate_profile (psbt : Psbt) (view : CoveCanonicalView) :
    ProfileHeld (millionValidate psbt view) := by
  left
  show Network.regtest ≠ Network.mainnet
  decide

theorem millionValidate_fee (psbt : Psbt) (view : CoveCanonicalView) :
    1000 ≤ (millionValidate psbt view).maxMinerFeeSats.getD 20000 := by
  show (1000 : Int) ≤ 20000
  decide

theorem alpha_direct (ticker : Bytes) (h : some (Bytes.ascii "ALPHA") = some ticker) :
    ticker.length + digitCount 100000000000000 ≤ 30 := by
  obtain rfl := Option.some.inj h
  decide

theorem passingExecutor_passes : passingExecutor.Passes :=
  ⟨fun _ => ⟨rfl, by simp [passingExecutor]⟩, fun _ => ⟨rfl, by simp [passingExecutor]⟩⟩

/-- The view before the mint; the carrier in it is another coin. -/
def millionFreshView : CoveCanonicalView :=
  millionView ⟨2, 3, millionId, 0, 0, 1⟩ ⟨List.replicate 32 1, 1⟩ ⟨List.replicate 32 7, 2⟩

theorem millionMint_sameTerms (carrierScript : Bytes) (r : MintResult) :
    MintSameTerms { millionMint (Bytes.ascii "ALPHA") with buyerCarrierScript := carrierScript } r
      (millionValidate r.psbt millionFreshView) := by
  constructor
  case ticker => exact fun _ h => h
  all_goals rfl

def millionRedeem : RedeemParams where
  tokenId := millionId
  prevState := ⟨2, 3, millionId, 100000000000000, 148500, 11⟩
  prevBacking := ⟨List.replicate 32 8, 1, 0x51 :: 0x20 ::
    Bytes.ofNatBE 32 0x8c6c9e9259b6a7bb1237b7b8389c6414c2674e4c6d25a3d274b741405cf8eabf, 158500,
    none⟩
  redeemAmountAtoms := 100000000000000
  tokenInputs := [⟨List.replicate 32 7, 2, millionScript 3, 1000, none⟩]
  tokenInputTotalAtoms := 100000000000000
  keys := millionKeys
  sellerPayoutScript := millionScript 4
  sellerChangeScript := millionScript 3
  feeScript := millionScript 5
  minerFeeSats := 1000

/-- The view before the redeem. -/
def millionRedeemView : CoveCanonicalView :=
  millionView millionRedeem.prevState millionRedeem.prevBacking.outpoint
    ⟨List.replicate 32 7, 2⟩

/-- The builder takes a carrier script the validator does not. -/
theorem p2sh_carrier_refused : ¬ ∀ (C : Crypto) (X : SimplicityExecutor)
    (scriptForKind : ScriptForKind) (params : MintParams) (r : MintResult) (v : ValidateParams),
    X.Passes → buildMintPsbtV3 C scriptForKind params = .ok r → MintSameTerms params r v →
    ChecksPass v params.buyerInputs → r.minerFeeSats ≤ v.maxMinerFeeSats.getD 20000 →
    ∃ a, validateMintTransitionV3 C X v = .ok a := by
  intro h
  have hbuilt : ((buildMintPsbtV3 millionCrypto noKeys { millionMint (Bytes.ascii "ALPHA") with
      buyerCarrierScript := 0xa9 :: 0x14 :: List.replicate 20 3 ++ [0x87] }).toOption.any fun r =>
        r.minerFeeSats ≤ 20000) = true := by
    decide +kernel
  obtain ⟨r, hr, hfee⟩ := (Option.any_eq_true _ _).mp hbuilt
  rw [toOption_eq_some] at hr
  have hterms := millionMint_sameTerms (0xa9 :: 0x14 :: List.replicate 20 3 ++ [0x87]) r
  have hpass := millionValidate_checks r.psbt millionFreshView
    (millionMint (Bytes.ascii "ALPHA")).buyerInputs
  have hvalid := h _ _ _ _ r _ passingExecutor_passes hr hterms hpass (of_decide_eq_true hfee)
  have hguards := (validateMint_built_iff passingExecutor_passes hr hterms hpass
    (of_decide_eq_true hfee) alpha_direct).mp hvalid
  have hcarrier := hguards.carrier
  revert hcarrier
  decide

/-- The mint and the redeem are accepted. -/
theorem built_transitions_validate_million :
    (∃ r a, buildMintPsbtV3 millionCrypto noKeys (millionMint (Bytes.ascii "ALPHA")) = .ok r ∧
      validateMintTransitionV3 millionCrypto passingExecutor
        (millionValidate r.psbt millionFreshView) = .ok a) ∧
    ∃ r a, buildRedeemPsbtV3 millionCrypto noKeys millionRedeem = .ok r ∧
      validateRedeemTransitionV3 millionCrypto passingExecutor
        (millionValidate r.psbt millionRedeemView) = .ok a := by
  have hbuilt : ((buildMintPsbtV3 millionCrypto noKeys
      (millionMint (Bytes.ascii "ALPHA"))).toOption.any fun r =>
        330 ≤ r.buyFeeSats ∧ r.minerFeeSats = 1000) = true ∧
      ((buildRedeemPsbtV3 millionCrypto noKeys millionRedeem).toOption.any fun r =>
        330 ≤ r.redeemFeeSats ∧ r.minerFeeSats = 1000 ∧ r.changeAtoms = 0 ∧
          r.psbt.txOutputs.getLast?.all fun o => o.script.getD 0 0 ≠ 0x6a) = true := by
    decide +kernel
  obtain ⟨hmint, hredeem⟩ := hbuilt
  constructor
  · obtain ⟨r, hr, hfacts⟩ := (Option.any_eq_true _ _).mp hmint
    obtain ⟨hbuy, hminer⟩ := of_decide_eq_true hfacts
    rw [toOption_eq_some] at hr
    have hguards : MintGuards (millionMint (Bytes.ascii "ALPHA")) r
        (millionValidate r.psbt millionFreshView) := by
      constructor
      case profile => exact millionValidate_profile _ _
      case backing => rfl
      case carrier => decide
      case feeSettles => exact .inr (le_trans (by decide) hbuy)
      case minerFee => omega
      case funding =>
        show ∀ i ∈ (millionMint []).buyerInputs, millionFreshView.getTokenUtxo i.outpoint = none
        decide
      case last => exact nofun
    obtain ⟨a, ha⟩ := ((built_transitions_validate passingExecutor_passes).1 _ r _ hr
      (millionMint_sameTerms _ r) (millionValidate_checks _ _ _) (hminer ▸ millionValidate_fee _ _)
      alpha_direct).mpr hguards
    exact ⟨r, a, hr, ha⟩
  · obtain ⟨r, hr, hfacts⟩ := (Option.any_eq_true _ _).mp hredeem
    obtain ⟨hfee, hminer, hchange, hlast⟩ := of_decide_eq_true hfacts
    rw [toOption_eq_some] at hr
    have hterms : RedeemSameTerms millionRedeem r (millionValidate r.psbt millionRedeemView) := by
      constructor <;> rfl
    have hguards : RedeemGuards millionRedeem r (millionValidate r.psbt millionRedeemView) := by
      constructor
      case profile => exact millionValidate_profile _ _
      case backing => rfl
      case carriers =>
        show ∀ tok ∈ millionRedeem.carriers millionRedeemView, tok.tokenId = millionId
        decide
      case total =>
        show ((millionRedeem.carriers millionRedeemView).map TokenUtxo.amountAtoms).sum =
          100000000000000
        decide
      case change => omega
      case feeSettles => exact .inr (le_trans (by decide) hfee)
      case minerFee => omega
      case last =>
        apply not_endsInDiscovery
        intro o ho
        have hspend := hlast
        rw [Option.mem_def.mp ho] at hspend
        exact of_decide_eq_true hspend
    obtain ⟨a, ha⟩ := ((built_transitions_validate passingExecutor_passes).2 _ r _ hr hterms
      (millionValidate_checks _ _ _) (hminer ▸ millionValidate_fee _ _)).mpr hguards
    exact ⟨r, a, hr, ha⟩

end Cove
