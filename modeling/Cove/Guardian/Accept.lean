import Cove.Covenant.Transition
import Cove.Guardian.Validate
import Cove.Indexer.Chain

/-! What the Guardian has checked of a PSBT it accepts, and that no accepted transition lets
backing pay a fee or a carrier. -/

namespace Cove

open Checked

/-- Output 1 is the vault of a state, holding the anchor and the state's backing. -/
def PaysVault (C : Crypto) (keys : VaultKeys) (outs : List TxOut) (s : CoveStateV2) : Prop :=
  ∃ vault out, buildBackingVaultV3 C s keys = .ok vault ∧ outs[1]? = some out ∧
    out.script = vault.scriptPubKey ∧ (out.value : Int) = reserveAnchorSats + s.backingSats

/-- An output pays a script a value. -/
def PaysTo (outs : List TxOut) (vout : Nat) (value : Int) (script : Bytes) : Prop :=
  ∃ out, outs[vout]? = some out ∧ (out.value : Int) = value ∧ out.script = script

/-- An output can carry tokens. -/
def CarriesTokens (outs : List TxOut) (vout : Nat) : Prop :=
  ∃ out, outs[vout]? = some out ∧ (out.value : Int) = tokenCarrierSats ∧
    isStandardCarrier out.script = true

/-- Input 0 is worth the vault of a state. -/
def SpendsVault (psbt : Psbt) (s : CoveStateV2) : Prop :=
  ∃ input utxo, psbt.inputs[0]? = some input ∧ input.witnessUtxo = some utxo ∧
    (utxo.value : Int) = reserveAnchorSats + s.backingSats

/-- A fee that is no dust at the fee script. -/
def FeeSettles (feeSats : Int) (feeScript : Bytes) (feeBps : Int) : Prop :=
  ∃ settlement, checkFeeSettlement feeSats feeScript feeBps = .ok settlement ∧
    settlement.isStandard = true

/-- The inputs at the given indexes hold no token the view knows and pass the checker. -/
def FundsClean (params : ValidateParams) (indices : List Nat) : Prop :=
  ∀ i ∈ indices, ∀ input, params.psbt.inputs[i]? = some input →
    params.view.getTokenUtxo input.outpoint = none ∧
      params.fundingChecker.check input.outpoint = .ok .ok

/-- The last output is a discovery payload that agrees with the envelope. -/
def DiscoveryAgrees (params : ValidateParams) : Prop :=
  ∃ binary, decodeCoveOpReturn params.psbt = .ok binary ∧
    (checkDiscoveryOutput params.psbt.txOutputs binary params.discoveryTicker).agrees = true

/-- There are at most so many outputs, or one more when the last is a discovery payload. -/
def OutputsBounded (params : ValidateParams) (maxOutputs : Nat) : Prop :=
  params.psbt.txOutputs.length ≤ maxOutputs ∨
    params.psbt.txOutputs.length = maxOutputs + 1 ∧ DiscoveryAgrees params

theorem Psbt.Extracts.input0 {psbt : Psbt} {tx : Transaction} (hx : psbt.Extracts tx) {input : PsbtInput}
    (h : psbt.inputs[0]? = some input) :
    ∃ ins0, tx.ins[0]? = some ins0 ∧ ins0.outpoint = input.outpoint := by
  have hget : (tx.ins.map TxIn.outpoint)[0]? = some input.outpoint := by
    rw [show tx.ins.map TxIn.outpoint = _ from hx.spends, List.getElem?_map, h]
    rfl
  rwa [List.getElem?_map, Option.map_eq_some_iff] at hget

section Checks

variable {C : Crypto} {params : ValidateParams}

theorem analyzed_eq_ok {α : Type} {x : Except CoveAnalyzeError α} {a : α} :
    analyzed x = .ok a ↔ x = .ok a := mapError_eq_ok

theorem thrown_eq_ok {α : Type} {x : Except Fault α} {a : α} : thrown x = .ok a ↔ x = .ok a :=
  mapError_eq_ok

theorem plain_eq_ok {α : Type} {x : Except Fault α} {a : α} : plain x = .ok a ↔ x = .ok a :=
  mapError_eq_ok

theorem witnessResult_eq_ok {α : Type} {x : Except Fault α} {a : α} :
    witnessResult x = .ok a ↔ x = .ok a := mapError_eq_ok

theorem asMint_eq_some {e : ParsedEnvelopeV2} {t : Bytes} {a : Int} {v : Nat} :
    e.asMint = some (t, a, v) ↔ e = .mint t a v := by
  cases e <;> simp [ParsedEnvelopeV2.asMint]

theorem asRedeem_eq_some {e : ParsedEnvelopeV2} {t : Bytes} {a : Int} {l : List TokenAllocation} :
    e.asRedeem = some (t, a, l) ↔ e = .redeem t a l := by
  cases e <;> simp [ParsedEnvelopeV2.asRedeem]

theorem asTransfer_eq_some {e : ParsedEnvelopeV2} {t : Bytes} {l : List TokenAllocation} :
    e.asTransfer = some (t, l) ↔ e = .transfer t l := by
  cases e <;> simp [ParsedEnvelopeV2.asTransfer]

theorem checkBackingInput_eq_ok {o : OutPoint} {u : Unit} : checkBackingInput params o = .ok u ↔
    ∃ input, params.psbt.inputs[0]? = some input ∧ input.outpoint = o := by
  simp only [checkBackingInput, bind_eq_ok, demand_eq_ok, ensure_eq_ok]

theorem checkVaultInput_ok {vault : CoveVaultV3} {opName : String} {leafScript controlBlock : Bytes}
    {s : CoveStateV2} {u : Unit}
    (h : checkVaultInput params.psbt vault opName leafScript controlBlock s = .ok u) :
    SpendsVault params.psbt s := by
  simp only [checkVaultInput, bind_eq_ok, demand_eq_ok, ensure_eq_ok] at h
  obtain ⟨input, hi, _, -, _, -, _, -, _, -, _, -, utxo, hu, hv⟩ := h
  exact ⟨input, utxo, hi, hu, hv⟩

theorem checkSuccessor_ok {outs : List TxOut} {vault : CoveVaultV3} {s : CoveStateV2} {u : Unit}
    (hvault : buildBackingVaultV3 C s params.vaultKeys = .ok vault)
    (h : checkSuccessor outs vault s = .ok u) : PaysVault C params.vaultKeys outs s := by
  simp only [checkSuccessor, bind_eq_ok, demand_eq_ok, ensure_eq_ok] at h
  obtain ⟨out, ho, _, hs, hv⟩ := h
  exact ⟨vault, out, hvault, ho, hs, hv⟩

theorem checkProtocolFee_eq_ok {outs : List TxOut} {feeSats feeBps : Int} {u : Unit} :
    checkProtocolFee params outs feeSats feeBps = .ok u ↔
      PaysTo outs 3 feeSats params.feeScript ∧ FeeSettles feeSats params.feeScript feeBps := by
  simp only [checkProtocolFee, bind_eq_ok, demand_eq_ok, ensure_eq_ok, thrown_eq_ok]
  constructor
  · intro h
    obtain ⟨out, ho, _, hv, _, hs, settlement, hset, hstd⟩ := h
    exact ⟨⟨out, ho, hv, hs⟩, settlement, hset, hstd⟩
  · intro h
    obtain ⟨⟨out, ho, hv, hs⟩, settlement, hset, hstd⟩ := h
    exact ⟨out, ho, (), hv, (), hs, settlement, hset, hstd⟩

/-- An agreeing discovery output is the one allowance there is. -/
theorem checkDiscoveryOutput_allowance (outs : List TxOut) (binary : ParsedEnvelopeV2)
    (ticker : Option Bytes) (h : (checkDiscoveryOutput outs binary ticker).present = false ∨
      (checkDiscoveryOutput outs binary ticker).agrees = true) :
    (checkDiscoveryOutput outs binary ticker).allowance = 0 ∨
      (checkDiscoveryOutput outs binary ticker).allowance = 1 ∧
        (checkDiscoveryOutput outs binary ticker).agrees = true := by
  revert h
  unfold checkDiscoveryOutput
  split
  · simp
  split
  · simp
  split
  · simp
  split
  · simp
  split
  · simp
  split <;> simp

theorem checkOutputCount_ok {maxOutputs : Nat} {u : Unit}
    (h : checkOutputCount params params.psbt.txOutputs maxOutputs = .ok u) :
    OutputsBounded params maxOutputs := by
  simp only [checkOutputCount, bind_eq_ok, ensure_eq_ok, thrown_eq_ok] at h
  obtain ⟨binary, hb, _, hagree, hlen⟩ := h
  rcases checkDiscoveryOutput_allowance _ _ _ hagree with h0 | ⟨h1, ha⟩
  · left
    omega
  · by_cases hle : params.psbt.txOutputs.length ≤ maxOutputs
    · exact Or.inl hle
    · exact Or.inr ⟨by omega, binary, hb, ha⟩

theorem checkMinerFeeBounds_eq_ok {fee max : Int} {u : Unit} :
    checkMinerFeeBounds fee max = .ok u ↔ 0 ≤ fee ∧ fee ≤ max := by
  simp only [checkMinerFeeBounds, bind_eq_ok, ensure_eq_ok, exists_and_left, exists_const]

theorem checkFundingInputs_eq_ok {indices : List Nat} {u : Unit} :
    checkFundingInputs params indices = .ok u ↔ ∀ i ∈ indices, ∃ input,
      params.psbt.inputs[i]? = some input ∧ params.view.getTokenUtxo input.outpoint = none ∧
        params.fundingChecker.check input.outpoint = .ok .ok := by
  induction indices with
  | nil => simp [checkFundingInputs]
  | cons i indices ih =>
    simp only [checkFundingInputs, bind_eq_ok, demand_eq_ok, ensure_eq_ok, thrown_eq_ok,
      List.forall_mem_cons]
    constructor
    · intro h
      obtain ⟨input, hi, _, hview, verdict, hcheck, h⟩ := h
      cases verdict with
      | refused code detail => simp at h
      | ok => exact ⟨⟨input, hi, hview, hcheck⟩, ih.mp h⟩
    · intro hparts
      obtain ⟨⟨input, hi, hview, hcheck⟩, hrest⟩ := hparts
      exact ⟨input, hi, (), hview, .ok, hcheck, ih.mpr hrest⟩

theorem checkFundingInputs_ok {indices : List Nat} {u : Unit}
    (h : checkFundingInputs params indices = .ok u) : FundsClean params indices := by
  intro i hi input hget
  obtain ⟨input', hget', hview, hcheck⟩ := checkFundingInputs_eq_ok.mp h i hi
  obtain rfl : input' = input := Option.some.inj (hget'.symm.trans hget)
  exact ⟨hview, hcheck⟩

theorem checkSimplicity_ok {sim : SimplicityExecutionResult} {u : Unit}
    (h : checkSimplicity sim = .ok u) : sim.pass = true := by
  simp only [checkSimplicity, bind_eq_ok, ensure_eq_ok] at h
  obtain ⟨_, -, hpass⟩ := h
  exact hpass

/-- The carriers the view knows among outpoints, with their indexes counted from `i`. -/
def knownCarriers (view : CoveCanonicalView) (i : Nat) (outpoints : List OutPoint) :
    List (Nat × TokenUtxo) :=
  (outpoints.zipIdx i).filterMap fun (o, j) => (view.getTokenUtxo o).map fun tok => (j, tok)

theorem knownCarriers_cons (view : CoveCanonicalView) (i : Nat) (o : OutPoint)
    (outpoints : List OutPoint) : knownCarriers view i (o :: outpoints) =
      ((view.getTokenUtxo o).map fun tok => (i, tok)).toList ++
        knownCarriers view (i + 1) outpoints := by
  cases hv : view.getTokenUtxo o with
  | none => simp [knownCarriers, List.zipIdx_cons, hv]
  | some tok => simp [knownCarriers, List.zipIdx_cons, hv]

theorem knownCarriers_snd (view : CoveCanonicalView) (i : Nat) (outpoints : List OutPoint) :
    (knownCarriers view i outpoints).map Prod.snd = outpoints.filterMap view.getTokenUtxo := by
  induction outpoints generalizing i with
  | nil => rfl
  | cons o outpoints ih =>
    rw [knownCarriers_cons, List.map_append, ih, List.filterMap_cons]
    cases view.getTokenUtxo o <;> rfl

theorem mem_knownCarriers {view : CoveCanonicalView} {i j : Nat} {outpoints : List OutPoint}
    {tok : TokenUtxo} : (j, tok) ∈ knownCarriers view i outpoints ↔
      ∃ o, i ≤ j ∧ outpoints[j - i]? = some o ∧ view.getTokenUtxo o = some tok := by
  simp only [knownCarriers, List.mem_filterMap, Prod.exists,
    List.mk_mem_zipIdx_iff_le_and_getElem?_sub, Option.map_eq_some_iff, Prod.mk.injEq]
  constructor
  · intro h
    obtain ⟨o, k, ⟨hle, hget⟩, tok', hview, hk, htok⟩ := h
    subst hk htok
    exact ⟨o, hle, hget, hview⟩
  · intro h
    obtain ⟨o, hle, hget, hview⟩ := h
    exact ⟨o, j, ⟨hle, hget⟩, tok, hview, rfl, rfl⟩

/-- The loop finds the known carriers, or one of another token. -/
theorem resolveSellerInputs_eq_ok {view : CoveCanonicalView} {tokenId : Bytes}
    {inputs : List PsbtInput} {i : Nat} {toks : List (Nat × TokenUtxo)} :
    resolveSellerInputs view tokenId i inputs = .ok toks ↔
      toks = knownCarriers view i (inputs.map PsbtInput.outpoint) ∧
        ∀ t ∈ toks, t.2.tokenId = tokenId := by
  induction inputs generalizing i toks with
  | nil =>
    rw [resolveSellerInputs, Except.ok.injEq, eq_comm]
    constructor
    · intro h
      subst h
      exact ⟨rfl, by simp⟩
    · intro h
      exact h.1
  | cons input inputs ih =>
    rw [resolveSellerInputs, List.map_cons, knownCarriers_cons]
    cases hv : view.getTokenUtxo input.outpoint with
    | none => exact ih
    | some tok =>
      simp only [bind_eq_ok, ensure_eq_ok, pure_eq_ok, ih]
      constructor
      · intro hparts
        obtain ⟨_, htok, rest, ⟨hrest, hall⟩, hcons⟩ := hparts
        subst hcons hrest
        exact ⟨rfl, List.forall_mem_cons.mpr ⟨htok, hall⟩⟩
      · intro hparts
        obtain ⟨hcons, hall⟩ := hparts
        subst hcons
        obtain ⟨htok, hall⟩ := List.forall_mem_cons.mp hall
        exact ⟨(), htok, _, ⟨rfl, hall⟩, rfl⟩

/-- The inputs the analysis takes for the token's carriers, with their indexes. -/
theorem resolveSellerInputs_ok {view : CoveCanonicalView} {tokenId : Bytes} {inputs : List PsbtInput}
    {i : Nat} {toks : List (Nat × TokenUtxo)}
    (h : resolveSellerInputs view tokenId i inputs = .ok toks) :
    toks.map Prod.snd = inputs.filterMap (fun input => view.getTokenUtxo input.outpoint) ∧
      (∀ t ∈ toks, i ≤ t.1 ∧ t.2.tokenId = tokenId) ∧
      ∀ j input, inputs[j]? = some input → i + j ∈ toks.map Prod.fst →
        ∃ tok, view.getTokenUtxo input.outpoint = some tok := by
  obtain ⟨rfl, hall⟩ := resolveSellerInputs_eq_ok.mp h
  refine ⟨?_, ?_, ?_⟩
  · rw [knownCarriers_snd, List.filterMap_map]
    rfl
  · intro t ht
    obtain ⟨o, hle, -⟩ := mem_knownCarriers.mp ht
    exact ⟨hle, hall t ht⟩
  · intro j input hj hmem
    obtain ⟨⟨k, tok⟩, ht, hk⟩ := List.mem_map.mp hmem
    dsimp only at hk
    obtain ⟨o, -, hget, hview⟩ := mem_knownCarriers.mp ht
    refine ⟨tok, ?_⟩
    rw [hk, Nat.add_sub_cancel_left, List.getElem?_map, hj] at hget
    obtain rfl := Option.some.inj hget
    exact hview

end Checks

/-! The two acceptances. -/

section Acceptances

variable (C : Crypto) (params : ValidateParams)

/-- What the analysis of a mint found. -/
structure MintAnalyzed (a : MintAnalysis) : Prop where
  wire : decodeCoveOpReturn params.psbt = .ok (.mint a.tokenId a.amountAtoms a.recipientVout)
  state : params.view.getCurrentBackingState a.tokenId = some a.currentState
  outpoint : params.view.getBackingOutpoint a.tokenId = some a.backingOutpoint
  input0 : ∃ input, params.psbt.inputs[0]? = some input ∧ input.outpoint = a.backingOutpoint
  canonical : applyMintV2 a.currentState a.amountAtoms = .ok ⟨a.nextState, a.grossSats⟩
  fee : mintFeeSats a.grossSats a.amountAtoms (params.buyFeeBps.getD coveFeeConfig.buyFeeBps)
    (params.buyFeeFlatSats.getD coveFeeConfig.buyFeeFlatSats) coveFeeConfig.buyFeeLotSats =
      .ok a.protocolFeeSats
  creator : params.view.getTokenCreatorScript a.tokenId = some a.creatorScript
  creatorFee : creatorFeeSats a.grossSats (params.creatorFeeBps.getD coveFeeConfig.creatorFeeBps) =
    .ok a.creatorFeeSats
  minerFee : a.minerFeeSats = params.psbt.totalIn - params.psbt.totalOut
  buyers : a.buyerInputIndices = (List.range params.psbt.inputs.length).drop 1

/-- What holds of a mint the Guardian accepts. -/
structure MintValidated (X : SimplicityExecutor) (v : Validated MintAnalysis) : Prop where
  analyzed : MintAnalyzed params v.analysis
  vault : ∃ vault, buildBackingVaultV3 C v.analysis.currentState params.vaultKeys = .ok vault
  spends : SpendsVault params.psbt v.analysis.currentState
  vout : v.analysis.recipientVout = 2
  successor : PaysVault C params.vaultKeys params.psbt.txOutputs v.analysis.nextState
  carrier : CarriesTokens params.psbt.txOutputs 2
  feePaid : PaysTo params.psbt.txOutputs 3 v.analysis.protocolFeeSats params.feeScript
  feeSettles : FeeSettles v.analysis.protocolFeeSats params.feeScript
    (params.buyFeeBps.getD coveFeeConfig.buyFeeBps)
  creatorPaid : PaysTo params.psbt.txOutputs 4 v.analysis.creatorFeeSats v.analysis.creatorScript
  outputs : OutputsBounded params 6
  minerFee_nonneg : 0 ≤ v.analysis.minerFeeSats
  minerFee_le : v.analysis.minerFeeSats ≤ params.maxMinerFeeSats.getD 20000
  funding : FundsClean params v.analysis.buyerInputIndices
  simplicity : ∃ w, buildMintSimplicityWitness C ⟨v.analysis.currentState, v.analysis.nextState,
    v.analysis.amountAtoms, v.analysis.grossSats⟩ = .ok w ∧ (X.executeMintV3 w).pass = true

/-- What the analysis of a redeem found; `toks` are the token inputs. -/
structure RedeemAnalyzed (a : RedeemAnalysis) (toks : List (Nat × TokenUtxo)) : Prop where
  wire : decodeCoveOpReturn params.psbt =
    .ok (.redeem a.tokenId a.redeemAmountAtoms a.changeAllocations)
  state : params.view.getCurrentBackingState a.tokenId = some a.currentState
  outpoint : params.view.getBackingOutpoint a.tokenId = some a.backingOutpoint
  input0 : ∃ input, params.psbt.inputs[0]? = some input ∧ input.outpoint = a.backingOutpoint
  resolved : resolveSellerInputs params.view a.tokenId 1 (params.psbt.inputs.drop 1) = .ok toks
  some_tok : toks ≠ []
  canonical : applyRedeemV2 a.currentState a.redeemAmountAtoms = .ok ⟨a.nextState, a.grossSats⟩
  fee : redeemFeeSats a.grossSats (params.redeemFeeBps.getD coveFeeConfig.redeemFeeBps)
    (params.redeemFeeFlatSats.getD coveFeeConfig.redeemFeeFlatSats)
    coveFeeConfig.redeemFeeMinSats = .ok a.protocolFeeSats
  net : a.netPayoutSats = a.grossSats - a.protocolFeeSats
  tokenOutpoints : a.tokenInputOutpoints = toks.map fun t => t.2.outpoint
  tokenTotal : a.tokenInputTotalAtoms = (toks.map fun t => t.2.amountAtoms).sum
  tokenIndices : a.tokenInputIndices = toks.map Prod.fst
  minerFee : a.minerFeeSats = params.psbt.totalIn - params.psbt.totalOut

def RedeemAnalysis.changeAtoms (a : RedeemAnalysis) : Int :=
  a.tokenInputTotalAtoms - a.redeemAmountAtoms

/-- The change of a redeem as wire and outputs have it: one carrier at output 4, or none. -/
def ChangeCarried (outs : List TxOut) (changeAtoms : Int)
    (changeAllocations : List TokenAllocation) : Prop :=
  if 0 < changeAtoms then CarriesTokens outs 4 ∧ changeAllocations = [⟨4, changeAtoms⟩]
  else changeAllocations = []

/-- What holds of a redeem the Guardian accepts. -/
structure RedeemValidated (X : SimplicityExecutor) (v : Validated RedeemAnalysis)
    (toks : List (Nat × TokenUtxo)) : Prop where
  analyzed : RedeemAnalyzed params v.analysis toks
  vault : ∃ vault, buildBackingVaultV3 C v.analysis.currentState params.vaultKeys = .ok vault
  spends : SpendsVault params.psbt v.analysis.currentState
  change_nonneg : 0 ≤ v.analysis.changeAtoms
  change_eq : sumAllocations v.analysis.changeAllocations = v.analysis.changeAtoms
  successor : PaysVault C params.vaultKeys params.psbt.txOutputs v.analysis.nextState
  payout : ∃ out, params.psbt.txOutputs[2]? = some out ∧
    (out.value : Int) = v.analysis.netPayoutSats
  feePaid : PaysTo params.psbt.txOutputs 3 v.analysis.protocolFeeSats params.feeScript
  feeSettles : FeeSettles v.analysis.protocolFeeSats params.feeScript
    (params.redeemFeeBps.getD coveFeeConfig.redeemFeeBps)
  change : ChangeCarried params.psbt.txOutputs v.analysis.changeAtoms v.analysis.changeAllocations
  outputs : OutputsBounded params (if 0 < v.analysis.changeAtoms then 6 else 5)
  backing : reserveAnchorSats + v.analysis.currentState.backingSats =
    reserveAnchorSats + v.analysis.nextState.backingSats + v.analysis.netPayoutSats +
      v.analysis.protocolFeeSats
  minerFee_nonneg : 0 ≤ v.analysis.minerFeeSats
  minerFee_le : v.analysis.minerFeeSats ≤ params.maxMinerFeeSats.getD 20000
  funding : FundsClean params ((List.range params.psbt.inputs.length).filter
    fun i => i ≠ 0 ∧ i ∉ v.analysis.tokenInputIndices)
  simplicity : ∃ w, buildRedeemSimplicityWitness C ⟨v.analysis.currentState, v.analysis.nextState,
    v.analysis.redeemAmountAtoms, v.analysis.grossSats⟩ = .ok w ∧ (X.executeRedeemV3 w).pass = true

variable {C params} {X : SimplicityExecutor}

theorem analyzeMint_ok {a : MintAnalysis} (h : analyzeMintTransitionV3 params = .ok a) :
    MintAnalyzed params a := by
  simp only [analyzeMintTransitionV3, bind_eq_ok, demand_eq_ok, plain_eq_ok, mapError_eq_ok,
    pure_eq_ok, Prod.exists, asMint_eq_some] at h
  obtain ⟨_, hwire, _, _, _, rfl, state, hs, o, ho, _, hin, canonical, hc, fee, hf, script, hcr,
    creatorFee, hcf, rfl⟩ := h
  exact ⟨hwire, hs, ho, checkBackingInput_eq_ok.mp hin, hc, hf, hcr, hcf, rfl, rfl⟩

theorem analyzeRedeem_ok {a : RedeemAnalysis} (h : analyzeRedeemTransitionV3 params = .ok a) :
    ∃ toks, RedeemAnalyzed params a toks := by
  simp only [analyzeRedeemTransitionV3, bind_eq_ok, demand_eq_ok, ensure_eq_ok, plain_eq_ok,
    mapError_eq_ok, pure_eq_ok, Prod.exists, asRedeem_eq_some] at h
  obtain ⟨_, hwire, _, _, _, rfl, state, hs, o, ho, _, hin, toks, htoks, _, hne, canonical, hc, fee, hf,
    rfl⟩ := h
  exact ⟨toks, hwire, hs, ho, checkBackingInput_eq_ok.mp hin, htoks, hne, hc, hf, rfl, rfl, rfl, rfl, rfl⟩

theorem validateMint_ok {v : Validated MintAnalysis}
    (h : validateMintTransitionV3 C X params = .ok v) : MintValidated C params X v := by
  simp only [validateMintTransitionV3, bind_eq_ok, demand_eq_ok, ensure_eq_ok, analyzed_eq_ok,
    thrown_eq_ok, witnessResult_eq_ok, pure_eq_ok] at h
  obtain ⟨_, -, a, ha, prevVault, hprev, nextVault, hnext, _, hin, _, hvout, _, hsucc, carrier, hcar, _,
    hcarv, _, hcars, _, hfee, creatorOut, hcr, _, hcrok, _, hcount, _, hminer, _, hfund, w, hw, _, hsim,
    rfl⟩ := h
  have hpaid := checkProtocolFee_eq_ok.mp hfee
  have hbounds := checkMinerFeeBounds_eq_ok.mp hminer
  exact ⟨analyzeMint_ok ha, ⟨prevVault, hprev⟩, checkVaultInput_ok hin, hvout, checkSuccessor_ok hnext hsucc,
    ⟨carrier, hcar, hcarv, hcars⟩, hpaid.1, hpaid.2, ⟨creatorOut, hcr, hcrok⟩,
    checkOutputCount_ok hcount, hbounds.1, hbounds.2, checkFundingInputs_ok hfund, w, hw,
    checkSimplicity_ok hsim⟩

theorem checkChangeCarrier_eq_ok {outs : List TxOut} {changeAtoms : Int}
    {changeAllocations : List TokenAllocation} {u : Unit} :
    checkChangeCarrier outs changeAtoms changeAllocations = .ok u ↔
      ChangeCarried outs changeAtoms changeAllocations := by
  unfold checkChangeCarrier ChangeCarried
  by_cases hpos : 0 < changeAtoms
  · rw [if_pos hpos, if_pos hpos]
    simp only [bind_eq_ok, demand_eq_ok, ensure_eq_ok]
    constructor
    · intro h
      obtain ⟨out, ho, _, hv, _, hs, hall⟩ := h
      exact ⟨⟨out, ho, hv, hs⟩, hall⟩
    · intro h
      obtain ⟨⟨out, ho, hv, hs⟩, hall⟩ := h
      exact ⟨out, ho, (), hv, (), hs, hall⟩
  · rw [if_neg hpos, if_neg hpos, ensure_eq_ok]

theorem validateRedeem_ok {v : Validated RedeemAnalysis}
    (h : validateRedeemTransitionV3 C X params = .ok v) :
    ∃ toks, RedeemValidated C params X v toks := by
  simp only [validateRedeemTransitionV3, bind_eq_ok, demand_eq_ok, ensure_eq_ok, analyzed_eq_ok,
    thrown_eq_ok, witnessResult_eq_ok, pure_eq_ok] at h
  obtain ⟨_, -, a, ha, prevVault, hprev, nextVault, hnext, _, hin, _, hown, _, hsum, _, hsucc, payout, hpay,
    _, hpayv, _, hfee, _, hchange, _, hcount, _, hback, _, hminer, _, hfund, w, hw, _, hsim, rfl⟩ := h
  obtain ⟨toks, hanalyzed⟩ := analyzeRedeem_ok ha
  have hpaid := checkProtocolFee_eq_ok.mp hfee
  have hbounds := checkMinerFeeBounds_eq_ok.mp hminer
  have hnonneg : 0 ≤ a.changeAtoms := Int.sub_nonneg_of_le hown
  exact ⟨toks, hanalyzed, ⟨prevVault, hprev⟩, checkVaultInput_ok hin, hnonneg, hsum, checkSuccessor_ok hnext hsucc,
    ⟨payout, hpay, hpayv⟩, hpaid.1, hpaid.2, checkChangeCarrier_eq_ok.mp hchange,
    checkOutputCount_ok hcount, hback, hbounds.1, hbounds.2, checkFundingInputs_ok hfund, w, hw,
    checkSimplicity_ok hsim⟩

end Acceptances

/-! Where the value goes. -/

section Value

def Psbt.inputValue (psbt : Psbt) (i : Nat) : Int := psbt.inputs[i]?.elim 0 PsbtInput.valueSats

def Psbt.outputValue (psbt : Psbt) (vout : Nat) : Int :=
  psbt.txOutputs[vout]?.elim 0 fun o => (o.value : Int)

/-- The inputs beside the vault. -/
def Psbt.otherIn (psbt : Psbt) : Int := ((psbt.inputs.drop 1).map PsbtInput.valueSats).sum

/-- The outputs beside the vault. -/
def Psbt.otherOut (psbt : Psbt) : Int :=
  ((psbt.txOutputs.eraseIdx 1).map fun o => (o.value : Int)).sum

theorem Psbt.totalIn_eq (psbt : Psbt) : psbt.totalIn = psbt.inputValue 0 + psbt.otherIn := by
  unfold totalIn inputValue otherIn
  cases psbt.inputs with
  | nil => rfl
  | cons input inputs => simp

theorem Psbt.totalOut_eq (psbt : Psbt) : psbt.totalOut = psbt.outputValue 1 + psbt.otherOut := by
  unfold totalOut outputValue otherOut
  cases psbt.txOutputs with
  | nil => rfl
  | cons out0 outs =>
    cases outs with
    | nil => simp
    | cons out1 outs =>
      simp only [List.map_cons, List.sum_cons, List.getElem?_cons_succ, List.getElem?_cons_zero,
        Option.elim_some, List.eraseIdx_cons_succ, List.eraseIdx_cons_zero]
      omega

theorem SpendsVault.value {psbt : Psbt} {s : CoveStateV2} (h : SpendsVault psbt s) :
    psbt.inputValue 0 = reserveAnchorSats + s.backingSats := by
  obtain ⟨input, utxo, hi, hu, hv⟩ := h
  simp [Psbt.inputValue, hi, PsbtInput.valueSats, hu, hv]

variable {C : Crypto} {keys : VaultKeys} {psbt : Psbt}

theorem PaysVault.value {s : CoveStateV2} (h : PaysVault C keys psbt.txOutputs s) :
    psbt.outputValue 1 = reserveAnchorSats + s.backingSats := by
  obtain ⟨-, out, -, ho, -, hv⟩ := h
  simp [Psbt.outputValue, ho, hv]

theorem PaysTo.value {vout : Nat} {value : Int} {script : Bytes}
    (h : PaysTo psbt.txOutputs vout value script) : psbt.outputValue vout = value := by
  obtain ⟨out, ho, hv, -⟩ := h
  simp [Psbt.outputValue, ho, hv]

/-- In an accepted mint the vault gains exactly the gross; in an accepted redeem it loses
exactly the gross, which is the payout and the protocol fee. The miner fee is what the other
inputs and outputs leave, and it is bounded. -/
theorem acceptance_conserves_value (C : Crypto) (X : SimplicityExecutor) (params : ValidateParams) :
    (∀ v, validateMintTransitionV3 C X params = .ok v →
      params.psbt.outputValue 1 - params.psbt.inputValue 0 = v.analysis.grossSats ∧
      v.analysis.minerFeeSats =
        params.psbt.otherIn - params.psbt.otherOut - v.analysis.grossSats ∧
      0 ≤ v.analysis.minerFeeSats ∧
      v.analysis.minerFeeSats ≤ params.maxMinerFeeSats.getD 20000) ∧
    (∀ v, validateRedeemTransitionV3 C X params = .ok v →
      params.psbt.inputValue 0 - params.psbt.outputValue 1 = v.analysis.grossSats ∧
      v.analysis.grossSats = params.psbt.outputValue 2 + params.psbt.outputValue 3 ∧
      v.analysis.netPayoutSats = params.psbt.outputValue 2 ∧
      v.analysis.protocolFeeSats = params.psbt.outputValue 3 ∧
      v.analysis.minerFeeSats =
        params.psbt.otherIn - params.psbt.otherOut + v.analysis.grossSats ∧
      0 ≤ v.analysis.minerFeeSats ∧
      v.analysis.minerFeeSats ≤ params.maxMinerFeeSats.getD 20000) := by
  have hin := params.psbt.totalIn_eq
  have hout := params.psbt.totalOut_eq
  constructor
  · intro v h
    have hv := validateMint_ok h
    have hspend := hv.spends.value
    have hpay := hv.successor.value
    have hgross := applyMintV2_gross hv.analyzed.canonical
    have hfee := hv.analyzed.minerFee
    dsimp only at hgross
    exact ⟨by omega, by omega, hv.minerFee_nonneg, hv.minerFee_le⟩
  · intro v h
    obtain ⟨toks, hv⟩ := validateRedeem_ok h
    have hspend := hv.spends.value
    have hpay := hv.successor.value
    have hgross := applyRedeemV2_gross hv.analyzed.canonical
    have hfee := hv.analyzed.minerFee
    have hnet := hv.analyzed.net
    have hprotocol := hv.feePaid.value
    have hpayout : params.psbt.outputValue 2 = v.analysis.netPayoutSats := by
      obtain ⟨out, ho, hval⟩ := hv.payout
      simp [Psbt.outputValue, ho, hval]
    dsimp only at hgross
    exact ⟨by omega, by omega, hpayout.symm, hprotocol.symm, by omega, hv.minerFee_nonneg,
      hv.minerFee_le⟩

end Value

/-! A mint of one lot of the sample token, and a redeem of forty lots of it with Bitcoin change
and a discovery output. -/

/-- The sample curve points, and the one of the vault with forty lots. -/
def lotsCrypto : Crypto :=
  { sampleCrypto with
    xOnlyPointAddTweak := fun key tweak =>
      if tweak =
          Bytes.ofNatBE 32 0x4cb63f1359cbf5ae5efdfc1824fdac77f8fb65156e3adf47a68325b40f48b066 then
        some
          (Bytes.ofNatBE 32 0x2dc171b85aa1262c1aac0c211d12a83dc29a14a10f0846837ce7254a5cebf4a0, 0)
      else sampleCrypto.xOnlyPointAddTweak key tweak }

def passingExecutor : SimplicityExecutor where
  executeMintV3 _ := ⟨.mint, mintCmrV3, some mintCmrV3, true, none⟩
  executeRedeemV3 _ := ⟨.redeem, redeemCmrV3, some redeemCmrV3, true, none⟩

/-- Refuses the live carriers of a ledger and nothing else. -/
def carrierChecker (σ : Ledger) : FundingInputChecker where
  check o := .ok (if σ.tokenUtxos.has o then .refused .fundingHoldsToken
    ("funding input " ++ o.text ++ " holds Cove tokens") else .ok)

def sampleParams (psbt : Psbt) (view : CoveCanonicalView) (checker : FundingInputChecker) :
    ValidateParams where
  psbt := psbt
  view := view
  network := sampleConfig.network
  guardianXOnly := sampleConfig.guardianXOnly
  recoveryKeyXOnly := sampleConfig.recoveryKeyXOnly
  recoveryProfile := sampleConfig.recoveryProfile
  feeScript := sampleConfig.feeScript
  maxMinerFeeSats := none
  buyFeeBps := sampleConfig.buyFeeBps
  buyFeeFlatSats := sampleConfig.buyFeeFlatSats
  creatorFeeBps := sampleConfig.creatorFeeBps
  redeemFeeBps := sampleConfig.redeemFeeBps
  redeemFeeFlatSats := sampleConfig.redeemFeeFlatSats
  discoveryTicker := none
  fundingChecker := checker

def alphaState (lots backingSats : Int) : CoveStateV2 :=
  ⟨2, 3, alphaId, lots * lotAtoms, backingSats, 1⟩

/-- The input that spends a vault through an execution leaf: the vault's output key and merkle
root, the leaf's policy hash, and the leaf beside it in the tree. -/
def sampleVaultInput (outputKey merkleRoot policyHash sibling : Nat) (hash : Bytes) (value : Nat) :
    PsbtInput where
  hash := hash
  index := 1
  witnessUtxo := some ⟨0x51 :: 0x20 :: Bytes.ofNatBE 32 outputKey, value⟩
  tapInternalKey := some coveNumsXOnly
  tapMerkleRoot := some (Bytes.ofNatBE 32 merkleRoot)
  tapLeafScript := [{
    script := 0x20 :: Bytes.ofNatBE 32 policyHash ++ 0x88 :: 0x20 :: sampleConfig.guardianXOnly ++
      [0xac]
    controlBlock := 0xc0 :: coveNumsXOnly ++ Bytes.ofNatBE 32 sibling ++
      Bytes.ofNatBE 32 0xe0627ed8005f7a53c66b51550471d0cfdcf7e91e3564719785bb69b30bedc865 }]

def sampleMintPsbt : Psbt where
  inputs := [
    sampleVaultInput 0x3b2ea14dcc9260b18a219610e75006be2ce317c426b0f58b771b035903355915
      0x0da2040365463f5d30b25cb2697c66556c9d5f6023e24051ac7785e2c70c5702
      0x06e51f9bc11e71a7cee8876d4d4f55932babf3370eb7ae322919ce2d3a74f306
      0x99dcbdc1eeec91462d34df29c41a5392bc68a2ee453dd92b0c53a51aed8aa9e8
      (alphaDeploy.getId sampleCrypto).reverse 10000,
    { hash := List.replicate 32 3, index := 0, witnessUtxo := some ⟨sampleOwner, 7000⟩ }]
  txOutputs := alphaMint.outs

/-- A redeem of all forty lots; the outputs after the protocol fee are given. -/
def sampleRedeemPsbt (rest : List TxOut) : Psbt where
  inputs := [
    sampleVaultInput 0x2dc171b85aa1262c1aac0c211d12a83dc29a14a10f0846837ce7254a5cebf4a0
      0x791307720668a97de8eee0bce7dad2fdf7b078a6e7ad8aa1545e6f9f544dfa72
      0x1ab92d0abaf31fce7696383d8174e35702f232519b8f5281c246980aa90bb576
      0xc5d7ad436c21a583f626b8f690cde7746ae041bce2b793f120057cbc75f69cdf
      (List.replicate 32 0x11) 11080,
    { hash := List.replicate 32 0x22, index := 2, witnessUtxo := some ⟨sampleOwner, 1000⟩ },
    { hash := List.replicate 32 0x33, index := 0, witnessUtxo := some ⟨sampleOwner, 6000⟩ }]
  txOutputs := [
    ⟨opReturnScript (Bytes.ofHex "43560204" ++ alphaId ++ Bytes.ofNatBE 8 4000000000000 ++ [0]), 0⟩,
    ⟨0x51 :: 0x20 ::
      Bytes.ofNatBE 32 0x3b2ea14dcc9260b18a219610e75006be2ce317c426b0f58b771b035903355915, 10000⟩,
    ⟨sampleOwner, 80⟩,
    ⟨sampleConfig.feeScript, 1000⟩] ++ rest

def sampleChange : TxOut := ⟨sampleOwner, 5000⟩

/-- The payload `{"p":"crc-20","op":"redeem","amt":"4000000000000"}`. -/
def sampleDiscovery : TxOut :=
  ⟨opReturnScript (
    Bytes.ofNatBE 32 0x7b2270223a226372632d3230222c226f70223a2272656465656d222c22616d74 ++
      Bytes.ofNatBE 18 0x223a2234303030303030303030303030227d), 0⟩

def sampleRedeemView : CoveCanonicalView where
  getCurrentBackingState t := if t = alphaId then some (alphaState 40 1080) else none
  getBackingOutpoint t := if t = alphaId then some ⟨List.replicate 32 0x11, 1⟩ else none
  getTokenUtxo o := if o = ⟨List.replicate 32 0x22, 2⟩ then
    some ⟨o, alphaId, 40 * lotAtoms, sampleOwner⟩ else none
  getTokenCreatorScript t := if t = alphaId then some sampleCreator else none

/-- The parameters of the sample mint over the view of a ledger. -/
def sampleMintParams (σ : Ledger) : ValidateParams :=
  sampleParams sampleMintPsbt (loadCanonicalViewSnapshot σ []) (carrierChecker σ)

def sampleRedeemParams (rest : List TxOut) : ValidateParams :=
  sampleParams (sampleRedeemPsbt rest) sampleRedeemView (carrierChecker ⟨∅, ∅, ∅⟩)

/-- One evaluation of the mint, against the view of the indexer after the deploy, and of the
redeem. -/
theorem sample_validates : ((replay sampleCrypto sampleConfig [deployBlock]
      (.new sampleCrypto sampleConfig)).toOption.any fun σ =>
        (validateMintTransitionV3 sampleCrypto passingExecutor
          (sampleMintParams σ.toLedger)).toOption.isSome) = true ∧
    (validateRedeemTransitionV3 lotsCrypto passingExecutor
      (sampleRedeemParams [sampleChange, sampleDiscovery])).toOption.isSome = true := by
  decide +kernel

/-- The mint is accepted against the view of the indexer after the deploy. -/
theorem sampleMint_validates : ∃ σ events v,
    applyBlock sampleCrypto sampleConfig (.new sampleCrypto sampleConfig) deployBlock =
      .ok (σ, events) ∧
    validateMintTransitionV3 sampleCrypto passingExecutor (sampleMintParams σ.toLedger) = .ok v := by
  obtain ⟨σ, hσ, hvalid⟩ := (Option.any_eq_true _ _).mp sample_validates.1
  obtain ⟨v, hv⟩ := Option.isSome_iff_exists.mp hvalid
  rw [toOption_eq_some] at hσ hv
  simp only [replay, bind_eq_ok, Prod.exists, Except.ok.injEq] at hσ
  obtain ⟨σ, events, happly, rfl⟩ := hσ
  exact ⟨σ, events, v, happly, hv⟩

theorem sampleRedeem_validates :
    ∃ v, validateRedeemTransitionV3 lotsCrypto passingExecutor
      (sampleRedeemParams [sampleChange, sampleDiscovery]) = .ok v := by
  obtain ⟨v, hv⟩ := Option.isSome_iff_exists.mp sample_validates.2
  exact ⟨v, toOption_eq_some.mp hv⟩

/-- The mint adds its gross to the vault; the redeem takes its gross out. -/
theorem acceptance_conserves_sample :
    (∃ σ v, validateMintTransitionV3 sampleCrypto passingExecutor (sampleMintParams σ) = .ok v ∧
      sampleMintPsbt.outputValue 1 - sampleMintPsbt.inputValue 0 = v.analysis.grossSats) ∧
    (∃ v, validateRedeemTransitionV3 lotsCrypto passingExecutor
        (sampleRedeemParams [sampleChange, sampleDiscovery]) = .ok v ∧
      v.analysis.grossSats = (sampleRedeemPsbt [sampleChange, sampleDiscovery]).outputValue 2 +
        (sampleRedeemPsbt [sampleChange, sampleDiscovery]).outputValue 3) := by
  obtain ⟨σ, -, m, -, hm⟩ := sampleMint_validates
  obtain ⟨r, hr⟩ := sampleRedeem_validates
  exact ⟨⟨σ.toLedger, m, hm, ((acceptance_conserves_value _ _ _).1 m hm).1⟩,
    ⟨r, hr, ((acceptance_conserves_value _ _ _).2 r hr).2.1⟩⟩

end Cove
