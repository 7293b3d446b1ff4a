import Cove.Guardian.Admission
import Cove.Guardian.Agreement

/-! What the final validators have checked of a mint or a redeem they accept, and that the
indexer accepts it too where the view reads its ledger. -/

namespace Cove

open Checked

/-- The final validators run with the indexer's keys, recovery profile and fees. -/
structure FinalSharesRules (cfg : V3IndexerConfig) (params : FinalizeParams) : Prop where
  keys : params.vaultKeys = cfg.vaultKeys
  feeScript : params.feeScript = cfg.feeScript
  buyFeeBps : params.buyFeeBps = cfg.buyFeeBps
  buyFeeFlatSats : params.buyFeeFlatSats = cfg.buyFeeFlatSats
  creatorFeeBps : params.creatorFeeBps = cfg.creatorFeeBps
  redeemFeeBps : params.redeemFeeBps = cfg.redeemFeeBps
  redeemFeeFlatSats : params.redeemFeeFlatSats = cfg.redeemFeeFlatSats

/-- The outputs beside the frozen layout: a seventh one has to be an `OP_RETURN`. -/
def FinalMintLayout (outs : List TxOut) : Prop :=
  outs.length ≤ 6 + if 5 < outs.length ∧ outs.getLast?.bind (fun o => o.script[0]?) = some 0x6a
    then 1 else 0

section

variable (C : Crypto) (X : SimplicityExecutor) (params : FinalizeParams)

/-- What the final validator has checked of a mint it accepts. -/
structure MintFinalized (tokenId : Bytes) (amount : Int) (currentState : CoveStateV2)
    (canonical : TransitionV2Result) : Prop where
  wire : decodeCoveOpReturnTx params.tx = .ok (.mint tokenId amount 2)
  backing : finalBackingInput C params tokenId = .ok currentState
  canonical_eq : applyMintV2 currentState amount = .ok canonical
  fee : ∃ feeSats, mintFeeSats canonical.grossSats amount
      (params.buyFeeBps.getD coveFeeConfig.buyFeeBps)
      (params.buyFeeFlatSats.getD coveFeeConfig.buyFeeFlatSats) coveFeeConfig.buyFeeLotSats =
        .ok feeSats ∧
    finalProtocolFee params feeSats (params.buyFeeBps.getD coveFeeConfig.buyFeeBps) = .ok ()
  successor : finalSuccessor C params canonical.nextState = .ok ()
  carrier : CarriesTokens params.tx.outs 2
  creator : ∃ creatorScript creatorFee,
    params.view.getTokenCreatorScript tokenId = some creatorScript ∧
    creatorFeeSats canonical.grossSats (params.creatorFeeBps.getD coveFeeConfig.creatorFeeBps) =
      .ok creatorFee ∧
    PaysTo params.tx.outs 4 creatorFee creatorScript
  layout : FinalMintLayout params.tx.outs
  minerFee : checkMinerFee params.tx params.prevouts
    (params.maxMinerFeeSats.getD finalMaxMinerFee) = .ok ()
  simplicity : ∃ w, buildMintSimplicityWitness C
    ⟨currentState, canonical.nextState, amount, canonical.grossSats⟩ = .ok w ∧
      (X.executeMintV3 w).pass = true

/-- What the final validator has checked of a redeem it accepts; `total` is what the view's
carriers among its inputs hold. -/
structure RedeemFinalized (tokenId : Bytes) (redeemAmount : Int)
    (changeAllocations : List TokenAllocation) (total : Int) (currentState : CoveStateV2)
    (canonical : TransitionV2Result) : Prop where
  wire : decodeCoveOpReturnTx params.tx = .ok (.redeem tokenId redeemAmount changeAllocations)
  backing : finalBackingInput C params tokenId = .ok currentState
  total_eq : tokenInputTotal params.view tokenId (params.tx.ins.drop 1) = .ok total
  nonzero : total ≠ 0
  change_nonneg : 0 ≤ total - redeemAmount
  change_eq : sumAllocations changeAllocations = total - redeemAmount
  canonical_eq : applyRedeemV2 currentState redeemAmount = .ok canonical
  fee : ∃ feeSats payout, redeemFeeSats canonical.grossSats
      (params.redeemFeeBps.getD coveFeeConfig.redeemFeeBps)
      (params.redeemFeeFlatSats.getD coveFeeConfig.redeemFeeFlatSats)
      coveFeeConfig.redeemFeeMinSats = .ok feeSats ∧
    params.tx.outs[2]? = some payout ∧ (payout.value : Int) = canonical.grossSats - feeSats ∧
    finalProtocolFee params feeSats (params.redeemFeeBps.getD coveFeeConfig.redeemFeeBps) = .ok ()
  successor : finalSuccessor C params canonical.nextState = .ok ()
  layout : finalRedeemLayout params.tx.outs (total - redeemAmount) changeAllocations = .ok ()
  minerFee : checkMinerFee params.tx params.prevouts
    (params.maxMinerFeeSats.getD finalMaxMinerFee) = .ok ()
  simplicity : ∃ w, buildRedeemSimplicityWitness C
    ⟨currentState, canonical.nextState, redeemAmount, canonical.grossSats⟩ = .ok w ∧
      (X.executeRedeemV3 w).pass = true

variable {C X params}

theorem validateFinalizedMint_eq_ok {r : ValidatedCoveTransaction} :
    validateFinalizedMintTransaction C X params = .ok r ↔
      ∃ tokenId amount currentState canonical,
        MintFinalized C X params tokenId amount currentState canonical ∧
        r = ⟨params.tx.getId C, .mint, tokenId⟩ := by
  simp only [validateFinalizedMintTransaction, decodeWire, bind_eq_ok, demand_eq_ok, ensure_eq_ok,
    escaped_eq_ok, mapError_eq_ok, pure_eq_ok, Prod.exists, asMint_eq_some, finalSimplicity]
  constructor
  · intro h
    obtain ⟨_, hwire, tokenId, amount, _, rfl, s, hs, canonical, hc, feeSats, hf, _, hsucc, _, rfl,
      carrier, hcar, _, hcarv, _, hcars, _, hfee, script, hscript, creatorOut, hcr, creatorFee, hcf, _,
      hcrok, _, hlen, _, hminer, w, hw, _, hsim, rfl⟩ := h
    exact ⟨tokenId, amount, s, canonical, ⟨hwire, hs, hc, ⟨feeSats, hf, hfee⟩, hsucc,
      ⟨carrier, hcar, hcarv, hcars⟩, ⟨script, creatorFee, hscript, hcf, creatorOut, hcr, hcrok⟩, hlen,
      hminer, w, hw, hsim⟩, rfl⟩
  · intro h
    obtain ⟨tokenId, amount, s, canonical, hv, rfl⟩ := h
    obtain ⟨feeSats, hf, hfee⟩ := hv.fee
    obtain ⟨carrier, hcar, hcarv, hcars⟩ := hv.carrier
    obtain ⟨script, creatorFee, hscript, hcf, creatorOut, hcr, hcrok⟩ := hv.creator
    obtain ⟨w, hw, hsim⟩ := hv.simplicity
    exact ⟨_, hv.wire, tokenId, amount, 2, rfl, s, hv.backing, canonical, hv.canonical_eq, feeSats, hf, (),
      hv.successor, (), rfl, carrier, hcar, (), hcarv, (), hcars, (), hfee, script, hscript, creatorOut,
      hcr, creatorFee, hcf, (), hcrok, (), hv.layout, (), hv.minerFee, w, hw, (), hsim, rfl⟩

theorem validateFinalizedRedeem_eq_ok {r : ValidatedCoveTransaction} :
    validateFinalizedRedeemTransaction C X params = .ok r ↔
      ∃ tokenId redeemAmount changeAllocations total currentState canonical,
        RedeemFinalized C X params tokenId redeemAmount changeAllocations total currentState
          canonical ∧
        r = ⟨params.tx.getId C, .redeem, tokenId⟩ := by
  simp only [validateFinalizedRedeemTransaction, decodeWire, bind_eq_ok, demand_eq_ok, ensure_eq_ok,
    escaped_eq_ok, mapError_eq_ok, pure_eq_ok, Prod.exists, asRedeem_eq_some, finalSimplicity]
  constructor
  · intro h
    obtain ⟨_, hwire, tokenId, redeemAmount, changes, rfl, s, hs, total, ht, _, hne, _, hnonneg, _, hsum,
      canonical, hc, feeSats, hf, _, hsucc, payout, hpay, _, hpayv, _, hfee, _, hlay, _, hminer, w, hw, _,
      hsim, rfl⟩ := h
    exact ⟨tokenId, redeemAmount, changes, total, s, canonical, ⟨hwire, hs, ht, hne, hnonneg, hsum, hc,
      ⟨feeSats, payout, hf, hpay, hpayv, hfee⟩, hsucc, hlay, hminer, w, hw, hsim⟩, rfl⟩
  · intro h
    obtain ⟨tokenId, redeemAmount, changes, total, s, canonical, hv, rfl⟩ := h
    obtain ⟨feeSats, payout, hf, hpay, hpayv, hfee⟩ := hv.fee
    obtain ⟨w, hw, hsim⟩ := hv.simplicity
    exact ⟨_, hv.wire, tokenId, redeemAmount, changes, rfl, s, hv.backing, total, hv.total_eq, (),
      hv.nonzero, (), hv.change_nonneg, (), hv.change_eq, canonical, hv.canonical_eq, feeSats, hf, (),
      hv.successor, payout, hpay, (), hpayv, (), hfee, (), hv.layout, (), hv.minerFee, w, hw, (), hsim,
      rfl⟩

theorem finalBackingInput_ok {tokenId : Bytes} {s : CoveStateV2}
    (h : finalBackingInput C params tokenId = .ok s) :
    params.view.getCurrentBackingState tokenId = some s ∧
      ∃ o ins0, params.view.getBackingOutpoint tokenId = some o ∧ params.tx.ins[0]? = some ins0 ∧
        ins0.outpoint = o := by
  simp only [finalBackingInput, bind_eq_ok, demand_eq_ok, ensure_eq_ok, escaped_eq_ok] at h
  obtain ⟨state, hs, o, ho, ins0, hins, _, hout, vault, -, h⟩ := h
  obtain rfl : state = s := by
    split at h
    · exact pure_eq_ok.mp h
    · simp only [bind_eq_ok, ensure_eq_ok, pure_eq_ok] at h
      obtain ⟨_, -, _, -, heq⟩ := h
      exact heq
  exact ⟨hs, o, ins0, ho, hins, hout⟩

theorem finalBackingInput_view {view : CoveCanonicalView} {tokenId : Bytes}
    (hstate : view.getCurrentBackingState tokenId = params.view.getCurrentBackingState tokenId)
    (houtpoint : view.getBackingOutpoint tokenId = params.view.getBackingOutpoint tokenId) :
    finalBackingInput C { params with view } tokenId = finalBackingInput C params tokenId := by
  rw [finalBackingInput, finalBackingInput]
  dsimp only
  rw [hstate, houtpoint]
  rfl

/-- Of the view, a mint reads the token's backing and creator only. -/
theorem MintFinalized.of_view {tokenId : Bytes} {amount : Int} {s : CoveStateV2}
    {canonical : TransitionV2Result} {view : CoveCanonicalView}
    (hv : MintFinalized C X params tokenId amount s canonical)
    (hstate : view.getCurrentBackingState tokenId = params.view.getCurrentBackingState tokenId)
    (houtpoint : view.getBackingOutpoint tokenId = params.view.getBackingOutpoint tokenId)
    (hcreator : view.getTokenCreatorScript tokenId = params.view.getTokenCreatorScript tokenId) :
    MintFinalized C X { params with view } tokenId amount s canonical :=
  { hv with
    backing := (finalBackingInput_view hstate houtpoint).trans hv.backing
    creator := by
      obtain ⟨script, creatorFee, hscript, hfee, hpaid⟩ := hv.creator
      exact ⟨script, creatorFee, hcreator.trans hscript, hfee, hpaid⟩ }

/-- Of the view, a redeem reads the token's backing and the carriers on its inputs. -/
theorem RedeemFinalized.of_view {tokenId : Bytes} {amount total : Int}
    {changes : List TokenAllocation} {s : CoveStateV2} {canonical : TransitionV2Result}
    {view : CoveCanonicalView}
    (hv : RedeemFinalized C X params tokenId amount changes total s canonical)
    (hstate : view.getCurrentBackingState tokenId = params.view.getCurrentBackingState tokenId)
    (houtpoint : view.getBackingOutpoint tokenId = params.view.getBackingOutpoint tokenId)
    (hcarriers : ∀ o ∈ (params.tx.ins.drop 1).map TxIn.outpoint,
      view.getTokenUtxo o = params.view.getTokenUtxo o) :
    RedeemFinalized C X { params with view } tokenId amount changes total s canonical :=
  { hv with
    backing := (finalBackingInput_view hstate houtpoint).trans hv.backing
    total_eq := by
      have hknown : view.knownInputs ((params.tx.ins.drop 1).map TxIn.outpoint) =
          params.view.knownInputs ((params.tx.ins.drop 1).map TxIn.outpoint) :=
        List.filterMap_congr hcarriers
      have htotal := tokenInputTotal_eq_ok.mp hv.total_eq
      rw [← hknown] at htotal
      exact tokenInputTotal_eq_ok.mpr htotal }

theorem finalSuccessor_ok {s : CoveStateV2} {u : Unit} (h : finalSuccessor C params s = .ok u) :
    PaysVault C params.vaultKeys params.tx.outs s := by
  simp only [finalSuccessor, bind_eq_ok, demand_eq_ok, ensure_eq_ok, escaped_eq_ok] at h
  obtain ⟨vault, hvault, out, ho, _, hs, hv⟩ := h
  exact ⟨vault, out, hvault, ho, hs, hv⟩

theorem finalProtocolFee_ok {feeSats feeBps : Int} {u : Unit}
    (h : finalProtocolFee params feeSats feeBps = .ok u) :
    PaysTo params.tx.outs 3 feeSats params.feeScript := by
  simp only [finalProtocolFee, bind_eq_ok, demand_eq_ok, ensure_eq_ok, escaped_eq_ok] at h
  obtain ⟨out, ho, _, ⟨hv, hs⟩, -⟩ := h
  exact ⟨out, ho, hv, hs⟩

theorem finalRedeemLayout_ok {outs : List TxOut} {changeAtoms : Int}
    {changeAllocations : List TokenAllocation} {u : Unit}
    (h : finalRedeemLayout outs changeAtoms changeAllocations = .ok u) :
    ChangeCarried outs changeAtoms changeAllocations := by
  unfold finalRedeemLayout at h
  unfold ChangeCarried
  split at h
  · simp only [bind_eq_ok, demand_eq_ok, ensure_eq_ok] at h
    obtain ⟨out, ho, _, hv, _, hs, _, hall, -⟩ := h
    rw [if_pos ‹_›]
    exact ⟨⟨out, ho, hv, hs⟩, hall⟩
  · simp only [bind_eq_ok, ensure_eq_ok] at h
    obtain ⟨_, hall, -⟩ := h
    rw [if_neg ‹_›]
    exact hall

end

/-! The indexer on the same transaction. -/

/-- What a view says of a token's backing and creator is what the ledger holds. -/
structure ReadsToken (view : CoveCanonicalView) (σ : Ledger) (tokenId : Bytes) : Prop where
  state : view.getCurrentBackingState tokenId = (σ.backing.get tokenId).map V3Backing.state
  outpoint : view.getBackingOutpoint tokenId = (σ.backing.get tokenId).map V3Backing.outpoint
  creator : ∀ script, view.getTokenCreatorScript tokenId = some script →
    ∃ m, σ.tokens.get tokenId = some m ∧ m.creatorScript = script

section

variable {C : Crypto} {cfg : V3IndexerConfig} {X : SimplicityExecutor} {params : FinalizeParams}
  {σ : Ledger} {seen : List Bytes} {tokenId : Bytes} {s : CoveStateV2}
  {canonical : TransitionV2Result}

/-- The vault a final transaction spends is the backing the ledger holds. -/
theorem ReadsToken.backing (hreads : ReadsToken params.view σ tokenId)
    (h : finalBackingInput C params tokenId = .ok s) :
    ∃ b ins0, σ.backing.get tokenId = some b ∧ b.state = s ∧ params.tx.ins[0]? = some ins0 ∧
      ins0.outpoint = b.outpoint := by
  obtain ⟨hs, o, ins0, ho, hins, hout⟩ := finalBackingInput_ok h
  rw [hreads.state] at hs
  rw [hreads.outpoint] at ho
  obtain ⟨b, hb, hbs⟩ := Option.map_eq_some_iff.mp hs
  rw [hb, Option.map_some, Option.some.injEq] at ho
  exact ⟨b, ins0, hb, hbs, hins, by rw [hout, ho]⟩

/-- What was checked of a final mint is what the indexer asks for. -/
theorem MintFinalized.accepts {amount : Int}
    (hv : MintFinalized C X params tokenId amount s canonical)
    (hreads : ReadsToken params.view σ tokenId) (hrules : FinalSharesRules cfg params) :
    ∃ a : MintAccepted C cfg σ params.tx tokenId amount 2, a.canonical = canonical := by
  obtain ⟨b, ins0, hb, hbs, hins, hout⟩ := hreads.backing hv.backing
  obtain ⟨feeSats, hfee, hpaid⟩ := hv.fee
  obtain ⟨feeOut, hfeeOut, hfeev, hfees⟩ := finalProtocolFee_ok hpaid
  obtain ⟨vault, successor, hvault, hsucc, hsscript, hsvalue⟩ := finalSuccessor_ok hv.successor
  obtain ⟨carrier, hcar, hcarv, hcars⟩ := hv.carrier
  obtain ⟨script, creatorFee, hscript, hcfee, creatorOut, hcr, hcrv, hcrs⟩ := hv.creator
  obtain ⟨m, hm, hmc⟩ := hreads.creator script hscript
  obtain ⟨stateHash, hhash⟩ := stateHashV2_of_valid (C := C) (applyMintV2_spec hv.canonical_eq).2.1
  rw [hrules.buyFeeBps, hrules.buyFeeFlatSats] at hfee
  rw [hrules.creatorFeeBps] at hcfee
  rw [hrules.keys] at hvault
  exact ⟨{
    tokenMeta := m
    backing := b
    ins0, canonical, feeSats, successor, carrier, feeOut, creatorOut, creatorFee, stateHash
    nextVault := vault
    meta_get := hm
    backing_get := hb
    ins0_get := hins
    ins0_outpoint := hout
    canonical_eq := by rw [hbs]; exact hv.canonical_eq
    fee_eq := hfee
    vault_eq := hvault
    successor_get := hsucc
    successor_script := hsscript
    successor_value := hsvalue
    vout_eq := rfl
    carrier_get := hcar
    carrier_ok := ⟨hcarv, hcars⟩
    feeOut_get := hfeeOut
    feeOut_ok := ⟨hfeev, by rw [hfees, hrules.feeScript]⟩
    creator_get := hcr
    creatorFee_eq := hcfee
    creator_ok := ⟨hcrv, by rw [hcrs, hmc]⟩
    stateHash_eq := hhash }, rfl⟩

/-- What was checked of a final redeem is what the indexer asks for, where the live carriers
the indexer finds among the inputs are the token's and hold what the view's hold. -/
theorem RedeemFinalized.accepts {redeemAmount total : Int}
    {changeAllocations : List TokenAllocation}
    (hv : RedeemFinalized C X params tokenId redeemAmount changeAllocations total s canonical)
    (block : V3BlockInput) (hI : LedgerInv C cfg seen σ)
    (hreads : ReadsToken params.view σ tokenId) (hrules : FinalSharesRules cfg params)
    (htokens : ∀ u ∈ liveInputs σ.tokenUtxos params.tx.ins, u.tokenId = tokenId)
    (hsum : sumAtoms (liveInputs σ.tokenUtxos params.tx.ins) = total) :
    ∃ a : RedeemAccepted C cfg block σ params.tx tokenId redeemAmount changeAllocations,
      a.canonical = canonical := by
  obtain ⟨b, ins0, hb, hbs, hins, hout⟩ := hreads.backing hv.backing
  obtain ⟨feeSats, payout, hfee, hpay, hpayv, hpaid⟩ := hv.fee
  obtain ⟨feeOut, hfeeOut, hfeev, hfees⟩ := finalProtocolFee_ok hpaid
  obtain ⟨vault, successor, hvault, hsucc, hsscript, hsvalue⟩ := finalSuccessor_ok hv.successor
  obtain ⟨stateHash, hhash⟩ := stateHashV2_of_valid (C := C) (applyRedeemV2_spec hv.canonical_eq).2.1
  obtain ⟨m, hm⟩ : ∃ m, σ.tokens.get tokenId = some m := by
    apply Dict.has_iff.mp
    rw [hI.same_keys]
    exact Dict.has_iff.mpr ⟨b, hb⟩
  rw [hrules.redeemFeeBps, hrules.redeemFeeFlatSats] at hfee
  rw [hrules.keys] at hvault
  have hspent : resolveTokenInputs σ params.tx tokenId =
      .ok (liveInputs σ.tokenUtxos params.tx.ins) := by
    refine resolveTokenInputs_eq_ok.mpr ⟨rfl, htokens, ?_⟩
    intro hnil
    apply hv.nonzero
    rw [← hsum, hnil]
    rfl
  have hcreated : redeemCarriers C block params.tx tokenId (total - redeemAmount)
      changeAllocations = .ok (changeAllocations.map (carrierAt C block params.tx tokenId)) :=
    redeemCarriers_eq_ok.mpr ⟨finalRedeemLayout_ok hv.layout, rfl⟩
  exact ⟨{
    tokenMeta := m
    backing := b
    ins0, canonical, feeSats, successor, payout, feeOut, stateHash
    spentUtxos := liveInputs σ.tokenUtxos params.tx.ins
    nextVault := vault
    createdUtxos := changeAllocations.map (carrierAt C block params.tx tokenId)
    meta_get := hm
    backing_get := hb
    ins0_get := hins
    ins0_outpoint := hout
    spent_eq := hspent
    change_nonneg := by rw [hsum]; exact hv.change_nonneg
    change_eq := by rw [hsum]; exact hv.change_eq
    canonical_eq := by rw [hbs]; exact hv.canonical_eq
    fee_eq := hfee
    vault_eq := hvault
    successor_get := hsucc
    successor_script := hsscript
    successor_value := hsvalue
    payout_get := hpay
    payout_value := hpayv
    feeOut_get := hfeeOut
    feeOut_ok := ⟨hfeev, by rw [hfees, hrules.feeScript]⟩
    created_eq := by rw [hsum]; exact hcreated
    stateHash_eq := hhash }, rfl⟩

/-- A final redeem the indexer accepts spends live carriers of the token only, and they hold
what the view's hold. -/
theorem RedeemFinalized.inputs_of_accepted {redeemAmount total : Int}
    {changeAllocations : List TokenAllocation}
    (hv : RedeemFinalized C X params tokenId redeemAmount changeAllocations total s canonical)
    {block : V3BlockInput}
    (a : RedeemAccepted C cfg block σ params.tx tokenId redeemAmount changeAllocations) :
    (∀ u ∈ liveInputs σ.tokenUtxos params.tx.ins, u.tokenId = tokenId) ∧
      sumAtoms (liveInputs σ.tokenUtxos params.tx.ins) = total := by
  obtain ⟨hspent, htokens, -⟩ := resolveTokenInputs_eq_ok.mp a.spent_eq
  have hchange := a.change_eq
  rw [hv.change_eq] at hchange
  rw [← hspent]
  exact ⟨htokens, by omega⟩

end

end Cove
