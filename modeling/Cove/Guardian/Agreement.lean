import Cove.Guardian.Finalize

/-! The PSBT validator against the validator of the final transaction. -/

namespace Cove

open Checked

/-- The final validator's parameters that go with the Guardian's. -/
def ValidateParams.finalize (params : ValidateParams) (tx : Transaction)
    (prevouts : Option (Dict OutPoint ResolvedPrevout)) : FinalizeParams where
  tx := tx
  view := params.view
  network := params.network
  guardianXOnly := params.guardianXOnly
  recoveryKeyXOnly := params.recoveryKeyXOnly
  recoveryProfile := params.recoveryProfile
  feeScript := params.feeScript
  maxMinerFeeSats := params.maxMinerFeeSats
  prevouts := prevouts
  buyFeeBps := params.buyFeeBps
  buyFeeFlatSats := params.buyFeeFlatSats
  creatorFeeBps := params.creatorFeeBps
  redeemFeeBps := params.redeemFeeBps
  redeemFeeFlatSats := params.redeemFeeFlatSats

/-- Prevouts, when they are handed over, are the real ones: every input's value is the one
its PSBT states, and the outpoint of a token's backing has the script of its vault. -/
structure PrevoutsTrue (C : Crypto) (params : ValidateParams)
    (prevouts : Option (Dict OutPoint ResolvedPrevout)) : Prop where
  value : ∀ map ∈ prevouts, ∀ input ∈ params.psbt.inputs,
    ∃ p, map.get input.outpoint = some p ∧ p.valueSats = input.valueSats
  vault : ∀ map ∈ prevouts, ∀ tokenId s o vault p,
    params.view.getCurrentBackingState tokenId = some s →
    params.view.getBackingOutpoint tokenId = some o →
    buildBackingVaultV3 C s params.vaultKeys = .ok vault → map.get o = some p →
    p.script = vault.scriptPubKey

/-- The second executor passes what the first one passes. -/
structure SimplicityExecutor.PassesToo (X X' : SimplicityExecutor) : Prop where
  mint : ∀ w, (X.executeMintV3 w).pass = true → (X'.executeMintV3 w).pass = true
  redeem : ∀ w, (X.executeRedeemV3 w).pass = true → (X'.executeRedeemV3 w).pass = true

section

variable {C : Crypto} {X X' : SimplicityExecutor} {params : ValidateParams} {tx : Transaction}
  {prevouts : Option (Dict OutPoint ResolvedPrevout)}

theorem escaped_eq_ok {α : Type} {x : Except Fault α} {a : α} : escaped x = .ok a ↔ x = .ok a :=
  mapError_eq_ok

theorem decodeWire_extracts (hx : params.psbt.Extracts tx) {e : ParsedEnvelopeV2}
    (h : decodeCoveOpReturn params.psbt = .ok e) : decodeWire tx = .ok e := by
  simp only [decodeCoveOpReturn, bind_eq_ok, demand_eq_ok] at h
  rw [decodeWire, mapError_eq_ok]
  simp only [decodeCoveOpReturnTx, bind_eq_ok, demand_eq_ok, hx.outs]
  exact h

theorem resolvedTotal_eq {map : Dict OutPoint ResolvedPrevout} {inputs : List PsbtInput}
    {ins : List TxIn} (hspends : ins.map TxIn.outpoint = inputs.map PsbtInput.outpoint)
    (hval : ∀ input ∈ inputs,
      ∃ p, map.get input.outpoint = some p ∧ p.valueSats = input.valueSats) :
    resolvedTotal map ins = .ok (inputs.map PsbtInput.valueSats).sum := by
  induction inputs generalizing ins with
  | nil =>
    obtain rfl : ins = [] := List.map_eq_nil_iff.mp hspends
    rfl
  | cons input inputs ih =>
    cases ins with
    | nil => simp at hspends
    | cons i ins =>
      rw [List.map_cons, List.map_cons, List.cons.injEq] at hspends
      rw [List.forall_mem_cons] at hval
      obtain ⟨⟨p, hp, hpv⟩, hval⟩ := hval
      have hrest := ih hspends.2 hval
      simp only [resolvedTotal, bind_eq_ok, demand_eq_ok, pure_eq_ok]
      exact ⟨p, by rw [hspends.1, hp], _, hrest, by rw [hpv, List.map_cons, List.sum_cons]⟩

theorem checkMinerFee_extracts (hx : params.psbt.Extracts tx) (hp : PrevoutsTrue C params prevouts)
    {maxMinerFee : Int} (h0 : 0 ≤ params.psbt.totalIn - params.psbt.totalOut)
    (hmax : params.psbt.totalIn - params.psbt.totalOut ≤ maxMinerFee) :
    checkMinerFee tx prevouts maxMinerFee = .ok () := by
  cases prevouts with
  | none => rfl
  | some map =>
    have htotal := resolvedTotal_eq hx.spends (hp.value map rfl)
    have hout : tx.totalOut = params.psbt.totalOut := by
      rw [Transaction.totalOut, hx.outs, Psbt.totalOut]
    simp only [checkMinerFee, bind_eq_ok, ensure_eq_ok]
    refine ⟨_, htotal, (), ?_⟩
    rw [hout]
    exact ⟨h0, hmax⟩

theorem finalBackingInput_extracts (hx : params.psbt.Extracts tx)
    (hp : PrevoutsTrue C params prevouts) {tokenId : Bytes} {s : CoveStateV2} {o : OutPoint}
    {vault : CoveVaultV3} (hs : params.view.getCurrentBackingState tokenId = some s)
    (ho : params.view.getBackingOutpoint tokenId = some o)
    (hin : ∃ input, params.psbt.inputs[0]? = some input ∧ input.outpoint = o)
    (hspend : SpendsVault params.psbt s)
    (hvault : buildBackingVaultV3 C s params.vaultKeys = .ok vault) :
    finalBackingInput C (params.finalize tx prevouts) tokenId = .ok s := by
  obtain ⟨input, hi, rfl⟩ := hin
  obtain ⟨input', utxo, hi', hu, hvalue⟩ := hspend
  obtain rfl : input' = input := by simpa [hi] using hi'.symm
  obtain ⟨ins0, hins, hout⟩ := hx.input0 hi
  simp only [finalBackingInput, bind_eq_ok, demand_eq_ok, ensure_eq_ok, escaped_eq_ok]
  refine ⟨s, hs, _, ho, ins0, hins, (), hout, vault, hvault, ?_⟩
  cases prevouts with
  | none => rfl
  | some map =>
    obtain ⟨p, hpget, hpv⟩ := hp.value map rfl input' (List.mem_of_getElem? hi)
    have hscript := hp.vault map rfl tokenId s _ vault p hs ho hvault hpget
    have hget : ((params.finalize tx (some map)).prevouts.bind fun m => m.get ins0.outpoint) =
        some p := by
      rw [hout]
      exact hpget
    rw [hget]
    have hval : p.valueSats = reserveAnchorSats + s.backingSats := by
      rw [hpv, PsbtInput.valueSats, hu]
      exact hvalue
    simp [hscript, hval]

theorem finalSuccessor_extracts (hx : params.psbt.Extracts tx) {s : CoveStateV2}
    (h : PaysVault C params.vaultKeys params.psbt.txOutputs s) :
    finalSuccessor C (params.finalize tx prevouts) s = .ok () := by
  obtain ⟨vault, out, hvault, ho, hs, hv⟩ := h
  simp only [finalSuccessor, bind_eq_ok, demand_eq_ok, ensure_eq_ok, escaped_eq_ok]
  exact ⟨vault, hvault, out, by rw [← ho, ← hx.outs]; rfl, (), hs, hv⟩

theorem finalProtocolFee_extracts (hx : params.psbt.Extracts tx) {feeSats feeBps : Int}
    (h : PaysTo params.psbt.txOutputs 3 feeSats params.feeScript)
    (hset : FeeSettles feeSats params.feeScript feeBps) :
    finalProtocolFee (params.finalize tx prevouts) feeSats feeBps = .ok () := by
  obtain ⟨out, ho, hv, hs⟩ := h
  obtain ⟨settlement, hset, hstd⟩ := hset
  simp only [finalProtocolFee, bind_eq_ok, demand_eq_ok, ensure_eq_ok, escaped_eq_ok]
  exact ⟨out, by rw [← ho, ← hx.outs]; rfl, (), ⟨hv, hs⟩, settlement, hset, hstd⟩

/-- An agreeing discovery output is an `OP_RETURN`. -/
theorem DiscoveryAgrees.last (h : DiscoveryAgrees params) :
    params.psbt.txOutputs.getLast?.bind (fun o => o.script[0]?) = some 0x6a := by
  obtain ⟨binary, -, h⟩ := h
  unfold checkDiscoveryOutput at h
  split at h
  · simp at h
  rename_i last hlast
  split at h
  · simp at h
  split at h
  · simp at h
  rename_i payload hpayload
  unfold opReturnPayload at hpayload
  split at hpayload
  · cases hpayload
  rename_i hshape
  rw [not_or, Nat.not_lt, not_not] at hshape
  rw [hlast, Option.bind_some]
  cases hscript : last.script with
  | nil => simp [hscript] at hshape
  | cons b script =>
    have hb : b = 0x6a := by simpa [hscript] using hshape.2
    rw [hb, List.getElem?_cons_zero]

/-- A mint the Guardian accepts passes the final validator. -/
theorem validateFinalizedMint_extracts {v : Validated MintAnalysis}
    (hv : MintValidated C params X v) (hx : params.psbt.Extracts tx)
    (hp : PrevoutsTrue C params prevouts) (hX : X.PassesToo X') :
    ∃ r, validateFinalizedMintTransaction C X' (params.finalize tx prevouts) = .ok r := by
  obtain ⟨vault, hvault⟩ := hv.vault
  obtain ⟨carrier, hcar, hcarv, hcars⟩ := hv.carrier
  obtain ⟨creatorOut, hcr, hcrok⟩ := hv.creatorPaid
  obtain ⟨w, hw, hpass⟩ := hv.simplicity
  have hfee := hv.analyzed.minerFee
  have hminer0 := hv.minerFee_nonneg
  have hminer1 := hv.minerFee_le
  rw [hfee] at hminer0 hminer1
  have hback := finalBackingInput_extracts hx hp hv.analyzed.state hv.analyzed.outpoint
    hv.analyzed.input0 hv.spends hvault
  have houts : (params.finalize tx prevouts).tx.outs = params.psbt.txOutputs := hx.outs
  simp only [validateFinalizedMintTransaction, bind_eq_ok, demand_eq_ok, ensure_eq_ok, escaped_eq_ok,
    mapError_eq_ok, pure_eq_ok, Prod.exists, asMint_eq_some, finalSimplicity]
  refine ⟨_, _, decodeWire_extracts hx hv.analyzed.wire, _, _, _, rfl, _, hback, _,
    hv.analyzed.canonical, _, hv.analyzed.fee, (), finalSuccessor_extracts hx hv.successor, (),
    hv.vout, carrier, by rw [houts, hcar], (), hcarv, (), hcars, (),
    finalProtocolFee_extracts hx hv.feePaid hv.feeSettles, _, hv.analyzed.creator, creatorOut,
    by rw [houts, hcr], _, hv.analyzed.creatorFee, (), hcrok, (), ?_, (),
    checkMinerFee_extracts hx hp hminer0 hminer1, w, hw, (), hX.mint w hpass, rfl⟩
  -- A seventh output is the discovery payload, which the final validator allows too.
  rw [houts]
  rcases hv.outputs with hle | ⟨hlen, hagree⟩
  · omega
  · rw [if_pos ⟨by omega, hagree.last⟩]
    omega

theorem RedeemAnalyzed.total {a : RedeemAnalysis} {toks : List (Nat × TokenUtxo)}
    (h : RedeemAnalyzed params a toks) (hx : params.psbt.Extracts tx) :
    tokenInputTotal params.view a.tokenId (tx.ins.drop 1) = .ok a.tokenInputTotalAtoms := by
  obtain ⟨hmap, hall, -⟩ := resolveSellerInputs_ok h.resolved
  have hins : (tx.ins.drop 1).map TxIn.outpoint =
      (params.psbt.inputs.drop 1).map PsbtInput.outpoint := by
    rw [List.map_drop, List.map_drop]
    exact congrArg (List.drop 1) hx.spends
  have hknown : params.view.knownInputs ((tx.ins.drop 1).map TxIn.outpoint) = toks.map Prod.snd := by
    rw [hins, hmap, CoveCanonicalView.knownInputs, List.filterMap_map]
    rfl
  rw [tokenInputTotal_eq_ok, hknown]
  constructor
  · intro tok htok
    obtain ⟨t, ht, rfl⟩ := List.mem_map.mp htok
    exact (hall t ht).2
  · rw [h.tokenTotal, List.map_map]
    rfl

theorem finalRedeemLayout_eq_ok {outs : List TxOut} {changeAtoms : Int}
    {changeAllocations : List TokenAllocation} {u : Unit}
    (h : ChangeCarried outs changeAtoms changeAllocations) :
    finalRedeemLayout outs changeAtoms changeAllocations = .ok u ↔
      outs.length ≤ 5 + changeAllocations.length := by
  unfold ChangeCarried at h
  unfold finalRedeemLayout
  split at h
  · obtain ⟨⟨out, ho, hv, hs⟩, rfl⟩ := h
    rw [if_pos ‹_›]
    simp only [bind_eq_ok, demand_eq_ok, ensure_eq_ok]
    constructor
    · rintro ⟨_, -, _, -, _, -, _, -, hlen⟩
      exact hlen
    · intro hlen
      exact ⟨out, ho, (), hv, (), hs, (), trivial, hlen⟩
  · subst h
    rw [if_neg ‹_›]
    simp

/-- A redeem has no more outputs than the frozen layout: five, and one for each change
allocation of its envelope. -/
def Psbt.FitsRedeemLayout (psbt : Psbt) : Prop :=
  ∃ tokenId redeemAmount changeAllocations,
    decodeCoveOpReturn psbt = .ok (.redeem tokenId redeemAmount changeAllocations) ∧
      psbt.txOutputs.length ≤ 5 + changeAllocations.length

/-- A redeem the Guardian accepts passes the final validator exactly when it fits the frozen
layout. -/
theorem validateFinalizedRedeem_extracts {v : Validated RedeemAnalysis}
    {toks : List (Nat × TokenUtxo)} (hv : RedeemValidated C params X v toks)
    (hx : params.psbt.Extracts tx) (hp : PrevoutsTrue C params prevouts) (hX : X.PassesToo X') :
    (∃ r, validateFinalizedRedeemTransaction C X' (params.finalize tx prevouts) = .ok r) ↔
      params.psbt.FitsRedeemLayout := by
  have hwire := decodeWire_extracts hx hv.analyzed.wire
  have htotal := hv.analyzed.total hx
  have houts : (params.finalize tx prevouts).tx.outs = params.psbt.txOutputs := hx.outs
  have hlayout : params.psbt.FitsRedeemLayout ↔
      finalRedeemLayout params.psbt.txOutputs v.analysis.changeAtoms v.analysis.changeAllocations =
        .ok () := by
    rw [finalRedeemLayout_eq_ok hv.change, Psbt.FitsRedeemLayout]
    constructor
    · rintro ⟨_, _, _, hw, hlen⟩
      rw [hv.analyzed.wire] at hw
      cases hw
      exact hlen
    · intro hlen
      exact ⟨_, _, _, hv.analyzed.wire, hlen⟩
  rw [hlayout]
  simp only [validateFinalizedRedeemTransaction, bind_eq_ok, demand_eq_ok, ensure_eq_ok,
    escaped_eq_ok, mapError_eq_ok, pure_eq_ok, Prod.exists, asRedeem_eq_some, finalSimplicity]
  constructor
  · rintro ⟨_, _, hw, _, _, _, rfl, _, -, total, ht, _, -, _, -, _, -, _, -, _, -, _, -, _, -, _, -, _, -,
      _, hlay, -⟩
    rw [show (params.finalize tx prevouts).tx = tx from rfl, hwire] at hw
    cases hw
    obtain rfl : total = v.analysis.tokenInputTotalAtoms := by
      rw [show (params.finalize tx prevouts).tx = tx from rfl,
        show (params.finalize tx prevouts).view = params.view from rfl, htotal] at ht
      exact (Except.ok.inj ht).symm
    rwa [houts] at hlay
  · intro hlay
    obtain ⟨vault, hvault⟩ := hv.vault
    obtain ⟨payout, hpay, hpayv⟩ := hv.payout
    obtain ⟨w, hw, hpass⟩ := hv.simplicity
    have hminer0 := hv.minerFee_nonneg
    have hminer1 := hv.minerFee_le
    rw [hv.analyzed.minerFee] at hminer0 hminer1
    have hback := finalBackingInput_extracts hx hp hv.analyzed.state hv.analyzed.outpoint
      hv.analyzed.input0 hv.spends hvault
    have hpos := (applyRedeemV2_spec hv.analyzed.canonical).2.2.2.1
    have hchange := hv.change_nonneg
    unfold RedeemAnalysis.changeAtoms at hchange
    refine ⟨_, _, hwire, _, _, _, rfl, _, hback, _, htotal, (), by omega, (), hchange, (),
      hv.change_eq, _, hv.analyzed.canonical, _, hv.analyzed.fee, (),
      finalSuccessor_extracts hx hv.successor, payout, by rw [houts, hpay], (), ?_, (),
      finalProtocolFee_extracts hx hv.feePaid hv.feeSettles, (), by rw [houts]; exact hlay, (),
      checkMinerFee_extracts hx hp hminer0 hminer1, w, hw, (), hX.redeem w hpass, rfl⟩
    rw [hpayv, hv.analyzed.net]

/-- Every mint the Guardian accepts passes the final validator, and of the redeems it accepts
exactly those that fit the frozen layout do. -/
theorem finalized_agrees_iff (hx : params.psbt.Extracts tx) (hp : PrevoutsTrue C params prevouts)
    (hX : X.PassesToo X') :
    (∀ v, validateMintTransitionV3 C X params = .ok v →
      ∃ r, validateFinalizedMintTransaction C X' (params.finalize tx prevouts) = .ok r) ∧
    (∀ v, validateRedeemTransitionV3 C X params = .ok v →
      ((∃ r, validateFinalizedRedeemTransaction C X' (params.finalize tx prevouts) = .ok r) ↔
        params.psbt.FitsRedeemLayout)) := by
  constructor
  · intro v h
    exact validateFinalizedMint_extracts (validateMint_ok h) hx hp hX
  · intro v h
    obtain ⟨toks, hv⟩ := validateRedeem_ok h
    exact validateFinalizedRedeem_extracts hv hx hp hX

end

theorem prevoutsTrue_none (C : Crypto) (params : ValidateParams) : PrevoutsTrue C params none :=
  ⟨by simp, by simp⟩

theorem SimplicityExecutor.passesToo_self (X : SimplicityExecutor) : X.PassesToo X :=
  ⟨fun _ h => h, fun _ h => h⟩

/-- The sample mint passes both validators. -/
theorem finalized_agrees_sample : ∃ σ v r,
    validateMintTransitionV3 sampleCrypto passingExecutor (sampleMintParams σ) = .ok v ∧
    validateFinalizedMintTransaction sampleCrypto passingExecutor
      ((sampleMintParams σ).finalize (unsignedTransaction sampleMintPsbt) none) = .ok r := by
  obtain ⟨σ, -, v, -, hv⟩ := sampleMint_validates
  obtain ⟨r, hr⟩ := (finalized_agrees_iff (unsignedTransaction_extracts _) (prevoutsTrue_none _ _)
    passingExecutor.passesToo_self).1 v hv
  exact ⟨σ.toLedger, v, r, hv, hr⟩

/-- A full redeem with Bitcoin change and a discovery output: the Guardian accepts the PSBT,
the final validator refuses its transaction. -/
theorem discovery_redeem_refused :
    (∃ v, validateRedeemTransitionV3 lotsCrypto passingExecutor
      (sampleRedeemParams [sampleChange, sampleDiscovery]) = .ok v) ∧
    (sampleRedeemPsbt [sampleChange, sampleDiscovery]).Extracts
      (unsignedTransaction (sampleRedeemPsbt [sampleChange, sampleDiscovery])) ∧
    ¬ ∃ r, validateFinalizedRedeemTransaction lotsCrypto passingExecutor
      ((sampleRedeemParams [sampleChange, sampleDiscovery]).finalize
        (unsignedTransaction (sampleRedeemPsbt [sampleChange, sampleDiscovery])) none) = .ok r := by
  obtain ⟨v, hv⟩ := sampleRedeem_validates
  refine ⟨⟨v, hv⟩, unsignedTransaction_extracts _, ?_⟩
  obtain ⟨toks, hvalid⟩ := validateRedeem_ok hv
  intro hfinal
  -- Six outputs, and no change allocation on the wire.
  obtain ⟨tokenId, redeemAmount, changeAllocations, hwire, hlen⟩ :=
    (validateFinalizedRedeem_extracts hvalid (unsignedTransaction_extracts _)
      (prevoutsTrue_none _ _) passingExecutor.passesToo_self).mp hfinal
  have hdecode : decodeCoveOpReturn (sampleRedeemPsbt [sampleChange, sampleDiscovery]) =
      .ok (.redeem alphaId 4000000000000 []) := by decide +kernel
  have heq := Except.ok.inj (hwire.symm.trans hdecode)
  injection heq with _ _ hnil
  rw [hnil] at hlen
  exact absurd hlen (by decide)

end Cove
