import Cove.Guardian.Accept
import Cove.Indexer.Snapshot
import Cove.Wire.RoundTrip

/-! The Guardian service up to its validation: the checker of `funding.ts`, the transport of
`guardianApi.ts` and the request of `transitionSigner.ts` in `packages/cove-guardian/src/v3`,
wired as in `apps/guardian/src/service.ts`. -/

namespace Cove

open Checked

/-- What a checker asks besides the index: the confirmations of an unspent output, and, with an
ord server, what an output holds. -/
structure FundingSources where
  getTxout : OutPoint → Except Fault (Option Nat)
  assets : Option (OutPoint → Except Fault (Option String))

def chainFundingChecker (sources : FundingSources) (isCoveCarrier : OutPoint → Except Fault Bool)
    (minConfirmations : Option Nat) : FundingInputChecker where
  check o :=
    match sources.getTxout o with
    | .error e => .ok (.refused .fundingCheckUnavailable s!"could not look up {o.text}: {e.message}")
    | .ok none => .ok (.refused .fundingUnconfirmed s!"funding input {o.text} is spent or unknown")
    | .ok (some confirmations) =>
      if confirmations < minConfirmations.getD 1 then .ok (.refused .fundingUnconfirmed
        s!"funding input {o.text} is unconfirmed; wait for it to confirm")
      else match isCoveCarrier o with
        | .error e => .ok (.refused .fundingCheckUnavailable
            s!"could not check {o.text} for Cove tokens: {e.message}")
        | .ok true => .ok (.refused .fundingHoldsToken s!"funding input {o.text} holds Cove tokens")
        | .ok false =>
          match sources.assets with
          | none => .ok .ok
          | some describeAssets =>
            match describeAssets o with
            | .error e => .ok (.refused .fundingCheckUnavailable
                s!"could not check {o.text} for inscriptions and runes: {e.message}")
            -- The empty text is falsy.
            | .ok held => .ok ((held.filter (· ≠ "")).elim .ok fun held =>
                .refused .fundingHoldsToken s!"funding input {o.text} holds {held}")

def getLiveTokenUtxosAtDb (db : Db) (outpoints : List OutPoint) : List UtxoRow :=
  outpoints.filterMap fun o => (db.tokenUtxos.get o).filter fun row => row.spentByTxid = none

/-- The checker of the app and of the service: each asks its own node and ord server, and the
index for carriers of any token. -/
def fundingChecker (db : Db) (sources : FundingSources) : FundingInputChecker :=
  chainFundingChecker sources (fun o => .ok (0 < (getLiveTokenUtxosAtDb db [o]).length)) none

/-! The profile both processes are started with. -/

/-- Two of three keys, or one of one. -/
structure MainnetRecovery where
  threshold : Int
  pubkeys : List Bytes
  csvBlocks : Int
  shapeOk : (threshold = 2 ∧ pubkeys.length = 3) ∨ (threshold = 1 ∧ pubkeys.length = 1)

/-- What a mainnet profile that validates fixes for vaults and fees. -/
structure MainnetProfile where
  guardianXOnly : Bytes
  recovery : MainnetRecovery
  feeScript : Bytes
  buyFeeBps : Int
  redeemFeeBps : Int

def recoveryProfileFromMainnet (profile : MainnetProfile) : VaultRecoveryProfile where
  profileVersion := .mainnet1
  recoveryCsvBlocks := profile.recovery.csvBlocks
  recoveryThreshold := profile.recovery.threshold
  recoveryPubkeys := profile.recovery.pubkeys

/-! The transport. -/

/-- The tokenId of an envelope; a deploy has none. -/
def ParsedEnvelopeV2.tokenIdOf : ParsedEnvelopeV2 → Option Bytes
  | .deploy _ _ _ => none
  | .mint tokenId _ _ => some tokenId
  | .transfer tokenId _ => some tokenId
  | .redeem tokenId _ _ => some tokenId

/-- Of the request's own network nothing is read, and its PSBT is the app's. -/
structure GuardianSignRequestWire where
  operation : V3Operation
  psbt : Psbt
  tokenId : Bytes
  deriving DecidableEq, Repr

/-- What `RemoteGuardianTransitionSigner` sends. -/
def signRequest (op : V3Operation) (psbt : Psbt) : Except Refusal GuardianSignRequestWire := do
  let envelope ← thrown (decodeCoveOpReturn psbt)
  let tokenId ← demand envelope.tokenIdOf
    (.rejected .badPsbt "PSBT envelope is not a MINT/REDEEM")
  return ⟨op, psbt, tokenId⟩

/-- `signerXOnly` is the key the signing backend answers with. -/
structure InProcessGuardianTransportOptions where
  signerXOnly : Bytes
  network : Network
  loadView : Bytes → CoveCanonicalView
  recoveryKeyXOnly : Bytes
  recoveryProfile : Option VaultRecoveryProfile
  feeScript : Bytes
  maxMinerFeeSats : Option Int
  buyFeeBps : Option Int
  redeemFeeBps : Option Int
  fundingChecker : FundingInputChecker

namespace InProcessGuardianTransportOptions

/-- What the signer validates. The transport hands over no flat fees, no creator share and no
ticker. -/
def validateParams (opts : InProcessGuardianTransportOptions) (req : GuardianSignRequestWire) :
    ValidateParams where
  psbt := req.psbt
  view := opts.loadView req.tokenId
  network := opts.network
  guardianXOnly := opts.signerXOnly
  recoveryKeyXOnly := opts.recoveryKeyXOnly
  recoveryProfile := opts.recoveryProfile
  feeScript := opts.feeScript
  maxMinerFeeSats := opts.maxMinerFeeSats
  buyFeeBps := opts.buyFeeBps
  buyFeeFlatSats := none
  creatorFeeBps := none
  redeemFeeBps := opts.redeemFeeBps
  redeemFeeFlatSats := none
  discoveryTicker := none
  fundingChecker := opts.fundingChecker

/-- `InProcessGuardianTransport.sign` up to the signer's validation. -/
def sign (C : Crypto) (X : SimplicityExecutor) (opts : InProcessGuardianTransportOptions)
    (req : GuardianSignRequestWire) :
    Except Refusal (Validated MintAnalysis ⊕ Validated RedeemAnalysis) :=
  if req.operation = .mint then .inl <$> validateMintTransitionV3 C X (opts.validateParams req)
  else .inr <$> validateRedeemTransitionV3 C X (opts.validateParams req)

end InProcessGuardianTransportOptions

/-- The service holds the profile's Guardian key. -/
def buildGuardianService (profile : MainnetProfile) (network : Network) (db : Db)
    (sources : FundingSources) : InProcessGuardianTransportOptions where
  signerXOnly := profile.guardianXOnly
  network := network
  loadView tokenId := loadCanonicalViewSnapshotFromDb db tokenId []
  recoveryKeyXOnly := profile.recovery.pubkeys.headD []
  recoveryProfile := some (recoveryProfileFromMainnet profile)
  feeScript := profile.feeScript
  maxMinerFeeSats := some 20000
  buyFeeBps := some profile.buyFeeBps
  redeemFeeBps := some profile.redeemFeeBps
  fundingChecker := Cove.fundingChecker db sources

/-! The discovery output. -/

/-- The last output carries a `crc-20` object. -/
def CarriesDiscovery (outs : List TxOut) : Prop :=
  2 ≤ outs.length ∧ ∃ last ∈ outs.getLast?, ∃ payload ∈ opReturnPayload last.script,
    (decodeDiscovery payload).isSome = true

instance (outs : List TxOut) : Decidable (CarriesDiscovery outs) :=
  inferInstanceAs (Decidable (_ ∧ _))

theorem checkDiscoveryOutput_absent {outs : List TxOut} (h : ¬ CarriesDiscovery outs)
    (binary : ParsedEnvelopeV2) (ticker : Option Bytes) :
    checkDiscoveryOutput outs binary ticker = ⟨false, false, 0, none⟩ := by
  unfold checkDiscoveryOutput
  dsimp only
  split
  · rfl
  · rename_i last hlast
    split
    · rfl
    · rename_i hlen
      split
      · rfl
      · rename_i payload hpayload
        split
        · rfl
        · rename_i hsome
          exfalso
          apply h
          refine ⟨by omega, last, hlast, payload, hpayload, ?_⟩
          simpa [Option.isSome_iff_ne_none] using hsome

/-- A discovery output that agrees is the one payload the envelope allows. -/
theorem checkDiscoveryOutput_carried {outs : List TxOut} (h : CarriesDiscovery outs)
    (binary : ParsedEnvelopeV2) (ticker : Option Bytes) :
    (checkDiscoveryOutput outs binary ticker).present = true ∧
      ((checkDiscoveryOutput outs binary ticker).agrees = true ↔ ∃ last ∈ outs.getLast?,
        last.value = 0 ∧ ∃ payload ∈ opReturnPayload last.script,
          discoveryAgreesWithBinary payload binary ticker = true) := by
  obtain ⟨hlen, last, hlast, payload, hpayload, hsome⟩ := h
  rw [Option.mem_def] at hlast hpayload
  have hpresent : ¬ (decodeDiscovery payload).isNone = true := by
    simpa [Option.isSome_iff_ne_none] using hsome
  unfold checkDiscoveryOutput
  simp only [hlast, hpayload, if_neg (show ¬ outs.length < 2 by omega), if_neg hpresent,
    Option.mem_def, Option.some.injEq, exists_eq_left']
  split
  · rename_i hvalue
    simp [hvalue]
  · rename_i hvalue
    rw [ne_eq, not_not] at hvalue
    split <;> simp [*]

theorem canonicalTicker_ne_nil {ticker tick : Bytes} (h : canonicalTicker ticker = .ok tick) :
    tick ≠ [] := by
  obtain ⟨hshape, rfl⟩ := canonicalTicker_eq_ok.mp h
  cases ticker with
  | nil => cases hshape
  | cons c cs => simp

/-- A present tick makes the payload longer. -/
theorem serializeDiscovery_tick (env : DiscoveryEnvelope) (tick : Bytes) :
    (serializeDiscovery { env with tick := none }).length <
      (serializeDiscovery { env with tick := some tick }).length := by
  cases hamt : env.amt with
  | none => simp [serializeDiscovery, Bytes.join]
  | some amt =>
    simp [serializeDiscovery, Bytes.join]
    omega

/-- With a ticker a mint has another payload than without. -/
theorem discoveryAgrees_ticker {payload tokenId ticker : Bytes} {amount : Int} {vout : Nat}
    (h : discoveryAgreesWithBinary payload (.mint tokenId amount vout) (some ticker) = true) :
    discoveryAgreesWithBinary payload (.mint tokenId amount vout) none = false := by
  unfold discoveryAgreesWithBinary at h ⊢
  split at h
  · rename_i expected hexpected
    obtain rfl := of_decide_eq_true h
    simp only [encodeDiscovery, discoveryFor, bind_eq_ok, pure_eq_ok, exists_eq_left',
      if_true, map_eq_ok, ensure_eq_ok] at hexpected
    obtain ⟨_, ⟨tick, htick, rfl⟩, _, -, rfl⟩ := hexpected
    split
    · rename_i other hother
      simp only [encodeDiscovery, discoveryFor, bind_eq_ok, pure_eq_ok, exists_eq_left',
        if_true, ensure_eq_ok] at hother
      obtain ⟨_, -, rfl⟩ := hother
      have hne : ¬ some tick = some [] := by
        rw [Option.some.injEq]
        exact canonicalTicker_ne_nil htick
      rw [if_neg hne]
      apply decide_eq_false
      intro heq
      have hlt := serializeDiscovery_tick ⟨coveProtocolId, Bytes.ascii "mint", none,
        some (Bytes.decimalText amount)⟩ tick
      have hlen := congrArg List.length heq
      dsimp only at hlt hlen
      omega
    · rfl
  · cases h

/-- A discovery output that passes for a mint with a ticker does not pass without one. -/
theorem checkDiscoveryOutput_ticker {outs : List TxOut} (h : CarriesDiscovery outs)
    {tokenId ticker : Bytes} {amount : Int} {vout : Nat}
    (hwith : (checkDiscoveryOutput outs (.mint tokenId amount vout) (some ticker)).present = false ∨
      (checkDiscoveryOutput outs (.mint tokenId amount vout) (some ticker)).agrees = true) :
    ¬ ((checkDiscoveryOutput outs (.mint tokenId amount vout) none).present = false ∨
      (checkDiscoveryOutput outs (.mint tokenId amount vout) none).agrees = true) := by
  obtain ⟨hpresent, hagree⟩ :=
    checkDiscoveryOutput_carried h (.mint tokenId amount vout) (some ticker)
  obtain ⟨hpresent', hagree'⟩ := checkDiscoveryOutput_carried h (.mint tokenId amount vout) none
  rw [hpresent, hagree] at hwith
  rw [hpresent', hagree']
  obtain ⟨last, hlast, -, payload, hpayload, hwith⟩ := hwith.resolve_left (by simp)
  intro hwithout
  obtain ⟨last', hlast', -, payload', hpayload', hwithout⟩ := hwithout.resolve_left (by simp)
  obtain rfl := Option.mem_unique hlast hlast'
  obtain rfl := Option.mem_unique hpayload hpayload'
  rw [discoveryAgrees_ticker hwith] at hwithout
  cases hwithout

/-! Two sets of arguments for one validation. -/

/-- The arguments agree in all that decides a transition but the carriers in the view, the fees
of the operation, the discovery ticker and the checker. -/
structure SameRules (params params' : ValidateParams) : Prop where
  psbt : params'.psbt = params.psbt
  network : params'.network = params.network
  recoveryProfile : params'.recoveryProfile = params.recoveryProfile
  keys : params'.vaultKeys = params.vaultKeys
  feeScript : params'.feeScript = params.feeScript
  maxMinerFeeSats : params'.maxMinerFeeSats.getD 20000 = params.maxMinerFeeSats.getD 20000
  state : params'.view.getCurrentBackingState = params.view.getCurrentBackingState
  outpoint : params'.view.getBackingOutpoint = params.view.getBackingOutpoint
  creator : params'.view.getTokenCreatorScript = params.view.getTokenCreatorScript

section

variable {C : Crypto} {X : SimplicityExecutor} {params params' : ValidateParams}

namespace SameRules

theorem checkBackingInput (h : SameRules params params') (o : OutPoint) :
    checkBackingInput params' o = checkBackingInput params o := by
  rw [Cove.checkBackingInput, Cove.checkBackingInput, h.psbt]

theorem checkProtocolFee (h : SameRules params params') (outs : List TxOut) (feeSats feeBps : Int) :
    checkProtocolFee params' outs feeSats feeBps = checkProtocolFee params outs feeSats feeBps := by
  rw [Cove.checkProtocolFee, Cove.checkProtocolFee, h.feeScript]

theorem requireMainnetProfile (h : SameRules params params') :
    requireMainnetProfile params' = requireMainnetProfile params := by
  rw [Cove.requireMainnetProfile, Cove.requireMainnetProfile, h.network, h.recoveryProfile]

end SameRules

/-- With the same fees, what passes under one set of arguments passes under the other once its
outputs and its funding inputs do. -/
theorem validateMint_of_sameRules (h : SameRules params params')
    (hbps : params'.buyFeeBps.getD coveFeeConfig.buyFeeBps =
      params.buyFeeBps.getD coveFeeConfig.buyFeeBps)
    (hflat : params'.buyFeeFlatSats.getD coveFeeConfig.buyFeeFlatSats =
      params.buyFeeFlatSats.getD coveFeeConfig.buyFeeFlatSats)
    (hcreator : params'.creatorFeeBps.getD coveFeeConfig.creatorFeeBps =
      params.creatorFeeBps.getD coveFeeConfig.creatorFeeBps)
    (houtputs : checkOutputCount params params.psbt.txOutputs 6 = .ok () →
      checkOutputCount params' params.psbt.txOutputs 6 = .ok ())
    (hfund : ∀ indices, checkFundingInputs params indices = .ok () →
      checkFundingInputs params' indices = .ok ())
    {v : Validated MintAnalysis} (hv : validateMintTransitionV3 C X params = .ok v) :
    validateMintTransitionV3 C X params' = .ok v := by
  have hanalysis : analyzeMintTransitionV3 params' = analyzeMintTransitionV3 params := by
    simp only [analyzeMintTransitionV3, h.psbt, h.state, h.outpoint, h.creator, h.checkBackingInput,
      hbps, hflat, hcreator]
  simp only [validateMintTransitionV3, bind_eq_ok, thrown_eq_ok, pure_eq_ok] at hv
  obtain ⟨_, hprofile, a, ha, prevVault, hprev, nextVault, hnext, _, hin, _, hvout, _, hsucc, carrier,
    hcar, _, hcarv, _, hcars, _, hfee, creatorOut, hcr, _, hcrok, _, hcount, _, hminer, _, hfunding, w,
    hw, _, hsim, rfl⟩ := hv
  simp only [validateMintTransitionV3, bind_eq_ok, thrown_eq_ok, pure_eq_ok, h.requireMainnetProfile,
    hanalysis, h.psbt, h.keys, h.maxMinerFeeSats, h.checkProtocolFee, hbps]
  exact ⟨_, hprofile, a, ha, prevVault, hprev, nextVault, hnext, _, hin, _, hvout, _, hsucc, carrier,
    hcar, _, hcarv, _, hcars, _, hfee, creatorOut, hcr, _, hcrok, _, houtputs hcount, _, hminer, _,
    hfund _ hfunding, w, hw, _, hsim, rfl⟩

/-- An accepted mint passed the check of its outputs. -/
theorem validateMint_outputs {v : Validated MintAnalysis}
    (h : validateMintTransitionV3 C X params = .ok v) :
    checkOutputCount params params.psbt.txOutputs 6 = .ok () := by
  simp only [validateMintTransitionV3, bind_eq_ok, thrown_eq_ok, pure_eq_ok] at h
  obtain ⟨_, -, _, -, _, -, _, -, _, -, _, -, _, -, _, -, _, -, _, -, _, -, _, -, _, -, _, hcount, -⟩ := h
  exact hcount

theorem resolveSellerInputs_congr {view view' : CoveCanonicalView} (tokenId : Bytes)
    {inputs : List PsbtInput} (i : Nat)
    (h : ∀ input ∈ inputs, view'.getTokenUtxo input.outpoint = view.getTokenUtxo input.outpoint) :
    resolveSellerInputs view' tokenId i inputs = resolveSellerInputs view tokenId i inputs := by
  induction inputs generalizing i with
  | nil => rfl
  | cons input inputs ih =>
    rw [List.forall_mem_cons] at h
    rw [resolveSellerInputs, resolveSellerInputs, h.1, ih (i + 1) h.2]

/-- For a redeem the views have to agree on the inputs after the vault, too. -/
theorem validateRedeem_of_sameRules (h : SameRules params params')
    (hbps : params'.redeemFeeBps.getD coveFeeConfig.redeemFeeBps =
      params.redeemFeeBps.getD coveFeeConfig.redeemFeeBps)
    (hflat : params'.redeemFeeFlatSats.getD coveFeeConfig.redeemFeeFlatSats =
      params.redeemFeeFlatSats.getD coveFeeConfig.redeemFeeFlatSats)
    (hticker : params'.discoveryTicker = params.discoveryTicker)
    (hview : ∀ input ∈ params.psbt.inputs.drop 1,
      params'.view.getTokenUtxo input.outpoint = params.view.getTokenUtxo input.outpoint)
    (hchecker : ∀ o, params.fundingChecker.check o = .ok .ok →
      params'.fundingChecker.check o = .ok .ok)
    {v : Validated RedeemAnalysis} (hv : validateRedeemTransitionV3 C X params = .ok v) :
    validateRedeemTransitionV3 C X params' = .ok v := by
  have hanalysis : analyzeRedeemTransitionV3 params' = analyzeRedeemTransitionV3 params := by
    simp only [analyzeRedeemTransitionV3, h.psbt, h.state, h.outpoint, h.checkBackingInput, hbps,
      hflat, resolveSellerInputs_congr _ _ hview]
  have houtputs : ∀ outs n, checkOutputCount params' outs n = checkOutputCount params outs n := by
    intro outs n
    simp only [checkOutputCount, h.psbt, hticker]
  simp only [validateRedeemTransitionV3, bind_eq_ok, thrown_eq_ok, pure_eq_ok] at hv
  obtain ⟨_, hprofile, a, ha, prevVault, hprev, nextVault, hnext, _, hin, _, hown, _, hsum, _, hsucc,
    payout, hpay, _, hpayv, _, hfee, _, hchange, _, hcount, _, hback, _, hminer, _, hfunding, w, hw, _,
    hsim, rfl⟩ := hv
  simp only [validateRedeemTransitionV3, bind_eq_ok, thrown_eq_ok, pure_eq_ok, h.requireMainnetProfile,
    hanalysis, h.psbt, h.keys, h.maxMinerFeeSats, h.checkProtocolFee, hbps, houtputs]
  refine ⟨_, hprofile, a, ha, prevVault, hprev, nextVault, hnext, _, hin, _, hown, _, hsum, _, hsucc,
    payout, hpay, _, hpayv, _, hfee, _, hchange, _, hcount, _, hback, _, hminer, (), ?_, w, hw, _, hsim,
    rfl⟩
  rw [checkFundingInputs_eq_ok] at hfunding ⊢
  intro i hi
  obtain ⟨input, hget, hnone, hcheck⟩ := hfunding i hi
  obtain ⟨-, hi⟩ := List.mem_filter.mp hi
  have hpos : i ≠ 0 := (of_decide_eq_true hi).1
  have hmem : input ∈ params.psbt.inputs.drop 1 := by
    apply List.mem_iff_getElem?.mpr
    refine ⟨i - 1, ?_⟩
    rw [List.getElem?_drop, show 1 + (i - 1) = i by omega, hget]
  exact ⟨input, by rw [h.psbt, hget], by rw [hview input hmem, hnone], hchecker _ hcheck⟩

/-- What passes the checker is no unspent carrier of the index. -/
theorem fundingChecker_not_live {db : Db} {sources : FundingSources} {o : OutPoint} {row : UtxoRow}
    (h : (fundingChecker db sources).check o = .ok .ok) (hrow : db.tokenUtxos.get o = some row) :
    row.spentByTxid ≠ none := by
  intro hlive
  have hrows : getLiveTokenUtxosAtDb db [o] = [row] := by
    rw [getLiveTokenUtxosAtDb, List.filterMap_cons, hrow]
    simp [Option.filter, hlive]
  rw [fundingChecker, chainFundingChecker] at h
  dsimp only at h
  split at h
  · cases h
  · cases h
  · split at h
    · cases h
    · rw [hrows] at h
      cases h

end

end Cove
