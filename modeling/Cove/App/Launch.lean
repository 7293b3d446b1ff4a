import Cove.App.Build
import Cove.Guardian.Deploy
import Cove.Guardian.Laid
import Cove.Indexer.Admit

/-! A launch: `validateFinalizedDeployTransaction` of `packages/cove-guardian/src/v3/finalize.ts`, and
`prepareLaunch`, `buildLaunch` and `submitLaunch` of `packages/cove-app/src/service.ts`. -/

namespace Cove

open Checked

/-! The final validator. -/

/-- The fields left once the opcode is known to be `OP_DEPLOY`. -/
def ParsedEnvelopeV2.asDeploy : ParsedEnvelopeV2 → Option (Nat × Bytes × Bytes)
  | .deploy policyVersion ticker tokenNonce => some (policyVersion, ticker, tokenNonce)
  | _ => none

structure FinalizeDeployParams where
  tx : Transaction
  chainIdentity : Bytes
  keys : VaultKeys

def validateFinalizedDeployTransaction (C : Crypto) (params : FinalizeDeployParams) :
    Except FinalRefusal ValidatedCoveTransaction := do
  let wire ← decodeWire params.tx
  let (policyVersion, ticker, tokenNonce) ← demand wire.asDeploy (.rejected "WRONG_OPCODE")
  -- The token id commits to the creator, so the creator output is read first.
  let creatorOut : TxOut ← demand params.tx.outs[2]? (.rejected "CREATOR_OUTPUT_MISSING")
  ensure ((creatorOut.value : Int) = creatorRecordSats ∧ isCreatorScript creatorOut.script)
    (.rejected "CREATOR_OUTPUT_MISSING")
  let tokenId ← escaped (computeTokenId C
    ⟨params.chainIdentity, policyVersion, ticker, tokenNonce, creatorOut.script⟩)
  let s0 ← escaped (s0StateV2 tokenId)
  let vault ← escaped (buildBackingVaultV3 C s0 params.keys)
  let s0Out : TxOut ← demand params.tx.outs[1]? (.rejected "S0_VAULT_MISMATCH")
  ensure (s0Out.script = vault.scriptPubKey) (.rejected "S0_VAULT_MISMATCH")
  ensure ((s0Out.value : Int) = reserveAnchorSats) (.rejected "S0_ANCHOR_MISMATCH")
  return ⟨params.tx.getId C, .deploy, tokenId⟩

/-! The service. -/

/-- The settings of `config.ts` that only a launch reads. -/
structure LaunchConfig where
  chainIdentity : Bytes
  canaryAllowedTokenIds : Option (List Bytes)
  canaryAllowedWalletScripts : Option (List Bytes)
  deriving DecidableEq, Repr

/-- The metadata beside a launch is checked and stored apart from the chain; what its check says
is all a launch sees of it. -/
structure LaunchPrepareInput where
  ticker : Bytes
  creatorScript : Option Bytes
  nonce : Option Bytes
  metadata : Except Fault Unit

structure LaunchPrepareResult where
  tokenId : Option Bytes
  ticker : Bytes
  nonce : Bytes
  policyVersion : Nat
  chainIdentity : Bytes
  publicSupplyAtoms : Int
  vaultAnchorSats : Int
  deriving DecidableEq, Repr

structure LaunchRequest where
  ticker : Bytes
  nonce : Bytes
  wallet : WalletFields
  funding : List OutPoint
  feeRateSatPerVb : Option Int
  minerFeeSats : Option Int
  metadata : Except Fault Unit
  idempotencyKey : Bytes

structure BuiltLaunch extends BuiltTransaction where
  tokenId : Bytes
  session : NewTxSession
  deriving DecidableEq, Repr

namespace LaunchConfig

/-- The nonce, when none is given, is drawn. -/
def prepareLaunch (C : Crypto) (launch : LaunchConfig) (enabled : Except Fault Unit)
    (randomBytes : Bytes) (input : LaunchPrepareInput) : Except Fault LaunchPrepareResult := do
  enabled
  let ticker ← canonicalTicker input.ticker
  let nonce := (truthy input.nonce).getD randomBytes
  ensure (nonce.length = 32) (appError "TOKEN_AMOUNT_INVALID" "nonce must be 32 bytes")
  let tokenId ← match truthy input.creatorScript with
    | none => pure none
    | some creatorScript => do
      let id ← computeTokenId C ⟨launch.chainIdentity, 3, ticker, nonce, creatorScript⟩
      pure (some id)
  input.metadata
  return {
    tokenId, ticker, nonce
    policyVersion := 3
    chainIdentity := launch.chainIdentity
    publicSupplyAtoms := publicSupplyAtoms
    vaultAnchorSats := reserveAnchorSats }

def assertCanaryAllowed (launch : LaunchConfig) (tokenId walletScript : Bytes) :
    Except Fault Unit := do
  ensure (∀ allowed ∈ launch.canaryAllowedTokenIds, tokenId ∈ allowed)
    (appError "CANARY_TOKEN_NOT_ALLOWED"
      ("token " ++ hexName tokenId ++ " is not in the canary allowlist"))
  ensure (∀ allowed ∈ launch.canaryAllowedWalletScripts, walletScript ≠ [] → walletScript ∈ allowed)
    (appError "CANARY_WALLET_NOT_ALLOWED" "wallet script is not in the canary allowlist")

end LaunchConfig

namespace V3AppService

variable (C : Crypto) (app : V3AppService) (launch : LaunchConfig) (ctx : BuildContext)

def deployParams (req : LaunchRequest) (ticker : Bytes) (wallet : ResolvedWalletIdentity)
    (deployerInputs : List ResolvedInput) (minerFeeSats : Int) : DeployParams where
  identity := ⟨launch.chainIdentity, 3, ticker, req.nonce⟩
  keys := app.config.vaultKeys
  deployerInputs
  deployerChangeScript := wallet.payments.script
  creatorScript := some wallet.payments.script
  minerFeeSats

def deployIntent (wallet : ResolvedWalletIdentity) (tokenId : Bytes) (result : DeployResult) :
    ClientIntent where
  operation := .other "DEPLOY"
  tokenId := some tokenId
  tokenAmountAtoms := some 0
  grossSats := none
  protocolFeeSats := none
  minerFeeSats := result.minerFeeSats
  netSats := none
  walletScript := wallet.payments.script
  ordinalsScript := some wallet.ordinals.script
  unsignedTxDigest := unsignedTxDigest C result.psbt
  walletDeltaSats := some (walletDeltaSats result.psbt wallet.scripts)

def buildLaunch (req : LaunchRequest) : Except Fault BuiltLaunch := do
  ctx.guards
  let wallet ← resolveWalletIdentity (walletIdentityFrom req.wallet)
  let ticker ← canonicalTicker req.ticker
  -- The creator is paid at their payment address, where BTC belongs.
  let tokenId ← computeTokenId C
    ⟨launch.chainIdentity, 3, ticker, req.nonce, wallet.payments.script⟩
  launch.assertCanaryAllowed tokenId req.wallet.walletScript
  let (deployerInputs, minerFeeSats) ← app.resolveFundingAndFee ctx {
    op := .deploy
    wallet
    candidates := req.funding
    targetSats := reserveAnchorSats + creatorRecordSats
    feeRateSatPerVb := req.feeRateSatPerVb
    explicitMinerFeeSats := req.minerFeeSats }
  let result ← buildDeployPsbtV3 C ctx.scriptForKind
    (app.deployParams launch req ticker wallet deployerInputs minerFeeSats)
  let session : NewTxSession := {
    operation := .deploy
    tokenId := some tokenId
    walletScript := req.wallet.walletScript
    backing := none
    unsignedTxDigest := unsignedTxDigest C result.psbt
    idempotencyKey := req.idempotencyKey }
  app.createSession session
  req.metadata
  return {
    psbt := result.psbt
    intent := deployIntent C wallet tokenId result
    tokenId, session }

/-- What the wallet sent back: the PSBT, whether each of its inputs is validly signed, and the
transaction extracted from it. -/
structure SignedSubmission where
  psbt : Psbt
  signatures : Except Fault Unit
  tx : Transaction

/-- The validator of a launch under the app's settings. -/
def finalizeDeploy (tx : Transaction) : FinalizeDeployParams :=
  ⟨tx, launch.chainIdentity, app.config.vaultKeys⟩

/-- A refused validation is thrown under its reason. -/
def finallyChecked {α : Type} (x : Except FinalRefusal α) : Except Fault α :=
  x.mapError fun r => match r with
    | .rejected reason => appError "GUARDIAN_REJECTED" reason
    | .fault f => f

/-- A submission a second time returns the first one's txid. `broadcast` is the node's answer. -/
def submitLaunch (sessionId : Nat) (signed : SignedSubmission) (broadcast : Except Fault Unit) :
    Except Fault (Option Bytes × TxSessions) := do
  let session ← demand (app.sessions.get sessionId)
    (appError "SESSION_NOT_FOUND" "transaction session not found")
  ensure (session.operation = .deploy) (appError "SESSION_STATE_INVALID" "session is not DEPLOY")
  if session.status = .broadcast ∨ session.status = .confirmed then
    return (session.txid, app.sessions)
  else
    ensure (unsignedTxDigest C signed.psbt = session.unsignedTxDigest)
      (appError "PSBT_MUTATED" "unsigned tx digest changed")
    signed.signatures
    let validated ← finallyChecked
      (validateFinalizedDeployTransaction C (app.finalizeDeploy launch signed.tx))
    broadcast
    -- The txid of another session breaks the unique index, after the broadcast.
    ensure (¬ ∃ k r, app.sessions.get k = some r ∧ (k ≠ sessionId ∧ r.txid = some validated.txid))
      ⟨none, "duplicate key value violates unique constraint"⟩
    return (some validated.txid, markBroadcast app.sessions sessionId validated.txid)

end V3AppService

/-! The validator and the indexer. -/

section

variable {C : Crypto} {cfg : V3IndexerConfig} {block : V3BlockInput} {σ : Ledger}
  {params : FinalizeDeployParams} {policyVersion : Nat} {ticker tokenNonce tokenId : Bytes}

theorem asDeploy_eq_some {e : ParsedEnvelopeV2} :
    e.asDeploy = some (policyVersion, ticker, tokenNonce) ↔
      e = .deploy policyVersion ticker tokenNonce := by
  cases e <;> simp [ParsedEnvelopeV2.asDeploy]

/-- What the final validator has checked of a deploy it accepts. -/
structure DeployValidated (C : Crypto) (params : FinalizeDeployParams) (policyVersion : Nat)
    (ticker tokenNonce tokenId : Bytes) : Prop where
  wire : decodeCoveOpReturnTx params.tx = .ok (.deploy policyVersion ticker tokenNonce)
  creator : ∃ creatorOut, params.tx.outs[2]? = some creatorOut ∧
    ((creatorOut.value : Int) = creatorRecordSats ∧ isCreatorScript creatorOut.script) ∧
    computeTokenId C ⟨params.chainIdentity, policyVersion, ticker, tokenNonce, creatorOut.script⟩ =
      .ok tokenId
  anchored : ∃ s0 vault s0Out, s0StateV2 tokenId = .ok s0 ∧
    buildBackingVaultV3 C s0 params.keys = .ok vault ∧ params.tx.outs[1]? = some s0Out ∧
    s0Out.script = vault.scriptPubKey ∧ (s0Out.value : Int) = reserveAnchorSats

theorem validateFinalizedDeploy_eq_ok {r : ValidatedCoveTransaction} :
    validateFinalizedDeployTransaction C params = .ok r ↔
      ∃ policyVersion ticker tokenNonce tokenId,
        DeployValidated C params policyVersion ticker tokenNonce tokenId ∧
        r = ⟨params.tx.getId C, .deploy, tokenId⟩ := by
  simp only [validateFinalizedDeployTransaction, decodeWire, escaped, bind_eq_ok, demand_eq_ok,
    ensure_eq_ok, mapError_eq_ok, pure_eq_ok, Prod.exists, asDeploy_eq_some]
  constructor
  · intro h
    obtain ⟨_, hwire, policyVersion, ticker, tokenNonce, rfl, creatorOut, hcreator, _, hrecord, tokenId,
      hid, s0, hs0, vault, hvault, s0Out, hout, _, hscript, _, hvalue, rfl⟩ := h
    exact ⟨policyVersion, ticker, tokenNonce, tokenId, ⟨hwire, ⟨creatorOut, hcreator, hrecord, hid⟩,
      ⟨s0, vault, s0Out, hs0, hvault, hout, hscript, hvalue⟩⟩, rfl⟩
  · intro h
    obtain ⟨policyVersion, ticker, tokenNonce, tokenId, hv, rfl⟩ := h
    obtain ⟨creatorOut, hcreator, hrecord, hid⟩ := hv.creator
    obtain ⟨s0, vault, s0Out, hs0, hvault, hout, hscript, hvalue⟩ := hv.anchored
    exact ⟨_, hv.wire, policyVersion, ticker, tokenNonce, rfl, creatorOut, hcreator, (), hrecord,
      tokenId, hid, s0, hs0, vault, hvault, s0Out, hout, (), hscript, (), hvalue, rfl⟩

/-- The validator and the indexer are set up alike. -/
structure FinalizeDeployParams.SharesRules (params : FinalizeDeployParams) (cfg : V3IndexerConfig) :
    Prop where
  chainIdentity : params.chainIdentity = cfg.chainIdentity
  keys : params.keys = cfg.vaultKeys

/-- A vault commits to the hash of its state. -/
theorem stateHash_of_vault {s : CoveStateV2} {keys : VaultKeys} {vault : CoveVaultV3}
    (h : buildBackingVaultV3 C s keys = .ok vault) : ∃ stateHash, stateHashV2 C s = .ok stateHash := by
  simp only [buildBackingVaultV3, bind_eq_ok] at h
  obtain ⟨stateHash, hhash, -⟩ := h
  exact ⟨stateHash, hhash⟩

/-- On a ledger without the token, a validated deploy is one the indexer accepts. -/
theorem DeployValidated.accepted (hv : DeployValidated C params policyVersion ticker tokenNonce tokenId)
    (hshared : params.SharesRules cfg) (hfresh : σ.tokens.has tokenId = false) :
    ∃ a : DeployAccepted C cfg σ params.tx policyVersion ticker tokenNonce, a.tokenId = tokenId := by
  obtain ⟨creatorOut, hcreator, hrecord, hid⟩ := hv.creator
  obtain ⟨s0, vault, s0Out, hs0, hvault, hout, hscript, hvalue⟩ := hv.anchored
  obtain ⟨stateHash, hhash⟩ := stateHash_of_vault hvault
  rw [hshared.chainIdentity] at hid
  rw [hshared.keys] at hvault
  exact ⟨⟨creatorOut, tokenId, s0, vault, s0Out, stateHash, hcreator, hrecord, hid, hfresh, hs0, hvault,
    hout, hscript, hvalue, hhash⟩, rfl⟩

theorem DeployAccepted.validated (a : DeployAccepted C cfg σ params.tx policyVersion ticker tokenNonce)
    (hshared : params.SharesRules cfg)
    (hwire : decodeCoveOpReturnTx params.tx = .ok (.deploy policyVersion ticker tokenNonce)) :
    DeployValidated C params policyVersion ticker tokenNonce a.tokenId := by
  constructor
  case wire => exact hwire
  case creator =>
    refine ⟨a.creatorOut, a.creator_get, a.creator_ok, ?_⟩
    rw [hshared.chainIdentity]
    exact a.tokenId_eq
  case anchored =>
    refine ⟨a.s0, a.vault, a.s0Out, a.s0_eq, ?_, a.s0Out_get, a.s0Out_script, a.s0Out_value⟩
    rw [hshared.keys]
    exact a.vault_eq

/-- The indexer reads the envelope as the validator does. -/
theorem decodeCoveOpReturnTx_iff {tx : Transaction} {e : ParsedEnvelopeV2} :
    decodeCoveOpReturnTx tx = .ok e ↔ parseCoveTx tx = .cove e := by
  constructor
  · exact decodeCoveOpReturnTx_parses
  · intro h
    obtain ⟨out0, hget, hop, hpush, hdecode⟩ := parseCoveTx_eq_cove.mp h
    simp only [decodeCoveOpReturnTx, opReturnEnvelope, bind_eq_ok, demand_eq_ok, ensure_eq_ok]
    exact ⟨out0, hget, (), ⟨by omega, hop⟩, (), hpush, hdecode⟩

/-- The transaction's turn records it as a valid deploy of the token. -/
def RecordsDeploy (C : Crypto) (cfg : V3IndexerConfig) (block : V3BlockInput) (txIndex : Nat)
    (tx : Transaction) (tokenId : Bytes) (run run' : BlockRun) : Prop :=
  applyTx C cfg block txIndex tx run = .ok run' ∧
    ∃ event, run'.events = run.events ++ [event] ∧ event.txid = tx.getId C ∧ event.valid = true ∧
      event.operation = some .deploy ∧ event.tokenId = some tokenId

/-- The turn of an accepted deploy. -/
theorem DeployAccepted.records {run : BlockRun} {tx : Transaction}
    (a : DeployAccepted C cfg run.ledger tx policyVersion ticker tokenNonce) (block : V3BlockInput)
    (txIndex : Nat) (hn : tx.spends.Nodup)
    (hp : parseCoveTx tx = .cove (.deploy policyVersion ticker tokenNonce)) :
    ∃ run', RecordsDeploy C cfg block txIndex tx a.tokenId run run' ∧
      run'.ledger.tokens.get a.tokenId = some (a.tokenMeta block) ∧
      run'.ledger.backing.get a.tokenId = some (a.nextBacking block) := by
  refine ⟨_, ⟨applyTx_accepted hn hp (.deploy a), _, rfl, rfl, rfl, rfl, rfl⟩, ?_, ?_⟩
  · exact Dict.get_set_self _ _ _
  · exact Dict.get_set_self _ _ _

/-- The final validator broadcasts a deploy of a token not yet known exactly when the indexer's turn
records it. -/
theorem launch_admission_iff {run : BlockRun} {txIndex : Nat} (hshared : params.SharesRules cfg)
    (hn : params.tx.spends.Nodup) :
    (validateFinalizedDeployTransaction C params = .ok ⟨params.tx.getId C, .deploy, tokenId⟩ ∧
      run.ledger.tokens.has tokenId = false) ↔
    ∃ run', RecordsDeploy C cfg block txIndex params.tx tokenId run run' := by
  constructor
  · intro h
    obtain ⟨hvalid, hfresh⟩ := h
    obtain ⟨policyVersion, ticker, tokenNonce, id, hv, hr⟩ := validateFinalizedDeploy_eq_ok.mp hvalid
    obtain rfl : tokenId = id := congrArg ValidatedCoveTransaction.tokenId hr
    obtain ⟨a, rfl⟩ := hv.accepted hshared hfresh
    obtain ⟨run', hrec, -⟩ := a.records block txIndex hn
      (decodeCoveOpReturnTx_iff.mp hv.wire)
    exact ⟨run', hrec⟩
  · intro h
    obtain ⟨run', happly, event, hevents, -, hvalid, hop, hid⟩ := h
    obtain ⟨o, ho⟩ := applyTx_cases hn happly
    rw [ho] at hevents
    cases o with
    | nonCove _ => simp [Outcome.after, Outcome.events] at hevents
    | refused r hr _ _ =>
      obtain rfl : event = eventOf C block txIndex params.tx r := by
        simpa [Outcome.after, Outcome.events] using hevents.symm
      rw [eventOf, hr] at hvalid
      cases hvalid
    | accepted envelope hp acc =>
      obtain rfl : event = eventOf C block txIndex params.tx acc.result := by
        simpa [Outcome.after, Outcome.events] using hevents.symm
      -- Only a deploy is recorded as one.
      cases acc with
      | mint a => cases hop
      | transfer a => cases hop
      | redeem a => cases hop
      | deploy a =>
        obtain rfl : a.tokenId = tokenId := Option.some.inj hid
        have hv := a.validated hshared (decodeCoveOpReturnTx_iff.mpr hp)
        exact ⟨validateFinalizedDeploy_eq_ok.mpr ⟨_, _, _, _, hv, rfl⟩, a.fresh⟩

theorem launch_admission_sample : ∃ run', RecordsDeploy sampleCrypto sampleConfig deployBlock 0
    alphaDeploy alphaId ⟨⟨∅, ∅, ∅⟩, [], []⟩ run' :=
  (@launch_admission_iff sampleCrypto sampleConfig deployBlock
    ⟨alphaDeploy, sampleConfig.chainIdentity, sampleConfig.vaultKeys⟩ alphaId ⟨⟨∅, ∅, ∅⟩, [], []⟩ 0
    ⟨rfl, rfl⟩ (by decide)).mp ⟨by decide +kernel, rfl⟩

/-! The built deploy. -/

/-- An id is that of the upper-case ticker. -/
theorem computeTokenId_upper {input : TokenIdentityInput}
    (h : computeTokenId C input = .ok tokenId) :
    computeTokenId C { input with ticker := input.ticker.map toUpper } = .ok tokenId := by
  simp only [computeTokenId, bind_eq_ok] at h ⊢
  obtain ⟨tick, htick, hrest⟩ := h
  obtain ⟨hshape, rfl⟩ := canonicalTicker_eq_ok.mp htick
  exact ⟨_, canonicalTicker_upper hshape, hrest⟩

/-- What the builder has put into the PSBT. -/
structure DeployBuilt (C : Crypto) (params : DeployParams) (r : DeployResult) : Prop where
  tokenId : computeTokenId C ⟨params.identity.chainIdentity, params.identity.policyVersion,
    params.identity.ticker, params.identity.tokenNonce,
    params.creatorScript.getD params.deployerChangeScript⟩ = .ok r.tokenId
  s0 : s0StateV2 r.tokenId = .ok r.s0
  vault : buildBackingVaultV3 C r.s0 params.keys = .ok r.vault
  wire : encodeDeployV2 covePolicyV3 params.identity.ticker params.identity.tokenNonce = .ok r.wire
  inputs : List.Forall₂ InputFor params.deployerInputs r.psbt.inputs
  inputs_nodup : (r.psbt.inputs.map PsbtInput.outpoint).Nodup
  outputs : PaidOut (params.payments r) params.deployerChangeScript r.psbt.txOutputs

theorem buildDeployPsbtV3_ok {scriptForKind : ScriptForKind} {params : DeployParams}
    {r : DeployResult} (h : buildDeployPsbtV3 C scriptForKind params = .ok r) :
    DeployBuilt C params r := by
  simp only [buildDeployPsbtV3, bind_eq_ok, ensure_eq_ok, pure_eq_ok] at h
  obtain ⟨tokenId, hid, s0, hs0, vault, hvault, wire, hwire, inputs, hinputs, outs, houts, _, hchange,
    settled, hsettled, rfl⟩ := h
  obtain ⟨added, rfl, hadded, hnodup⟩ := addInputs_ok hinputs List.nodup_nil
  have hrest : ∀ o ∈ ([] : List TxOut), o.value = 0 := by simp
  have hpaid := (paidOut_of_settled houts hchange hsettled hrest).1
  rw [List.append_nil] at hpaid
  exact ⟨hid, hs0, hvault, hwire, hadded, hnodup, hpaid⟩

/-- Every deploy the builder makes is one the final validator accepts, if the creator can be paid. -/
theorem DeployBuilt.validated {params : DeployParams} {r : DeployResult} {tx : Transaction}
    (hb : DeployBuilt C params r) (hversion : params.identity.policyVersion = covePolicyV3)
    (hcreator : isCreatorScript (params.creatorScript.getD params.deployerChangeScript) = true)
    (hx : r.psbt.Extracts tx) :
    DeployValidated C ⟨tx, params.identity.chainIdentity, params.keys⟩ covePolicyV3
      (params.identity.ticker.map toUpper) params.identity.tokenNonce r.tokenId := by
  have hget : ∀ {k : Nat} {p : Payment}, (params.payments r)[k]? = some p →
      ∃ o, tx.outs[k]? = some o ∧ OutputFor p o := by
    intro k p hp
    rw [hx.outs]
    exact hb.outputs.get hp
  constructor
  case wire =>
    obtain ⟨out0, hout, hpaid⟩ := hget (k := 0) rfl
    simp only [decodeCoveOpReturnTx, bind_eq_ok, demand_eq_ok]
    refine ⟨out0, hout, ?_⟩
    rw [hpaid.script]
    exact opReturnEnvelope_script (decode_encodeDeployV2 hb.wire)
  case creator =>
    obtain ⟨out2, hout, hpaid⟩ := hget (k := 2) rfl
    have hscript : out2.script = params.creatorScript.getD params.deployerChangeScript := hpaid.script
    refine ⟨out2, hout, ⟨hpaid.value, ?_⟩, ?_⟩
    · rw [hscript]
      exact hcreator
    · rw [hscript, ← hversion]
      exact computeTokenId_upper hb.tokenId
  case anchored =>
    obtain ⟨out1, hout, hpaid⟩ := hget (k := 1) rfl
    exact ⟨r.s0, r.vault, out1, hb.s0, hb.vault, hout, hpaid.script, hpaid.value⟩

/-! The whole launch. -/

/-- What the build has agreed on when it succeeds. -/
structure LaunchBuilt (C : Crypto) (app : V3AppService) (launch : LaunchConfig) (ctx : BuildContext)
    (req : LaunchRequest) (built : BuiltLaunch) (ticker : Bytes) : Prop where
  canonical : canonicalTicker req.ticker = .ok ticker
  creator : isCreatorScript req.wallet.walletScript = true
  tokenId : computeTokenId C
    ⟨launch.chainIdentity, 3, ticker, req.nonce, req.wallet.walletScript⟩ = .ok built.tokenId
  metadata : req.metadata = .ok ()
  session : built.session.operation = .deploy ∧
    built.session.unsignedTxDigest = V3AppService.unsignedTxDigest C built.psbt
  deploy : ∃ params r, DeployBuilt C params r ∧ r.psbt = built.psbt ∧
    params.identity = ⟨launch.chainIdentity, 3, ticker, req.nonce⟩ ∧
    params.keys = app.config.vaultKeys ∧
    params.creatorScript.getD params.deployerChangeScript = req.wallet.walletScript

theorem isCreatorScript_of_spendKind {script : Bytes} {kind : SpendKind}
    (h : spendKindOf script = some kind) : isCreatorScript script = true := by
  rw [spendKindOf] at h
  rw [isCreatorScript]
  split at h
  · simp [*]
  · split at h
    · simp [*]
    · split at h
      · simp [*]
      · cases h

theorem buildLaunch_ok {app : V3AppService} {launch : LaunchConfig} {ctx : BuildContext}
    {req : LaunchRequest} {built : BuiltLaunch}
    (h : app.buildLaunch C launch ctx req = .ok built) :
    ∃ ticker, LaunchBuilt C app launch ctx req built ticker := by
  simp only [V3AppService.buildLaunch, bind_eq_ok, pure_eq_ok, Prod.exists] at h
  obtain ⟨_, -, wallet, hwallet, ticker, hticker, tokenId, hid, _, -, inputs, fee, -, result, hresult,
    _, -, _, hmetadata, rfl⟩ := h
  have hkind := (resolveWalletIdentity_ok hwallet).payments
  have hscript : wallet.payments.script = req.wallet.walletScript := by
    simp only [resolveWalletIdentity, bind_eq_ok, pure_eq_ok] at hwallet
    obtain ⟨payments, hpayments, ordinals, -, rfl⟩ := hwallet
    exact (resolveRole_ok hpayments).1
  rw [hscript] at hid
  refine ⟨ticker, hticker, ?_, hid, hmetadata, ⟨rfl, rfl⟩, _, _, buildDeployPsbtV3_ok hresult, rfl, rfl,
    rfl, hscript⟩
  rw [← hscript]
  exact isCreatorScript_of_spendKind hkind

/-- What is left in the index of a launch that is confirmed: the token under its ticker and creator,
and its first state in the vault at the deploy's output 1. -/
structure LaunchRecorded (C : Crypto) (block : V3BlockInput) (req : LaunchRequest)
    (ticker tokenId : Bytes) (tx : Transaction) (ledger : Ledger) : Prop where
  token : ∃ m, ledger.tokens.get tokenId = some m ∧ m.ticker = ticker ∧ m.policyVersion = 3 ∧
    m.tokenNonce = req.nonce ∧ m.deployTxid = tx.getId C ∧ m.deployHeight = block.height ∧
    m.creatorScript = req.wallet.walletScript
  backing : ∃ b, ledger.backing.get tokenId = some b ∧ s0StateV2 tokenId = .ok b.state ∧
    b.outpoint = ⟨tx.getId C, 1⟩ ∧ b.btcValue = reserveAnchorSats

section

variable {app : V3AppService} {launch : LaunchConfig} {ctx : BuildContext} {req : LaunchRequest}
  {built : BuiltLaunch} {tx : Transaction} {run : BlockRun} {txIndex : Nat}

theorem LaunchBuilt.validated (hb : LaunchBuilt C app launch ctx req built ticker)
    (hx : built.psbt.Extracts tx) :
    DeployValidated C (app.finalizeDeploy launch tx) 3 ticker req.nonce built.tokenId ∧
      tx.spends.Nodup ∧ ∀ o, tx.outs[2]? = some o → o.script = req.wallet.walletScript := by
  obtain ⟨params, r, hdeploy, hpsbt, hidentity, hkeys, hscript⟩ := hb.deploy
  rw [← hpsbt] at hx
  have hcreator : isCreatorScript (params.creatorScript.getD params.deployerChangeScript) = true := by
    rw [hscript]
    exact hb.creator
  have hversion : params.identity.policyVersion = covePolicyV3 := by rw [hidentity]; rfl
  have hv := hdeploy.validated hversion hcreator hx
  have hid := hdeploy.tokenId
  rw [hidentity, hscript, hb.tokenId, Except.ok.injEq] at hid
  obtain ⟨-, hticker⟩ := canonicalTicker_eq_ok.mp hb.canonical
  have hupper : ticker.map toUpper = ticker := by
    rw [← hticker, List.map_map]
    exact List.map_congr_left fun c _ => toUpper_toUpper c
  rw [hidentity, hkeys, ← hid] at hv
  dsimp only at hv
  rw [hupper] at hv
  refine ⟨hv, ?_, ?_⟩
  · rw [hx.spends]
    exact hdeploy.inputs_nodup
  · intro o ho
    obtain ⟨out2, hout, hpaid⟩ := hdeploy.outputs.get (k := 2) rfl
    rw [hx.outs, hout] at ho
    rw [← Option.some.inj ho, hpaid.script]
    exact hscript

theorem truthy_of_length {text : Bytes} (h : text.length ≠ 0) : truthy (some text) = some text := by
  apply Option.filter_eq_some_iff.mpr
  refine ⟨rfl, ?_⟩
  simpa using fun hnil => h (List.length_eq_zero_iff.mpr hnil)

/-- The id of the built launch is the one shown when the launch was prepared for the wallet. -/
theorem LaunchBuilt.prepared (hb : LaunchBuilt C app launch ctx req built ticker)
    (randomBytes : Bytes) :
    launch.prepareLaunch C (.ok ()) randomBytes
        ⟨req.ticker, some req.wallet.walletScript, some req.nonce, req.metadata⟩ =
      .ok ⟨some built.tokenId, ticker, req.nonce, 3, launch.chainIdentity, publicSupplyAtoms,
        reserveAnchorSats⟩ := by
  have hid := hb.tokenId
  have hlen : req.nonce.length = 32 := by
    simp only [computeTokenId, bind_eq_ok, ensure_eq_ok] at hid
    obtain ⟨_, -, _, hlen, -⟩ := hid
    exact hlen
  have hnonce : truthy (some req.nonce) = some req.nonce := by
    apply truthy_of_length
    omega
  have hscript : truthy (some req.wallet.walletScript) = some req.wallet.walletScript := by
    apply truthy_of_length
    intro hnil
    have hcreator := hb.creator
    rw [List.length_eq_zero_iff.mp hnil] at hcreator
    cases hcreator
  unfold LaunchConfig.prepareLaunch
  dsimp only
  rw [hnonce, hscript]
  simp only [bind_eq_ok, ensure_eq_ok, pure_eq_ok]
  exact ⟨(), trivial, ticker, hb.canonical, (), hlen, _, hid, _, rfl, (), hb.metadata, rfl⟩

/-- The service once a session is saved. -/
def V3AppService.saved (app : V3AppService) (sessionId : Nat) (session : NewTxSession) : V3AppService :=
  { app with sessions := createTxSession app.sessions sessionId session }

/-- Submitting a built launch under its own session, with the wallet's signatures. -/
theorem LaunchBuilt.submitted (hb : LaunchBuilt C app launch ctx req built ticker)
    (sessionId : Nat) (hx : built.psbt.Extracts tx) {psbt : Psbt}
    (hnew : ∀ k r, app.sessions.get k = some r →
      ¬ r.SameKey built.session ∧ r.txid ≠ some (tx.getId C))
    (hdigest : V3AppService.unsignedTxDigest C psbt = V3AppService.unsignedTxDigest C built.psbt) :
    ∃ sessions, (app.saved sessionId built.session).submitLaunch C launch sessionId
        ⟨psbt, .ok (), tx⟩ (.ok ()) = .ok (some (tx.getId C), sessions) ∧
      sessions.get sessionId =
        some { built.session with txid := some (tx.getId C), status := .broadcast } := by
  obtain ⟨hoperation, hunsigned⟩ := hb.session
  have hkey : ¬ ∃ k r, app.sessions.get k = some r ∧ r.SameKey built.session := by
    intro h
    obtain ⟨k, r, hget, hsame⟩ := h
    exact (hnew k r hget).1 hsame
  have hsaved : (app.saved sessionId built.session).sessions =
      app.sessions.set sessionId { built.session with } := by
    rw [V3AppService.saved, createTxSession, if_neg hkey]
  have hrow : (app.saved sessionId built.session).sessions.get sessionId =
      some { built.session with } := by
    rw [hsaved]
    exact Dict.get_set_self _ _ _
  have hunique : ¬ ∃ k r, (app.saved sessionId built.session).sessions.get k = some r ∧
      (k ≠ sessionId ∧ r.txid = some (tx.getId C)) := by
    intro h
    obtain ⟨k, r, hget, hne, htxid⟩ := h
    rw [hsaved, Dict.get_set, if_neg hne] at hget
    exact (hnew k r hget).2 htxid
  have hvalid : validateFinalizedDeployTransaction C
      ((app.saved sessionId built.session).finalizeDeploy launch tx) =
        .ok ⟨tx.getId C, .deploy, built.tokenId⟩ :=
    validateFinalizedDeploy_eq_ok.mpr ⟨_, _, _, _, (hb.validated hx).1, rfl⟩
  refine ⟨markBroadcast (app.saved sessionId built.session).sessions sessionId (tx.getId C), ?_, ?_⟩
  · have hbuilt : ¬ (({ built.session with } : TxSessionRow).status = .broadcast ∨
        ({ built.session with } : TxSessionRow).status = .confirmed) := by simp
    simp only [V3AppService.submitLaunch, bind_eq_ok, demand_eq_ok, ensure_eq_ok, hrow]
    refine ⟨_, rfl, (), hoperation, ?_⟩
    rw [if_neg hbuilt]
    simp only [V3AppService.finallyChecked, bind_eq_ok, ensure_eq_ok, mapError_eq_ok, pure_eq_ok]
    exact ⟨(), by rw [hdigest, hunsigned], (), trivial, _, hvalid, (), trivial, (), hunique, rfl⟩
  · rw [markBroadcast, if_neg hunique, Table.get_update, if_pos rfl, hrow]
    rfl

/-- A launch from its build to the index: the service shows the token's id before the wallet signs,
broadcasts the transaction once, and the indexer's turn records a valid deploy of that id. -/
theorem launch_recorded {sessionId : Nat} {psbt : Psbt}
    (h : app.buildLaunch C launch ctx req = .ok built) (hx : built.psbt.Extracts tx)
    (hshared : (app.finalizeDeploy launch tx).SharesRules cfg)
    (hfresh : run.ledger.tokens.has built.tokenId = false)
    (hnew : ∀ k r, app.sessions.get k = some r →
      ¬ r.SameKey built.session ∧ r.txid ≠ some (tx.getId C))
    (hdigest : V3AppService.unsignedTxDigest C psbt = V3AppService.unsignedTxDigest C built.psbt) :
    ∃ ticker run' sessions,
      (∀ randomBytes, launch.prepareLaunch C (.ok ()) randomBytes
          ⟨req.ticker, some req.wallet.walletScript, some req.nonce, req.metadata⟩ =
        .ok ⟨some built.tokenId, ticker, req.nonce, 3, launch.chainIdentity, publicSupplyAtoms,
          reserveAnchorSats⟩) ∧
      (app.saved sessionId built.session).submitLaunch C launch sessionId ⟨psbt, .ok (), tx⟩ (.ok ()) =
        .ok (some (tx.getId C), sessions) ∧
      sessions.get sessionId =
        some { built.session with txid := some (tx.getId C), status := .broadcast } ∧
      RecordsDeploy C cfg block txIndex tx built.tokenId run run' ∧
      LaunchRecorded C block req ticker built.tokenId tx run'.ledger := by
  obtain ⟨ticker, hb⟩ := buildLaunch_ok h
  obtain ⟨sessions, hsubmit, hmarked⟩ := hb.submitted sessionId hx hnew hdigest
  obtain ⟨hv, hn, hcreator⟩ := hb.validated hx
  obtain ⟨a, hid⟩ := hv.accepted hshared hfresh
  obtain ⟨run', hrec, htoken, hbacking⟩ := a.records block txIndex hn
    (decodeCoveOpReturnTx_iff.mp hv.wire)
  rw [hid] at hrec htoken hbacking
  refine ⟨ticker, run', sessions, hb.prepared, hsubmit, hmarked, hrec, ?_, ?_⟩
  · exact ⟨_, htoken, rfl, rfl, rfl, rfl, rfl, hcreator _ a.creator_get⟩
  · refine ⟨_, hbacking, ?_, rfl, rfl⟩
    rw [← hid]
    exact a.s0_eq

end

end

/-! ALPHA, launched by its creator. -/

def launchApp : V3AppService :=
  { quietApp false with config := { (quietApp false).config with recoveryProfile := none } }

def sampleLaunch : LaunchConfig := ⟨sampleConfig.chainIdentity, none, none⟩

def creatorContext : BuildContext where
  guards := .ok ()
  getTxout _ := .ok (some ⟨sampleCreator, 20000, 6⟩)
  rates := ⟨1, 1000, 2⟩
  scriptForKind _ _ := throw ⟨none, "no key is asked for"⟩
  carrierOrder := []

def alphaLaunch : LaunchRequest where
  ticker := Bytes.ascii "Alpha"
  nonce := List.replicate 32 7
  wallet := ⟨sampleCreator, none, none, none⟩
  funding := [⟨List.replicate 32 3, 0⟩]
  feeRateSatPerVb := none
  minerFeeSats := none
  metadata := .ok ()
  idempotencyKey := []

theorem launch_recorded_sample : ∃ built ticker sessions, ∃ run' : BlockRun,
    launchApp.buildLaunch sampleCrypto sampleLaunch creatorContext alphaLaunch = .ok built ∧
    (launchApp.saved 1 built.session).submitLaunch sampleCrypto sampleLaunch 1
        ⟨built.psbt, .ok (), unsignedTransaction built.psbt⟩ (.ok ()) =
      .ok (some ((unsignedTransaction built.psbt).getId sampleCrypto), sessions) ∧
    LaunchRecorded sampleCrypto deployBlock alphaLaunch ticker built.tokenId
      (unsignedTransaction built.psbt) run'.ledger := by
  have hbuilds : (launchApp.buildLaunch sampleCrypto sampleLaunch creatorContext
      alphaLaunch).toOption.isSome = true := by
    decide +kernel
  obtain ⟨built, hbuilt⟩ := Option.isSome_iff_exists.mp hbuilds
  rw [toOption_eq_some] at hbuilt
  have hnew : ∀ k r, launchApp.sessions.get k = some r → ¬ r.SameKey built.session ∧
      r.txid ≠ some ((unsignedTransaction built.psbt).getId sampleCrypto) := by
    intro k r hr
    cases hr
  obtain ⟨ticker, run', sessions, -, hsubmit, -, -, hrecorded⟩ :=
    @launch_recorded sampleCrypto sampleConfig deployBlock launchApp sampleLaunch creatorContext
      alphaLaunch built (unsignedTransaction built.psbt) ⟨⟨∅, ∅, ∅⟩, [], []⟩ 0 1 built.psbt hbuilt
      (unsignedTransaction_extracts _) ⟨rfl, rfl⟩ rfl hnew rfl
  exact ⟨built, ticker, sessions, run', hbuilt, hsubmit, hrecorded⟩

end Cove
