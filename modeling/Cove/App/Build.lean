import Cove.App.Funding
import Cove.Wallet.Intent

/-! The builds of the app: `buildBackingBuy`, `buildRedeem` and `buildTransfer` of
`packages/cove-app/src/service.ts`, each with the intent it returns beside the PSBT. The id of the
saved session is left out. -/

namespace Cove

open Checked

/-! What the three ask for and return. -/

structure BuildRequest where
  tokenId : Bytes
  amountAtoms : Int
  wallet : WalletFields
  funding : List OutPoint
  feeRateSatPerVb : Option Int
  minerFeeSats : Option Int
  idempotencyKey : Bytes
  deriving DecidableEq, Repr

/-- A buy is bound to the backing of its quote. -/
structure BackingBuyRequest extends BuildRequest where
  quoteStateHash : Bytes
  quoteBackingOutpoint : OutPoint
  deriving DecidableEq, Repr

structure TransferRequest extends BuildRequest where
  recipientScript : Bytes
  deriving DecidableEq, Repr

structure BuiltTransaction where
  psbt : Psbt
  intent : ClientIntent
  deriving DecidableEq, Repr

def maxRedeemTokenInputs : Nat := 4
def maxTransferTokenInputs : Nat := 4

/-- The sha256 of the unsigned transaction; the Guardian's digest of this name is a txid. -/
def V3AppService.unsignedTxDigest (C : Crypto) (psbt : Psbt) : Bytes :=
  C.sha256 psbt.transaction.toBuffer

/-- What the scripts gain or lose in a PSBT. -/
def walletDeltaSats (psbt : Psbt) (scripts : List Bytes) : Int :=
  ((psbt.txOutputs.filter fun o => o.script ∈ scripts).map fun o => (o.value : Int)).sum -
    ((psbt.inputs.filter fun i => i.witnessUtxo.any fun wu => wu.script ∈ scripts).map
      PsbtInput.valueSats).sum

def FundingInputCode.text : FundingInputCode → String
  | fundingUnconfirmed => "FUNDING_UNCONFIRMED"
  | fundingHoldsToken => "FUNDING_HOLDS_TOKEN"
  | fundingCheckUnavailable => "FUNDING_CHECK_UNAVAILABLE"

def ValidationFailureCode.text : ValidationFailureCode → String
  | creatorUnknown => "CREATOR_UNKNOWN"
  | creatorFeeMismatch => "CREATOR_FEE_MISMATCH"
  | mainnetProfileRequired => "MAINNET_PROFILE_REQUIRED"
  | badPsbt => "BAD_PSBT"
  | wrongOpcode => "WRONG_OPCODE"
  | unknownToken => "UNKNOWN_TOKEN"
  | backingScriptMismatch => "BACKING_SCRIPT_MISMATCH"
  | backingValueMismatch => "BACKING_VALUE_MISMATCH"
  | backingVoutMismatch => "BACKING_VOUT_MISMATCH"
  | successorScriptMismatch => "SUCCESSOR_SCRIPT_MISMATCH"
  | successorValueMismatch => "SUCCESSOR_VALUE_MISMATCH"
  | carrierMissing => "CARRIER_MISSING"
  | carrierValueMismatch => "CARRIER_VALUE_MISMATCH"
  | carrierNotStandard => "CARRIER_NOT_STANDARD"
  | feeMismatch => "FEE_MISMATCH"
  | feeDestinationMismatch => "FEE_DESTINATION_MISMATCH"
  | minerFeeExceeded => "MINER_FEE_EXCEEDED"
  | negativeMinerFee => "NEGATIVE_MINER_FEE"
  | unexpectedOutput => "UNEXPECTED_OUTPUT"
  | discoveryMismatch => "DISCOVERY_MISMATCH"
  | wrongLeaf => "WRONG_LEAF"
  | badControlBlock => "BAD_CONTROL_BLOCK"
  | witnessConstructionFailed => "WITNESS_CONSTRUCTION_FAILED"
  | simplicityRejected => "SIMPLICITY_REJECTED"
  | referencePolicyRejected => "REFERENCE_POLICY_REJECTED"
  | cmrMismatch => "CMR_MISMATCH"
  | tokenOwnershipInsufficient => "TOKEN_OWNERSHIP_INSUFFICIENT"
  | tokenInflation => "TOKEN_INFLATION"
  | payoutMismatch => "PAYOUT_MISMATCH"
  | backingDecreaseMismatch => "BACKING_DECREASE_MISMATCH"
  | mixedTokenInput => "MIXED_TOKEN_INPUT"
  | forgedTokenInput => "FORGED_TOKEN_INPUT"
  | tokenChangeMismatch => "TOKEN_CHANGE_MISMATCH"
  | protocolFeeDust => "PROTOCOL_FEE_DUST"
  | funding code => code.text

/-- A rejected validation is thrown. -/
def checked {α : Type} (x : Except Refusal α) : Except Fault α :=
  x.mapError fun r => match r with
    | .rejected reason detail => appError "GUARDIAN_REJECTED" (reason.text ++ ": " ++ detail)
    | .fault f => f

def AppBacking.input (backing : AppBacking) : ResolvedInput where
  txid := backing.outpoint.txid
  vout := backing.outpoint.vout
  script := backing.script
  valueSats := backing.valueSats

def V3AppConfig.vaultKeys (config : V3AppConfig) : VaultKeys where
  guardianXOnly := config.guardianXOnly
  recoveryKeyXOnly := config.recoveryKeyXOnly
  recoveryProfile := config.recoveryProfile

/-! The carriers of a wallet. -/

structure TokenCarrier extends UtxoRow where
  outpoint : OutPoint
  deriving DecidableEq, Repr

/-- The live carriers at a script, in the order the index lists them. -/
def getTokenUtxosByScriptDb (db : Db) (order : List OutPoint) (scriptPubKey : Bytes) :
    List TokenCarrier :=
  order.filterMap fun o =>
    ((db.tokenUtxos.get o).filter fun row =>
      row.scriptPubKey = scriptPubKey ∧ row.spentByTxid = none).map fun row => ⟨row, o⟩

/-- The largest carrier first, ties by txid. -/
def TokenCarrier.before (a b : TokenCarrier) : Prop :=
  b.amountAtoms < a.amountAtoms ∨
    a.amountAtoms = b.amountAtoms ∧ Bytes.le a.outpoint.txid b.outpoint.txid

instance (a b : TokenCarrier) : Decidable (a.before b) := inferInstanceAs (Decidable (_ ∨ _))

def carrierAtoms (carriers : List TokenCarrier) : Int :=
  (carriers.map fun u => u.amountAtoms).sum

/-- The loop of the selection: no more than the amount needs, and no more than there is room. -/
def takeCarriers (amountAtoms : Int) : Nat → Int → List TokenCarrier → List TokenCarrier
  | _, _, [] => []
  | 0, _, _ :: _ => []
  | room + 1, running, u :: rest =>
    if amountAtoms ≤ running then []
    else u :: takeCarriers amountAtoms room (running + u.amountAtoms) rest

/-- The selection of a redeem and of a transfer, with each one's advice. -/
def V3AppService.selectCarriers (app : V3AppService) (ctx : BuildContext)
    (wallet : ResolvedWalletIdentity) (tokenId : Bytes) (amountAtoms : Int) (maxInputs : Nat)
    (advice : String) : Except Fault (List TokenCarrier) := do
  let mine := (getTokenUtxosByScriptDb app.db ctx.carrierOrder wallet.ordinals.script).filter
    fun u => u.tokenId = tokenId
  ensure (amountAtoms ≤ carrierAtoms mine)
    (appError "TOKEN_AMOUNT_INVALID" "insufficient token balance")
  let selected := takeCarriers amountAtoms maxInputs 0 (mine.insertionSort TokenCarrier.before)
  ensure (amountAtoms ≤ carrierAtoms selected) (appError "TOKEN_AMOUNT_INVALID"
    (s!"balance is spread across too many outputs: the {maxInputs} largest hold " ++
      s!"{carrierAtoms selected} atoms, short of {amountAtoms}. Consolidate with a transfer to " ++
      "yourself, or " ++ advice))
  return selected

def TokenCarrier.input (wallet : ResolvedWalletIdentity) (u : TokenCarrier) : ResolvedInput where
  txid := u.outpoint.txid
  vout := u.outpoint.vout
  script := u.scriptPubKey
  valueSats := tokenCarrierSats
  publicKey := wallet.ordinals.publicKey

namespace V3AppService

variable (C : Crypto) (X : SimplicityExecutor) (app : V3AppService) (ctx : BuildContext)

/-- `createTxSession`, up to the table it leaves: the first session under the key is returned, and
a payload that differs from it refused. -/
def createSession (input : NewTxSession) : Except Fault Unit :=
  match (app.order.filterMap fun id => app.sessions.get id).find? fun r => r.SameKey input with
  | none => .ok ()
  | some e => ensure (e.tokenId = input.tokenId ∧ e.unsignedTxDigest = input.unsignedTxDigest)
      (appError "IDEMPOTENCY_CONFLICT" "idempotency key reused with a conflicting payload")

def creatorScriptOf (tokenId : Bytes) : Except Fault Bytes :=
  demand (truthy ((app.db.tokens.get tokenId).map TokenRow.creatorScript))
    (appError "TOKEN_NOT_FOUND" "token has no recorded creator")

def assertRedeemPayoutIsPayable (grossSats feeSats : Int) (payoutScript : Bytes) :
    Except Fault Unit := do
  let check ← checkRedeemPayout grossSats feeSats payoutScript
  ensure (check.isPayable = true) (appError "ECONOMIC_DUST"
    (s!"this sale is worth {check.grossSats} sats and the exit fee is {check.feeSats} sats, " ++
      s!"so it would pay out {check.netSats} sats. A sale has to be worth at least " ++
      s!"{check.minimumGrossSats} sats to be worth making. Sell a larger amount."))

/-! The three builds. -/

def mintParams (req : BackingBuyRequest) (wallet : ResolvedWalletIdentity) (backing : AppBacking)
    (creatorScript : Bytes) (buyerInputs : List ResolvedInput) (minerFeeSats : Int) : MintParams where
  tokenId := req.tokenId
  prevState := backing.state
  prevBacking := backing.input
  mintAmountAtoms := req.amountAtoms
  keys := app.config.vaultKeys
  buyerInputs
  buyerCarrierScript := wallet.ordinals.script
  buyerChangeScript := wallet.payments.script
  feeScript := app.config.feeScript
  creatorScript
  minerFeeSats
  buyFeeBps := some app.config.buyFeeBps
  buyFeeFlatSats := some app.config.buyFeeFlatSats
  discoveryEnvelope := truthy (app.discoveryTicker req.tokenId)

def buyIntent (req : BackingBuyRequest) (wallet : ResolvedWalletIdentity) (creatorScript : Bytes)
    (result : MintResult) : ClientIntent where
  operation := .backingBuy
  tokenId := some req.tokenId
  tokenAmountAtoms := some req.amountAtoms
  grossSats := some result.grossSats
  protocolFeeSats := some result.buyFeeSats
  creatorFeeSats := some result.creatorFeeSats
  creatorScript := some creatorScript
  minerFeeSats := result.minerFeeSats
  netSats := none
  walletScript := wallet.payments.script
  ordinalsScript := some wallet.ordinals.script
  unsignedTxDigest := unsignedTxDigest C result.psbt
  walletDeltaSats := some (walletDeltaSats result.psbt wallet.scripts)

def buildBackingBuy (req : BackingBuyRequest) : Except Fault BuiltTransaction := do
  ctx.guards
  let wallet ← resolveWalletIdentity (walletIdentityFrom req.wallet)
  let backing ← app.loadBacking C req.tokenId
  ensure (backing.stateHash = req.quoteStateHash ∧ backing.outpoint = req.quoteBackingOutpoint)
    (appError "QUOTE_STALE" "backing state changed since quote")
  let quoted ← applyMintV2 backing.state req.amountAtoms
  let quotedBuyFeeSats ← mintFeeSats quoted.grossSats req.amountAtoms app.config.buyFeeBps
    app.config.buyFeeFlatSats coveFeeConfig.buyFeeLotSats
  let creatorScript ← app.creatorScriptOf req.tokenId
  let quotedCreatorFeeSats ← creatorFeeSats quoted.grossSats coveFeeConfig.creatorFeeBps
  let (buyerInputs, minerFeeSats) ← app.resolveFundingAndFee ctx {
    op := .backingBuy
    wallet
    candidates := req.funding
    targetSats := quoted.grossSats + quotedBuyFeeSats + quotedCreatorFeeSats + tokenCarrierSats
    discovery := (app.discoveryTicker req.tokenId).isSome
    feeRateSatPerVb := req.feeRateSatPerVb
    explicitMinerFeeSats := req.minerFeeSats }
  let result ← buildMintPsbtV3 C ctx.scriptForKind
    (app.mintParams req wallet backing creatorScript buyerInputs minerFeeSats)
  let _ ← checked (validateMintTransitionV3 C X (app.mintRequest req.tokenId backing result.psbt))
  app.createSession {
    operation := .backingBuy
    tokenId := some req.tokenId
    walletScript := req.wallet.walletScript
    backing := some backing.outpoint
    unsignedTxDigest := unsignedTxDigest C result.psbt
    idempotencyKey := req.idempotencyKey }
  return {
    psbt := result.psbt
    intent := buyIntent C req wallet creatorScript result }

def redeemParams (req : BuildRequest) (wallet : ResolvedWalletIdentity) (backing : AppBacking)
    (selected : List TokenCarrier) (funderInputs : List ResolvedInput) (minerFeeSats : Int) :
    RedeemParams where
  tokenId := req.tokenId
  prevState := backing.state
  prevBacking := backing.input
  redeemAmountAtoms := req.amountAtoms
  tokenInputs := selected.map (TokenCarrier.input wallet)
  tokenInputTotalAtoms := carrierAtoms selected
  keys := app.config.vaultKeys
  sellerPayoutScript := wallet.payments.script
  sellerChangeScript := wallet.ordinals.script
  feeScript := app.config.feeScript
  minerFeeSats
  funderInputs
  funderChangeScript := some wallet.payments.script
  redeemFeeBps := some app.config.redeemFeeBps
  redeemFeeFlatSats := some app.config.redeemFeeFlatSats

def redeemIntent (req : BuildRequest) (wallet : ResolvedWalletIdentity) (result : RedeemResult) :
    ClientIntent where
  operation := .redeem
  tokenId := some req.tokenId
  tokenAmountAtoms := some req.amountAtoms
  grossSats := some result.grossSats
  protocolFeeSats := some result.redeemFeeSats
  minerFeeSats := result.minerFeeSats
  netSats := some result.netSats
  walletScript := wallet.payments.script
  ordinalsScript := some wallet.ordinals.script
  unsignedTxDigest := unsignedTxDigest C result.psbt
  walletDeltaSats := some (walletDeltaSats result.psbt wallet.scripts)

def buildRedeem (req : BuildRequest) : Except Fault BuiltTransaction := do
  ctx.guards
  let wallet ← resolveWalletIdentity (walletIdentityFrom req.wallet)
  let backing ← app.loadBacking C req.tokenId
  let selected ← app.selectCarriers ctx wallet req.tokenId req.amountAtoms maxRedeemTokenInputs
    "redeem a smaller amount."
  let gross ← grossRedeem (backing.state.issuedPublicSupplyAtoms.tdiv atomsPerToken)
    (req.amountAtoms.tdiv atomsPerToken)
  let fee ← redeemFeeSats gross app.config.redeemFeeBps app.config.redeemFeeFlatSats
    coveFeeConfig.redeemFeeMinSats
  assertRedeemPayoutIsPayable gross fee wallet.payments.script
  let changeCarrierSats := if req.amountAtoms < carrierAtoms selected then tokenCarrierSats else 0
  let carrierSatsIn := (selected.length : Int) * tokenCarrierSats
  let (funderInputs, minerFeeSats) ← app.resolveFundingAndFee ctx {
    op := .redeem
    wallet
    candidates := req.funding
    targetSats := changeCarrierSats - carrierSatsIn
    tokenInputs := selected.length
    feeRateSatPerVb := req.feeRateSatPerVb
    explicitMinerFeeSats := req.minerFeeSats }
  let result ← buildRedeemPsbtV3 C ctx.scriptForKind
    (app.redeemParams req wallet backing selected funderInputs minerFeeSats)
  let _ ← checked (validateRedeemTransitionV3 C X
    (app.redeemRequest req.tokenId (selected.map TokenCarrier.outpoint) backing result.psbt))
  app.createSession {
    operation := .redeem
    tokenId := some req.tokenId
    walletScript := req.wallet.walletScript
    backing := some backing.outpoint
    unsignedTxDigest := unsignedTxDigest C result.psbt
    idempotencyKey := req.idempotencyKey }
  return {
    psbt := result.psbt
    intent := redeemIntent C req wallet result }

/-- The recipient's tokens, and the sender's change behind them. -/
def transferOutputs (req : TransferRequest) (wallet : ResolvedWalletIdentity)
    (selected : List TokenCarrier) : List TokenOutput :=
  let changeAtoms := carrierAtoms selected - req.amountAtoms
  ⟨req.recipientScript, req.amountAtoms⟩ ::
    if 0 < changeAtoms then [⟨wallet.ordinals.script, changeAtoms⟩] else []

def transferFunding (req : TransferRequest) (wallet : ResolvedWalletIdentity)
    (selected : List TokenCarrier) : FundingRequest where
  op := .transfer
  wallet
  candidates := req.funding
  targetSats := ((transferOutputs req wallet selected).length : Int) * tokenCarrierSats -
    (selected.length : Int) * tokenCarrierSats
  tokenInputs := selected.length
  recipientCarriers := (transferOutputs req wallet selected).length
  feeRateSatPerVb := req.feeRateSatPerVb
  explicitMinerFeeSats := req.minerFeeSats

def transferParams (req : TransferRequest) (wallet : ResolvedWalletIdentity)
    (selected : List TokenCarrier) (funderInputs : List ResolvedInput) (minerFeeSats : Int) :
    TransferParams where
  tokenId := req.tokenId
  tokenInputs := selected.map (TokenCarrier.input wallet)
  tokenInputTotalAtoms := carrierAtoms selected
  tokenOutputs := transferOutputs req wallet selected
  funderInputs
  funderChangeScript := wallet.payments.script
  btcOutputs := []
  minerFeeSats

def transferIntent (req : TransferRequest) (wallet : ResolvedWalletIdentity) (result : TransferResult) :
    ClientIntent where
  operation := .transfer
  tokenId := some req.tokenId
  tokenAmountAtoms := some req.amountAtoms
  grossSats := none
  protocolFeeSats := none
  minerFeeSats := result.minerFeeSats
  netSats := none
  walletScript := wallet.payments.script
  ordinalsScript := some wallet.ordinals.script
  unsignedTxDigest := unsignedTxDigest C result.psbt
  walletDeltaSats := some (walletDeltaSats result.psbt wallet.scripts)

def buildTransfer (req : TransferRequest) : Except Fault BuiltTransaction := do
  ctx.guards
  let wallet ← resolveWalletIdentity (walletIdentityFrom req.wallet)
  let selected ← app.selectCarriers ctx wallet req.tokenId req.amountAtoms maxTransferTokenInputs
    "send a smaller amount."
  let (funderInputs, minerFeeSats) ← app.resolveFundingAndFee ctx
    (transferFunding req wallet selected)
  let result ← buildTransferPsbtV2 ctx.scriptForKind
    (transferParams req wallet selected funderInputs minerFeeSats)
  app.createSession {
    operation := .transfer
    tokenId := some req.tokenId
    walletScript := req.wallet.walletScript
    backing := none
    unsignedTxDigest := unsignedTxDigest C result.psbt
    idempotencyKey := req.idempotencyKey }
  return {
    psbt := result.psbt
    intent := transferIntent C req wallet result }

end V3AppService

end Cove
