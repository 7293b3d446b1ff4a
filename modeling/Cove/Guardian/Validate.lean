import Cove.Guardian.Analyze

/-! The Guardian's decision to sign: `packages/cove-guardian/src/v3/validate.ts`. -/

namespace Cove

open Checked

/-- How a validation ends without an acceptance: a typed rejection, or a throw nothing
catches. -/
inductive Refusal
  | rejected (reason : ValidationFailureCode) (detail : String)
  | fault (f : Fault)
  deriving DecidableEq, Repr

def thrown {α : Type} (x : Except Fault α) : Except Refusal α := x.mapError .fault

/-- The `catch` around both analyses. -/
def analyzed {α : Type} (x : Except CoveAnalyzeError α) : Except Refusal α :=
  x.mapError fun e => .rejected (e.code.getD .referencePolicyRejected) e.message

structure Validated (α : Type) where
  analysis : α
  simplicity : SimplicityExecutionResult
  deriving DecidableEq, Repr

/-- The loop of `checkFundingInputs`: each input has to hold no token the view knows and to
pass the checker. -/
def checkFundingInputs (params : ValidateParams) : List Nat → Except Refusal Unit
  | [] => .ok ()
  | i :: indices => do
    let txIn : PsbtInput ← demand params.psbt.inputs[i]?
      (.fault ⟨none, "Cannot read properties of undefined (reading 'hash')"⟩)
    ensure (params.view.getTokenUtxo txIn.outpoint = none)
      (.rejected (.funding .fundingHoldsToken)
        s!"funding input {txIn.outpoint.text} holds Cove tokens")
    let verdict ← thrown (params.fundingChecker.check txIn.outpoint)
    match verdict with
    | .ok => checkFundingInputs params indices
    | .refused code detail => throw (.rejected (.funding code) detail)

/-- Mainnet takes only the MAINNET1 recovery profile. -/
def requireMainnetProfile (params : ValidateParams) : Except Refusal Unit :=
  ensure (params.network ≠ .mainnet ∨
      params.recoveryProfile.map VaultRecoveryProfile.profileVersion = some .mainnet1)
    (.rejected .mainnetProfileRequired "mainnet requires the MAINNET1 recovery profile")

/-- Input 0 carries the canonical taproot fields of one execution leaf of the vault, and the
vault's value. -/
def checkVaultInput (psbt : Psbt) (vault : CoveVaultV3) (opName : String) (leafScript : Bytes)
    (controlBlock : Bytes) (currentState : CoveStateV2) : Except Refusal Unit := do
  let input0 : PsbtInput ← demand psbt.inputs[0]?
    (.fault ⟨none, "Cannot read properties of undefined (reading 'tapInternalKey')"⟩)
  ensure (input0.tapInternalKey = some vault.numsKey)
    (.rejected .backingScriptMismatch "input 0 tapInternalKey != canonical NUMS key")
  ensure (input0.tapMerkleRoot = some vault.merkleRoot)
    (.rejected .backingScriptMismatch "input 0 tapMerkleRoot != canonical MAST root")
  let leaf : TapLeafScript ← demand input0.tapLeafScript[0]?
    (.rejected .wrongLeaf "no tap leaf script on input 0")
  ensure (leaf.script = leafScript)
    (.rejected .wrongLeaf ("input 0 leaf is not the canonical " ++ opName ++ " execution leaf"))
  ensure (leaf.controlBlock = controlBlock)
    (.rejected .badControlBlock "input 0 control block is wrong")
  let witnessUtxo ← demand input0.witnessUtxo
    (.fault ⟨none, "Cannot read properties of undefined (reading 'value')"⟩)
  let expectedPrevValue := reserveAnchorSats + currentState.backingSats
  ensure ((witnessUtxo.value : Int) = expectedPrevValue) (.rejected .backingValueMismatch
    s!"input 0 value {witnessUtxo.value} != anchor + R(old) {expectedPrevValue}")

/-- Output 1 is the vault of the next state with its value. -/
def checkSuccessor (outputs : List TxOut) (nextVault : CoveVaultV3) (nextState : CoveStateV2) :
    Except Refusal Unit := do
  let mismatch : Refusal :=
    .rejected .successorScriptMismatch "output 1 is not the canonical successor vault"
  let successor : TxOut ← demand outputs[1]? mismatch
  ensure (successor.script = nextVault.scriptPubKey) mismatch
  let expectedSuccessorValue := reserveAnchorSats + nextState.backingSats
  ensure ((successor.value : Int) = expectedSuccessorValue) (.rejected .successorValueMismatch
    s!"output 1 value {successor.value} != anchor + R(next) {expectedSuccessorValue}")

/-- Output 3 pays the protocol fee to the fee script, and the fee is no dust there. -/
def checkProtocolFee (params : ValidateParams) (outputs : List TxOut) (protocolFeeSats feeBps : Int) :
    Except Refusal Unit := do
  let feeOut : TxOut ← demand outputs[3]? (.rejected .feeMismatch "no fee output at vout 3")
  ensure ((feeOut.value : Int) = protocolFeeSats)
    (.rejected .feeMismatch s!"fee {feeOut.value} != {protocolFeeSats}")
  ensure (feeOut.script = params.feeScript) (.rejected .feeDestinationMismatch
    "fee output script is not the configured fee destination")
  let settlement ← thrown (checkFeeSettlement protocolFeeSats params.feeScript feeBps)
  let minimumGross := settlement.minimumGrossForStandardFeeOutput.elim "null" toString
  ensure (settlement.isStandard = true) (.rejected .protocolFeeDust
    (s!"fee {protocolFeeSats} < dust {settlement.dustThresholdSats}; " ++
      "minimum gross " ++ minimumGross))

/-- A present discovery output has to agree with the envelope, and no output beyond the
allowed ones follows. -/
def checkOutputCount (params : ValidateParams) (outputs : List TxOut) (maxOutputs : Nat) :
    Except Refusal Unit := do
  let binary ← thrown (decodeCoveOpReturn params.psbt)
  let discovery := checkDiscoveryOutput outputs binary params.discoveryTicker
  ensure (discovery.present = false ∨ discovery.agrees = true)
    (.rejected .discoveryMismatch (discovery.reason.getD "discovery envelope mismatch"))
  ensure (outputs.length ≤ maxOutputs + discovery.allowance)
    (.rejected .unexpectedOutput s!"too many outputs ({outputs.length})")

def checkMinerFeeBounds (minerFeeSats maxMinerFee : Int) : Except Refusal Unit := do
  ensure (0 ≤ minerFeeSats)
    (.rejected .negativeMinerFee s!"miner fee {minerFeeSats} is negative")
  ensure (minerFeeSats ≤ maxMinerFee)
    (.rejected .minerFeeExceeded s!"miner fee {minerFeeSats} > {maxMinerFee}")

def cmrText (cmr : Option Bytes) : String := cmr.elim "null" Bytes.hexString

/-- What is made of the executor's answer. -/
def checkSimplicity (sim : SimplicityExecutionResult) : Except Refusal Unit := do
  ensure (sim.failure ≠ some .cmrMismatch) (.rejected .cmrMismatch
    ("compiled CMR " ++ cmrText sim.actualCmr ++ " != " ++ sim.expectedCmr.hexString))
  ensure (sim.pass = true) (.rejected .simplicityRejected
    ("Simplicity result: FAIL (" ++ sim.failure.elim "null" SimplicityFailureCode.text ++ ")"))

def witnessResult {α : Type} (x : Except Fault α) : Except Refusal α :=
  x.mapError fun f => .rejected .witnessConstructionFailed f.message

variable (C : Crypto) (X : SimplicityExecutor) (params : ValidateParams)

def validateMintTransitionV3 : Except Refusal (Validated MintAnalysis) := do
  let maxMinerFee := params.maxMinerFeeSats.getD 20000
  requireMainnetProfile params
  let analysis ← analyzed (analyzeMintTransitionV3 params)
  let prevVault ← thrown (buildBackingVaultV3 C analysis.currentState params.vaultKeys)
  let nextVault ← thrown (buildBackingVaultV3 C analysis.nextState params.vaultKeys)
  checkVaultInput params.psbt prevVault "MINT" prevVault.mintLeaf.script prevVault.mintControlBlock
    analysis.currentState
  let outputs := params.psbt.txOutputs
  ensure (analysis.recipientVout = 2)
    (.rejected .carrierMissing "canonical MINT carrier must be at vout 2")
  checkSuccessor outputs nextVault analysis.nextState
  let carrier : TxOut ← demand outputs[2]? (.rejected .carrierMissing "no carrier output at vout 2")
  ensure ((carrier.value : Int) = tokenCarrierSats) (.rejected .carrierValueMismatch
    s!"carrier value {carrier.value} != {tokenCarrierSats}")
  ensure (isStandardCarrier carrier.script)
    (.rejected .carrierNotStandard "carrier is not P2TR/P2WPKH")
  checkProtocolFee params outputs analysis.protocolFeeSats
    (params.buyFeeBps.getD coveFeeConfig.buyFeeBps)
  let creatorMismatch : Refusal := .rejected .creatorFeeMismatch
    s!"vout 4 must pay the creator {analysis.creatorFeeSats} sats"
  let creatorOut : TxOut ← demand outputs[4]? creatorMismatch
  ensure ((creatorOut.value : Int) = analysis.creatorFeeSats ∧
    creatorOut.script = analysis.creatorScript) creatorMismatch
  checkOutputCount params outputs 6
  checkMinerFeeBounds analysis.minerFeeSats maxMinerFee
  checkFundingInputs params analysis.buyerInputIndices
  let w ← witnessResult (buildMintSimplicityWitness C
    ⟨analysis.currentState, analysis.nextState, analysis.amountAtoms, analysis.grossSats⟩)
  let sim := X.executeMintV3 w
  checkSimplicity sim
  return ⟨analysis, sim⟩

/-- The change carrier of a partial redeem stands at output 4, as the wire says. -/
def checkChangeCarrier (outputs : List TxOut) (changeAtoms : Int)
    (changeAllocations : List TokenAllocation) : Except Refusal Unit :=
  if 0 < changeAtoms then do
    let changeOut : TxOut ← demand outputs[4]?
      (.rejected .tokenChangeMismatch "missing change carrier at vout 4")
    ensure ((changeOut.value : Int) = tokenCarrierSats)
      (.rejected .carrierValueMismatch s!"change carrier value {changeOut.value}")
    ensure (isStandardCarrier changeOut.script)
      (.rejected .carrierNotStandard "change carrier is not P2TR/P2WPKH")
    ensure (changeAllocations = [⟨4, changeAtoms⟩])
      (.rejected .tokenChangeMismatch "wire change allocation does not match vout 4")
  else
    ensure (changeAllocations = [])
      (.rejected .tokenInflation "change allocations present on a full redeem")

def validateRedeemTransitionV3 : Except Refusal (Validated RedeemAnalysis) := do
  let maxMinerFee := params.maxMinerFeeSats.getD 20000
  requireMainnetProfile params
  let analysis ← analyzed (analyzeRedeemTransitionV3 params)
  let prevVault ← thrown (buildBackingVaultV3 C analysis.currentState params.vaultKeys)
  let nextVault ← thrown (buildBackingVaultV3 C analysis.nextState params.vaultKeys)
  checkVaultInput params.psbt prevVault "REDEEM" prevVault.redeemLeaf.script
    prevVault.redeemControlBlock analysis.currentState
  ensure (analysis.redeemAmountAtoms ≤ analysis.tokenInputTotalAtoms)
    (.rejected .tokenOwnershipInsufficient
      s!"redeem {analysis.redeemAmountAtoms} > token inputs {analysis.tokenInputTotalAtoms}")
  let changeAtoms := analysis.tokenInputTotalAtoms - analysis.redeemAmountAtoms
  let wireChangeSum := sumAllocations analysis.changeAllocations
  ensure (wireChangeSum = changeAtoms) (.rejected .tokenChangeMismatch
    s!"wire change sum {wireChangeSum} != token change {changeAtoms}")
  let outputs := params.psbt.txOutputs
  checkSuccessor outputs nextVault analysis.nextState
  let payout : TxOut ← demand outputs[2]? (.rejected .payoutMismatch "no payout output at vout 2")
  ensure ((payout.value : Int) = analysis.netPayoutSats) (.rejected .payoutMismatch
    s!"payout {payout.value} != net {analysis.netPayoutSats}")
  checkProtocolFee params outputs analysis.protocolFeeSats
    (params.redeemFeeBps.getD coveFeeConfig.redeemFeeBps)
  checkChangeCarrier outputs changeAtoms analysis.changeAllocations
  checkOutputCount params outputs (if 0 < changeAtoms then 6 else 5)
  -- Input 0 was found to hold exactly the anchor and the backing of the current state.
  let backingIn := reserveAnchorSats + analysis.currentState.backingSats
  let backingOut := reserveAnchorSats + analysis.nextState.backingSats + analysis.netPayoutSats +
    analysis.protocolFeeSats
  ensure (backingIn = backingOut) (.rejected .backingDecreaseMismatch
    s!"backing input {backingIn} != successor+payout+fee {backingOut}")
  checkMinerFeeBounds analysis.minerFeeSats maxMinerFee
  checkFundingInputs params
    ((List.range params.psbt.inputs.length).filter
      fun i => i ≠ 0 ∧ i ∉ analysis.tokenInputIndices)
  let w ← witnessResult (buildRedeemSimplicityWitness C
    ⟨analysis.currentState, analysis.nextState, analysis.redeemAmountAtoms, analysis.grossSats⟩)
  let sim := X.executeRedeemV3 w
  checkSimplicity sim
  return ⟨analysis, sim⟩

end Cove
