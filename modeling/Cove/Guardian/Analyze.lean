import Cove.Guardian.Psbt

/-! The Guardian's reconstruction of a transition from a PSBT, and the Simplicity witness of
it: `analyze.ts` and `witness.ts` of `packages/cove-guardian/src/v3`, and `witness.ts` of
`packages/cove-simplicity/src`. -/

namespace Cove

open Checked

/-- The reasons for which the Guardian refuses. -/
inductive ValidationFailureCode
  | creatorUnknown
  | creatorFeeMismatch
  | mainnetProfileRequired
  | badPsbt
  | wrongOpcode
  | unknownToken
  | backingScriptMismatch
  | backingValueMismatch
  | backingVoutMismatch
  | successorScriptMismatch
  | successorValueMismatch
  | carrierMissing
  | carrierValueMismatch
  | carrierNotStandard
  | feeMismatch
  | feeDestinationMismatch
  | minerFeeExceeded
  | negativeMinerFee
  | unexpectedOutput
  | discoveryMismatch
  | wrongLeaf
  | badControlBlock
  | witnessConstructionFailed
  | simplicityRejected
  | referencePolicyRejected
  | cmrMismatch
  | tokenOwnershipInsufficient
  | tokenInflation
  | payoutMismatch
  | backingDecreaseMismatch
  | mixedTokenInput
  | forgedTokenInput
  | tokenChangeMismatch
  | protocolFeeDust
  | funding (code : FundingInputCode)
  deriving DecidableEq, Repr

structure ValidateParams where
  psbt : Psbt
  view : CoveCanonicalView
  network : Network
  guardianXOnly : Bytes
  recoveryKeyXOnly : Bytes
  recoveryProfile : Option VaultRecoveryProfile
  feeScript : Bytes
  maxMinerFeeSats : Option Int
  buyFeeBps : Option Int
  buyFeeFlatSats : Option Int
  creatorFeeBps : Option Int
  redeemFeeBps : Option Int
  redeemFeeFlatSats : Option Int
  discoveryTicker : Option Bytes
  fundingChecker : FundingInputChecker

def ValidateParams.vaultKeys (params : ValidateParams) : VaultKeys where
  guardianXOnly := params.guardianXOnly
  recoveryKeyXOnly := params.recoveryKeyXOnly
  recoveryProfile := params.recoveryProfile

structure MintAnalysis where
  tokenId : Bytes
  amountAtoms : Int
  recipientVout : Nat
  currentState : CoveStateV2
  backingOutpoint : OutPoint
  nextState : CoveStateV2
  grossSats : Int
  protocolFeeSats : Int
  creatorFeeSats : Int
  creatorScript : Bytes
  minerFeeSats : Int
  backingInputIndex : Nat
  buyerInputIndices : List Nat
  deriving DecidableEq, Repr

structure RedeemAnalysis where
  tokenId : Bytes
  redeemAmountAtoms : Int
  changeAllocations : List TokenAllocation
  currentState : CoveStateV2
  backingOutpoint : OutPoint
  tokenInputOutpoints : List OutPoint
  tokenInputTotalAtoms : Int
  nextState : CoveStateV2
  grossSats : Int
  protocolFeeSats : Int
  netPayoutSats : Int
  minerFeeSats : Int
  backingInputIndex : Nat
  tokenInputIndices : List Nat
  deriving DecidableEq, Repr

/-- A `CoveAnalyzeError`, or a plain error when it has no code. -/
structure CoveAnalyzeError where
  code : Option ValidationFailureCode
  message : String
  deriving DecidableEq, Repr

def analyzeError (code : ValidationFailureCode) (message : String) : CoveAnalyzeError :=
  ⟨some code, message⟩

/-- An error thrown below the analysis and not caught in it. -/
def plain {α : Type} (x : Except Fault α) : Except CoveAnalyzeError α :=
  x.mapError fun f => ⟨none, f.message⟩

def ParsedEnvelopeV2.opHex (e : ParsedEnvelopeV2) : String :=
  String.ofList (Nat.toDigits 16 e.op.toNat)

def OutPoint.text (o : OutPoint) : String := s!"{o.txid.hexString}:{o.vout}"

/-- Input 0 spends the token's canonical backing outpoint. -/
def checkBackingInput (params : ValidateParams) (backingOutpoint : OutPoint) :
    Except CoveAnalyzeError Unit := do
  let backingInput : PsbtInput ← demand params.psbt.inputs[0]? (analyzeError .badPsbt "no inputs")
  ensure (backingInput.outpoint = backingOutpoint) (analyzeError .backingVoutMismatch
    s!"input 0 spends {backingInput.outpoint.text}, expected {backingOutpoint.text}")

def analyzeMintTransitionV3 (params : ValidateParams) : Except CoveAnalyzeError MintAnalysis := do
  let wire ← plain (decodeCoveOpReturn params.psbt)
  let (tokenId, amountAtoms, recipientVout) ← demand wire.asMint
    (analyzeError .wrongOpcode ("expected MINT, got op 0x" ++ wire.opHex))
  let currentState ← demand (params.view.getCurrentBackingState tokenId)
    (analyzeError .unknownToken "token not deployed in view")
  let backingOutpoint ← demand (params.view.getBackingOutpoint tokenId)
    (analyzeError .unknownToken "no canonical backing outpoint")
  checkBackingInput params backingOutpoint
  let canonical ← (applyMintV2 currentState amountAtoms).mapError
    fun e => analyzeError .referencePolicyRejected e.message
  let protocolFeeSats ← plain (mintFeeSats canonical.grossSats amountAtoms
    (params.buyFeeBps.getD coveFeeConfig.buyFeeBps)
    (params.buyFeeFlatSats.getD coveFeeConfig.buyFeeFlatSats) coveFeeConfig.buyFeeLotSats)
  let creatorScript ← demand (params.view.getTokenCreatorScript tokenId)
    (analyzeError .creatorUnknown "the view has no creator for this token")
  let creatorFee ← plain (creatorFeeSats canonical.grossSats
    (params.creatorFeeBps.getD coveFeeConfig.creatorFeeBps))
  return {
    tokenId, amountAtoms, recipientVout, currentState, backingOutpoint
    nextState := canonical.nextState
    grossSats := canonical.grossSats
    protocolFeeSats
    creatorFeeSats := creatorFee
    creatorScript
    minerFeeSats := params.psbt.totalIn - params.psbt.totalOut
    backingInputIndex := 0
    buyerInputIndices := (List.range params.psbt.inputs.length).drop 1 }

/-- The inputs from index `i` on that the view knows as carriers, which all have to be the
token's. -/
def resolveSellerInputs (view : CoveCanonicalView) (tokenId : Bytes) :
    Nat → List PsbtInput → Except CoveAnalyzeError (List (Nat × TokenUtxo))
  | _, [] => .ok []
  | i, input :: inputs =>
    match view.getTokenUtxo input.outpoint with
    | none => resolveSellerInputs view tokenId (i + 1) inputs
    | some tok => do
      ensure (tok.tokenId = tokenId)
        (analyzeError .mixedTokenInput s!"input {i} is a different token")
      let rest ← resolveSellerInputs view tokenId (i + 1) inputs
      return (i, tok) :: rest

def analyzeRedeemTransitionV3 (params : ValidateParams) :
    Except CoveAnalyzeError RedeemAnalysis := do
  let wire ← plain (decodeCoveOpReturn params.psbt)
  let (tokenId, redeemAmountAtoms, changeAllocations) ← demand wire.asRedeem
    (analyzeError .wrongOpcode ("expected REDEEM, got op 0x" ++ wire.opHex))
  let currentState ← demand (params.view.getCurrentBackingState tokenId)
    (analyzeError .unknownToken "token not deployed in view")
  let backingOutpoint ← demand (params.view.getBackingOutpoint tokenId)
    (analyzeError .unknownToken "no canonical backing outpoint")
  checkBackingInput params backingOutpoint
  let toks ← resolveSellerInputs params.view tokenId 1 (params.psbt.inputs.drop 1)
  ensure (toks ≠ []) (analyzeError .forgedTokenInput "no canonical token input resolves")
  let canonical ← (applyRedeemV2 currentState redeemAmountAtoms).mapError
    fun e => analyzeError .referencePolicyRejected e.message
  let protocolFeeSats ← plain (redeemFeeSats canonical.grossSats
    (params.redeemFeeBps.getD coveFeeConfig.redeemFeeBps)
    (params.redeemFeeFlatSats.getD coveFeeConfig.redeemFeeFlatSats) coveFeeConfig.redeemFeeMinSats)
  return {
    tokenId, redeemAmountAtoms, changeAllocations, currentState, backingOutpoint
    tokenInputOutpoints := toks.map fun t => t.2.outpoint
    tokenInputTotalAtoms := (toks.map fun t => t.2.amountAtoms).sum
    nextState := canonical.nextState
    grossSats := canonical.grossSats
    protocolFeeSats
    netPayoutSats := canonical.grossSats - protocolFeeSats
    minerFeeSats := params.psbt.totalIn - params.psbt.totalOut
    backingInputIndex := 0
    tokenInputIndices := toks.map Prod.fst }

/-! The Simplicity witness. -/

structure MintWitness where
  amount : Int
  prevSupply : Int
  nextSupply : Int
  prevReserve : Int
  nextReserve : Int
  contribution : Int
  deriving DecidableEq, Repr

structure RedeemWitness where
  amount : Int
  oldSupply : Int
  newSupply : Int
  oldBacking : Int
  newBacking : Int
  payout : Int
  deriving DecidableEq, Repr

def atomsToDisplayTokensExact (atoms : Int) : Except Fault Int := do
  ensure (0 ≤ atoms) ⟨none, "NEGATIVE_ATOMS"⟩
  ensure (atoms % atomsPerToken = 0)
    ⟨none, s!"SUBTOKEN_AMOUNT: {atoms} is not a whole number of display tokens"⟩
  return atoms / atomsPerToken

/-- What the witness constructors are given. -/
structure WitnessParams where
  prevState : CoveStateV2
  nextState : CoveStateV2
  amountAtoms : Int
  canonicalGrossSats : Int

def buildMintSimplicityWitness (C : Crypto) (params : WitnessParams) : Except Fault MintWitness := do
  let amount ← atomsToDisplayTokensExact params.amountAtoms
  let canonical ← applyMintV2 params.prevState params.amountAtoms
  let nextHash ← stateHashV2 C params.nextState
  let canonicalHash ← stateHashV2 C canonical.nextState
  ensure (nextHash = canonicalHash)
    ⟨none, "NEXT_STATE_MISMATCH: successor is not the canonical applyMintV2 result"⟩
  ensure (params.canonicalGrossSats = canonical.grossSats)
    ⟨none, "GROSS_MISMATCH: canonicalGrossSats != R(nextSupply) - R(prevSupply)"⟩
  let prevSupply ← atomsToDisplayTokensExact params.prevState.issuedPublicSupplyAtoms
  let nextSupply ← atomsToDisplayTokensExact canonical.nextState.issuedPublicSupplyAtoms
  return {
    amount, prevSupply, nextSupply
    prevReserve := params.prevState.backingSats
    nextReserve := canonical.nextState.backingSats
    contribution := canonical.grossSats }

def buildRedeemSimplicityWitness (C : Crypto) (params : WitnessParams) :
    Except Fault RedeemWitness := do
  let amount ← atomsToDisplayTokensExact params.amountAtoms
  let canonical ← applyRedeemV2 params.prevState params.amountAtoms
  let nextHash ← stateHashV2 C params.nextState
  let canonicalHash ← stateHashV2 C canonical.nextState
  ensure (nextHash = canonicalHash)
    ⟨none, "NEXT_STATE_MISMATCH: successor is not the canonical applyRedeemV2 result"⟩
  ensure (params.canonicalGrossSats = canonical.grossSats)
    ⟨none, "GROSS_MISMATCH: canonicalGrossSats != R(prevSupply) - R(nextSupply)"⟩
  let oldSupply ← atomsToDisplayTokensExact params.prevState.issuedPublicSupplyAtoms
  let newSupply ← atomsToDisplayTokensExact canonical.nextState.issuedPublicSupplyAtoms
  return {
    amount, oldSupply, newSupply
    oldBacking := params.prevState.backingSats
    newBacking := canonical.nextState.backingSats
    payout := canonical.grossSats }

inductive SimplicityFailureCode
  | binaryMissing
  | executionError
  | timeout
  | malformedResult
  | cmrMismatch
  | rejected
  deriving DecidableEq, Repr

def SimplicityFailureCode.text : SimplicityFailureCode → String
  | .binaryMissing => "SIMPLICITY_BINARY_MISSING"
  | .executionError => "SIMPLICITY_EXECUTION_ERROR"
  | .timeout => "SIMPLICITY_TIMEOUT"
  | .malformedResult => "SIMPLICITY_MALFORMED_RESULT"
  | .cmrMismatch => "CMR_MISMATCH"
  | .rejected => "SIMPLICITY_REJECTED"

structure SimplicityExecutionResult where
  policy : V3Operation
  expectedCmr : Bytes
  actualCmr : Option Bytes
  pass : Bool
  failure : Option SimplicityFailureCode
  deriving DecidableEq, Repr

/-- The compiled executor, a program of its own: any answer to any witness. -/
structure SimplicityExecutor where
  executeMintV3 : MintWitness → SimplicityExecutionResult
  executeRedeemV3 : RedeemWitness → SimplicityExecutionResult

end Cove
