import Cove.Guardian.Accept

/-! Validation of the final transaction before it is broadcast:
`packages/cove-guardian/src/v3/finalize.ts`. The raw bytes stand as the transaction they
parse to. -/

namespace Cove

open Checked

/-- How a final validation ends without an acceptance. -/
inductive FinalRefusal
  | rejected (reason : String)
  | fault (f : Fault)
  deriving DecidableEq, Repr

structure ResolvedPrevout where
  script : Bytes
  valueSats : Int
  deriving DecidableEq, Repr

structure FinalizeParams where
  tx : Transaction
  view : CoveCanonicalView
  network : Network
  guardianXOnly : Bytes
  recoveryKeyXOnly : Bytes
  recoveryProfile : Option VaultRecoveryProfile
  feeScript : Bytes
  maxMinerFeeSats : Option Int
  prevouts : Option (Dict OutPoint ResolvedPrevout)
  buyFeeBps : Option Int
  buyFeeFlatSats : Option Int
  creatorFeeBps : Option Int
  redeemFeeBps : Option Int
  redeemFeeFlatSats : Option Int

def FinalizeParams.vaultKeys (params : FinalizeParams) : VaultKeys where
  guardianXOnly := params.guardianXOnly
  recoveryKeyXOnly := params.recoveryKeyXOnly
  recoveryProfile := params.recoveryProfile

/-- The branded result. Its raw bytes and their digest are left out. -/
structure ValidatedCoveTransaction where
  txid : Bytes
  operation : V3Operation
  tokenId : Bytes
  deriving DecidableEq, Repr

def finalMaxMinerFee : Int := 20000

def escaped {α : Type} (x : Except Fault α) : Except FinalRefusal α := x.mapError .fault

def decodeWire (tx : Transaction) : Except FinalRefusal ParsedEnvelopeV2 :=
  (decodeCoveOpReturnTx tx).mapError fun f => .rejected f.message

/-- The loop of `checkMinerFee`: the sum of the resolved prevouts. -/
def resolvedTotal (prevouts : Dict OutPoint ResolvedPrevout) : List TxIn → Except FinalRefusal Int
  | [] => .ok 0
  | i :: ins => do
    let p ← demand (prevouts.get i.outpoint) (.rejected ("UNRESOLVED_PREVOUT: " ++ i.outpoint.text))
    let rest ← resolvedTotal prevouts ins
    return p.valueSats + rest

def Transaction.totalOut (tx : Transaction) : Int := (tx.outs.map fun o => (o.value : Int)).sum

def checkMinerFee (tx : Transaction) (prevouts : Option (Dict OutPoint ResolvedPrevout))
    (maxMinerFee : Int) : Except FinalRefusal Unit :=
  match prevouts with
  | none => .ok ()
  | some prevouts => do
    let totalIn ← resolvedTotal prevouts tx.ins
    let minerFee := totalIn - tx.totalOut
    ensure (0 ≤ minerFee) (.rejected s!"NEGATIVE_MINER_FEE: {minerFee}")
    ensure (minerFee ≤ maxMinerFee)
      (.rejected s!"MINER_FEE_EXCEEDED: {minerFee} > {maxMinerFee}")

/-- The token's state and outpoint in the view, spent by input 0; a resolved prevout of it
has to be the vault. -/
def finalBackingInput (C : Crypto) (params : FinalizeParams) (tokenId : Bytes) :
    Except FinalRefusal CoveStateV2 := do
  let currentState ← demand (params.view.getCurrentBackingState tokenId) (.rejected "UNKNOWN_TOKEN")
  let backingOutpoint ← demand (params.view.getBackingOutpoint tokenId) (.rejected "UNKNOWN_TOKEN")
  let ins0 : TxIn ← demand params.tx.ins[0]? (.rejected "BAD_TX")
  ensure (ins0.outpoint = backingOutpoint) (.rejected "BACKING_VOUT_MISMATCH")
  let prevVault ← escaped (buildBackingVaultV3 C currentState params.vaultKeys)
  match params.prevouts.bind fun prevouts => prevouts.get ins0.outpoint with
  | none => return currentState
  | some prev0 =>
    ensure (prev0.script = prevVault.scriptPubKey) (.rejected "BACKING_SCRIPT_MISMATCH")
    ensure (prev0.valueSats = reserveAnchorSats + currentState.backingSats)
      (.rejected "BACKING_VALUE_MISMATCH")
    return currentState

/-- Output 1 is the vault of the next state with its value. -/
def finalSuccessor (C : Crypto) (params : FinalizeParams) (nextState : CoveStateV2) :
    Except FinalRefusal Unit := do
  let nextVault ← escaped (buildBackingVaultV3 C nextState params.vaultKeys)
  let successor : TxOut ← demand params.tx.outs[1]? (.rejected "SUCCESSOR_SCRIPT_MISMATCH")
  ensure (successor.script = nextVault.scriptPubKey) (.rejected "SUCCESSOR_SCRIPT_MISMATCH")
  ensure ((successor.value : Int) = reserveAnchorSats + nextState.backingSats)
    (.rejected "SUCCESSOR_VALUE_MISMATCH")

def finalProtocolFee (params : FinalizeParams) (protocolFeeSats feeBps : Int) :
    Except FinalRefusal Unit := do
  let feeOut : TxOut ← demand params.tx.outs[3]? (.rejected "FEE_MISMATCH")
  ensure ((feeOut.value : Int) = protocolFeeSats ∧ feeOut.script = params.feeScript)
    (.rejected "FEE_MISMATCH")
  let settlement ← escaped (checkFeeSettlement protocolFeeSats params.feeScript feeBps)
  ensure (settlement.isStandard = true) (.rejected "PROTOCOL_FEE_DUST")

def finalSimplicity (sim : SimplicityExecutionResult) : Except FinalRefusal Unit :=
  ensure (sim.pass = true)
    (.rejected (sim.failure.elim "SIMPLICITY_REJECTED" SimplicityFailureCode.text))

variable (C : Crypto) (X : SimplicityExecutor) (params : FinalizeParams)

def validateFinalizedMintTransaction : Except FinalRefusal ValidatedCoveTransaction := do
  let maxMinerFee := params.maxMinerFeeSats.getD finalMaxMinerFee
  let outs := params.tx.outs
  let wire ← decodeWire params.tx
  let (tokenId, amount, recipientVout) ← demand wire.asMint (.rejected "WRONG_OPCODE")
  let currentState ← finalBackingInput C params tokenId
  let canonical ← (applyMintV2 currentState amount).mapError
    fun e => .rejected ("REFERENCE_POLICY_REJECTED: " ++ e.message)
  let protocolFeeSats ← escaped (mintFeeSats canonical.grossSats amount
    (params.buyFeeBps.getD coveFeeConfig.buyFeeBps)
    (params.buyFeeFlatSats.getD coveFeeConfig.buyFeeFlatSats) coveFeeConfig.buyFeeLotSats)
  finalSuccessor C params canonical.nextState
  ensure (recipientVout = 2) (.rejected "CARRIER_MISSING")
  let carrier : TxOut ← demand outs[2]? (.rejected "CARRIER_MISSING")
  ensure ((carrier.value : Int) = tokenCarrierSats) (.rejected "CARRIER_VALUE_MISMATCH")
  ensure (isStandardCarrier carrier.script) (.rejected "CARRIER_NOT_STANDARD")
  finalProtocolFee params protocolFeeSats (params.buyFeeBps.getD coveFeeConfig.buyFeeBps)
  let creatorScript ← demand (params.view.getTokenCreatorScript tokenId)
    (.rejected "CREATOR_UNKNOWN")
  let creatorOut : TxOut ← demand outs[4]? (.rejected "CREATOR_FEE_MISMATCH")
  let creatorFee ← escaped (creatorFeeSats canonical.grossSats
    (params.creatorFeeBps.getD coveFeeConfig.creatorFeeBps))
  ensure ((creatorOut.value : Int) = creatorFee ∧ creatorOut.script = creatorScript)
    (.rejected "CREATOR_FEE_MISMATCH")
  let discovery := if 5 < outs.length ∧ outs.getLast?.bind (fun o => o.script[0]?) = some 0x6a
    then 1 else 0
  ensure (outs.length ≤ 6 + discovery) (.rejected "UNEXPECTED_OUTPUT")
  checkMinerFee params.tx params.prevouts maxMinerFee
  let w ← (buildMintSimplicityWitness C
    ⟨currentState, canonical.nextState, amount, canonical.grossSats⟩).mapError
      fun _ => .rejected "WITNESS_CONSTRUCTION_FAILED"
  finalSimplicity (X.executeMintV3 w)
  return ⟨params.tx.getId C, .mint, tokenId⟩

/-- The loop over inputs: the atoms of the token's carriers among them. -/
def tokenInputTotal (view : CoveCanonicalView) (tokenId : Bytes) :
    List TxIn → Except FinalRefusal Int
  | [] => .ok 0
  | i :: ins =>
    match view.getTokenUtxo i.outpoint with
    | none => tokenInputTotal view tokenId ins
    | some tok => do
      ensure (tok.tokenId = tokenId) (.rejected "MIXED_TOKEN_INPUT")
      let rest ← tokenInputTotal view tokenId ins
      return tok.amountAtoms + rest

/-- The frozen layout: a partial redeem has its change carrier at output 4 and at most six
outputs, a full one at most five. -/
def finalRedeemLayout (outs : List TxOut) (changeAtoms : Int)
    (changeAllocations : List TokenAllocation) : Except FinalRefusal Unit :=
  if 0 < changeAtoms then do
    let changeOut : TxOut ← demand outs[4]? (.rejected "TOKEN_CHANGE_MISMATCH")
    ensure ((changeOut.value : Int) = tokenCarrierSats) (.rejected "CARRIER_VALUE_MISMATCH")
    ensure (isStandardCarrier changeOut.script) (.rejected "CARRIER_NOT_STANDARD")
    ensure (changeAllocations = [⟨4, changeAtoms⟩]) (.rejected "TOKEN_CHANGE_MISMATCH")
    ensure (outs.length ≤ 6) (.rejected "UNEXPECTED_OUTPUT")
  else do
    ensure (changeAllocations = []) (.rejected "TOKEN_INFLATION")
    ensure (outs.length ≤ 5) (.rejected "UNEXPECTED_OUTPUT")

def validateFinalizedRedeemTransaction : Except FinalRefusal ValidatedCoveTransaction := do
  let maxMinerFee := params.maxMinerFeeSats.getD finalMaxMinerFee
  let outs := params.tx.outs
  let wire ← decodeWire params.tx
  let (tokenId, redeemAmount, changeAllocations) ← demand wire.asRedeem (.rejected "WRONG_OPCODE")
  let currentState ← finalBackingInput C params tokenId
  let tokenInputTotalAtoms ← tokenInputTotal params.view tokenId (params.tx.ins.drop 1)
  ensure (tokenInputTotalAtoms ≠ 0) (.rejected "FORGED_TOKEN_INPUT")
  let changeAtoms := tokenInputTotalAtoms - redeemAmount
  ensure (0 ≤ changeAtoms) (.rejected "TOKEN_OWNERSHIP_INSUFFICIENT")
  ensure (sumAllocations changeAllocations = changeAtoms) (.rejected "TOKEN_CHANGE_MISMATCH")
  let canonical ← (applyRedeemV2 currentState redeemAmount).mapError
    fun e => .rejected ("REFERENCE_POLICY_REJECTED: " ++ e.message)
  let protocolFeeSats ← escaped (redeemFeeSats canonical.grossSats
    (params.redeemFeeBps.getD coveFeeConfig.redeemFeeBps)
    (params.redeemFeeFlatSats.getD coveFeeConfig.redeemFeeFlatSats) coveFeeConfig.redeemFeeMinSats)
  let netPayoutSats := canonical.grossSats - protocolFeeSats
  finalSuccessor C params canonical.nextState
  let payout : TxOut ← demand outs[2]? (.rejected "PAYOUT_MISMATCH")
  ensure ((payout.value : Int) = netPayoutSats) (.rejected "PAYOUT_MISMATCH")
  finalProtocolFee params protocolFeeSats (params.redeemFeeBps.getD coveFeeConfig.redeemFeeBps)
  finalRedeemLayout outs changeAtoms changeAllocations
  checkMinerFee params.tx params.prevouts maxMinerFee
  let w ← (buildRedeemSimplicityWitness C
    ⟨currentState, canonical.nextState, redeemAmount, canonical.grossSats⟩).mapError
      fun _ => .rejected "WITNESS_CONSTRUCTION_FAILED"
  finalSimplicity (X.executeRedeemV3 w)
  return ⟨params.tx.getId C, .redeem, tokenId⟩

/-- The carriers the allocations name exist and can carry tokens. -/
def finalAllocations (outs : List TxOut) : List TokenAllocation → Except FinalRefusal Unit
  | [] => .ok ()
  | a :: allocations => do
    let out : TxOut ← demand outs[a.vout]? (.rejected "ALLOCATION_VOUT_MISSING")
    ensure ((out.value : Int) = tokenCarrierSats) (.rejected "CARRIER_VALUE_MISMATCH")
    ensure (isStandardCarrier out.script) (.rejected "CARRIER_NOT_STANDARD")
    finalAllocations outs allocations

def validateFinalizedTransferTransaction (tx : Transaction) (view : CoveCanonicalView)
    (prevouts : Option (Dict OutPoint ResolvedPrevout)) (maxMinerFeeSats : Option Int) :
    Except FinalRefusal ValidatedCoveTransaction := do
  let wire ← decodeWire tx
  let (tokenId, allocations) ← demand wire.asTransfer (.rejected "WRONG_OPCODE")
  let tokenIn ← tokenInputTotal view tokenId tx.ins
  ensure (tokenIn ≠ 0) (.rejected "FORGED_TOKEN_INPUT")
  let allocSum := sumAllocations allocations
  ensure (allocSum = tokenIn) (.rejected s!"TOKEN_CONSERVATION: in={tokenIn} out={allocSum}")
  finalAllocations tx.outs allocations
  checkMinerFee tx prevouts (maxMinerFeeSats.getD finalMaxMinerFee)
  return ⟨tx.getId C, .transfer, tokenId⟩

/-! Specifications of the loops. -/

/-- The carriers a view knows among some inputs. -/
def CoveCanonicalView.knownInputs (view : CoveCanonicalView) (spends : List OutPoint) :
    List TokenUtxo :=
  spends.filterMap view.getTokenUtxo

theorem tokenInputTotal_eq_ok {view : CoveCanonicalView} {tokenId : Bytes} {ins : List TxIn}
    {total : Int} :
    tokenInputTotal view tokenId ins = .ok total ↔
      (∀ tok ∈ view.knownInputs (ins.map TxIn.outpoint), tok.tokenId = tokenId) ∧
        total = ((view.knownInputs (ins.map TxIn.outpoint)).map TokenUtxo.amountAtoms).sum := by
  induction ins generalizing total with
  | nil => simp [tokenInputTotal, CoveCanonicalView.knownInputs, eq_comm]
  | cons i ins ih =>
    rw [tokenInputTotal, CoveCanonicalView.knownInputs, List.map_cons, List.filterMap_cons]
    cases hv : view.getTokenUtxo i.outpoint with
    | none => exact ih
    | some tok =>
      simp only [bind_eq_ok, ensure_eq_ok, pure_eq_ok, ih, List.forall_mem_cons, List.map_cons,
        List.sum_cons]
      constructor
      · rintro ⟨_, htok, rest, ⟨hall, rfl⟩, rfl⟩
        exact ⟨⟨htok, hall⟩, rfl⟩
      · rintro ⟨⟨htok, hall⟩, rfl⟩
        exact ⟨(), htok, _, ⟨hall, rfl⟩, rfl⟩

theorem finalAllocations_eq_ok {outs : List TxOut} {allocations : List TokenAllocation} {u : Unit} :
    finalAllocations outs allocations = .ok u ↔ ∀ a ∈ allocations, CarriesTokens outs a.vout := by
  induction allocations with
  | nil => simp [finalAllocations]
  | cons a allocations ih =>
    simp only [finalAllocations, bind_eq_ok, demand_eq_ok, ensure_eq_ok, ih, List.forall_mem_cons]
    constructor
    · rintro ⟨out, ho, _, hv, _, hs, hall⟩
      exact ⟨⟨out, ho, hv, hs⟩, hall⟩
    · rintro ⟨⟨out, ho, hv, hs⟩, hall⟩
      exact ⟨out, ho, (), hv, (), hs, hall⟩

end Cove
