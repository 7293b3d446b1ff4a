import Cove.Economics.ExactQuote
import Cove.Economics.Fee
import Cove.Lib.Dict

/-! The V1 ledger and its rules: `packages/protocol/src/cove/types.ts`, `config.ts`, `validator.ts`
and `invariants.ts`, with `computePlatformFee` of `packages/curve/src/fees.ts`. -/

namespace Cove

open Checked

namespace Protocol

inductive Network
  | signet
  | regtest
  | mutinynet
  | mainnet
  deriving DecidableEq, Repr

/-- The fields a state depends on. The two ceilings on fees are the transaction builder's. -/
structure CoveConfig where
  network : Network
  genesisHeight : Int
  settlementScript : Bytes
  treasuryScript : Bytes
  launchFeeSats : Int
  primaryMintFeeBps : Int
  minContributionSats : Int
  maxFeeRateSatVb : Int
  maxMinerFeeSats : Int
  deriving DecidableEq, Repr

inductive CoveOperationKind
  | deploy
  | mint
  | transfer
  deriving DecidableEq, Repr

structure CoveProtocolOutput where
  index : Nat
  scriptPubKey : Bytes
  amountSats : Int
  role : String
  deriving DecidableEq, Repr

structure CoveTransaction where
  operation : CoveOperationKind
  txid : Bytes
  txIndex : Nat
  actor : Bytes
  recipient : Option Bytes := none
  ticker : Option Bytes := none
  amountAtoms : Option Int := none
  supplyBeforeAtoms : Option Int := none
  protocolOutputs : List CoveProtocolOutput
  deriving DecidableEq, Repr

structure CoveToken where
  deploymentId : Bytes
  ticker : Bytes
  creator : Bytes
  confirmedSupplyAtoms : Int
  publicSupplyAtoms : Int
  currentStage : Nat
  deriving DecidableEq, Repr

structure CoveBalance where
  availableAtoms : Int
  deriving DecidableEq, Repr

@[ext] structure CoveState where
  tokens : Dict Bytes CoveToken
  tickerIndex : Dict Bytes Bytes
  balances : Dict Bytes (Dict Bytes CoveBalance)
  reserveSats : Int
  platformTreasurySats : Int
  deriving DecidableEq

def createCoveState : CoveState := ⟨∅, ∅, ∅, 0, 0⟩

/-! Pricing. -/

def computePlatformFee (curveContributionSats feeBps : Int) : Except Fault Int := do
  ensure (0 ≤ feeBps) ⟨none, "feeBps must be non-negative."⟩
  ensure (0 ≤ curveContributionSats) ⟨none, "curveContributionSats must be non-negative."⟩
  if curveContributionSats = 0 ∨ feeBps = 0 then return 0
  ExactQuote.ceilDiv (curveContributionSats * feeBps) 10000

/-- The exact-tokens quote. Every turn of its loop takes a token at least, so the fuel is enough. -/
def exactTokens (desiredTokens currentSupply : Int) : Except Fault ExactQuote.QuoteResult :=
  (ExactQuote.quoteExactTokens (desiredTokens.toNat + 1) desiredTokens currentSupply).getD
    (.error ⟨none, "the loop does not end"⟩)

def atomsToDisplayTokens (atoms : Int) : Int := atoms.tdiv atomsPerToken

/-! Validation: nothing when the operation is valid, else the reason. -/

def isSupportedScript (script : Bytes) : Bool := isP2WPKH script || isP2TR script

/-- An absent or empty ticker references no token. -/
def resolveToken (state : CoveState) (ticker : Option Bytes) : Option CoveToken := do
  let tick ← ticker
  if tick = [] then none
  else
    let deploymentId ← state.tickerIndex.get tick
    if deploymentId = [] then none else state.tokens.get deploymentId

def anchorIsDustSafe (output : CoveProtocolOutput) : Bool :=
  dustThreshold output.scriptPubKey ≤ output.amountSats

def findRole (outputs : List CoveProtocolOutput) (role : String) : Option CoveProtocolOutput :=
  outputs.find? fun o => o.role = role

/-- `/^[A-Z0-9]{4}$/`. -/
def tickerText (tick : Bytes) : Bool :=
  tick.length = 4 && tick.all fun c => (0x41 ≤ c && c ≤ 0x5a) || (0x30 ≤ c && c ≤ 0x39)

/-- How validation is left early: with a reason, or by a throw of the pricing functions. -/
inductive Refusal
  | invalid (reason : String)
  | fault (f : Fault)
  deriving DecidableEq, Repr

def priced {α : Type} (x : Except Fault α) : Except Refusal α := x.mapError .fault

def validateDeploy (state : CoveState) (tx : CoveTransaction) (cfg : CoveConfig) :
    Except Refusal Unit := do
  let tick := tx.ticker.getD []
  ensure (tickerText tick = true) (.invalid "INVALID_TICKER")
  ensure (state.tickerIndex.has tick = false) (.invalid "TICKER_TAKEN")
  ensure (isSupportedScript tx.actor = true) (.invalid "UNSUPPORTED_ACTOR_SCRIPT")
  let feeOut ← demand (findRole tx.protocolOutputs "launch-fee") (.invalid "INVALID_OUTPUT_LAYOUT")
  ensure (feeOut.index = 1) (.invalid "INVALID_OUTPUT_LAYOUT")
  ensure (feeOut.scriptPubKey = cfg.treasuryScript) (.invalid "WRONG_TREASURY")
  ensure (feeOut.amountSats = cfg.launchFeeSats)
    (.invalid (if feeOut.amountSats < cfg.launchFeeSats then "UNDERPAYMENT" else "OVERPAYMENT"))

def validateMint (state : CoveState) (tx : CoveTransaction) (cfg : CoveConfig) :
    Except Refusal Unit := do
  let token ← demand (resolveToken state tx.ticker) (.invalid "UNKNOWN_DEPLOYMENT")
  let supplyBefore ← demand tx.supplyBeforeAtoms (.invalid "MISSING_SUPPLY")
  ensure (supplyBefore = token.confirmedSupplyAtoms) (.invalid "STALE_SUPPLY")
  let amount := tx.amountAtoms.getD 0
  ensure (0 < amount) (.invalid "ZERO_AMOUNT")
  ensure (amount.tmod atomsPerToken = 0) (.invalid "SUBTOKEN_MINT_UNSUPPORTED")
  ensure (isSupportedScript tx.actor = true) (.invalid "UNSUPPORTED_ACTOR_SCRIPT")
  let recipient ← demand tx.recipient (.invalid "INVALID_RECIPIENT")
  ensure (isSupportedScript recipient = true) (.invalid "INVALID_RECIPIENT")
  let amountDisplay := atomsToDisplayTokens amount
  let confirmedDisplay := atomsToDisplayTokens token.confirmedSupplyAtoms
  let remainingDisplay :=
    atomsToDisplayTokens (token.publicSupplyAtoms - token.confirmedSupplyAtoms)
  ensure (amountDisplay ≤ remainingDisplay) (.invalid "OVERMINT")
  let quote ← priced (exactTokens amountDisplay confirmedDisplay)
  let requiredCurve := quote.curveContributionSats
  ensure (cfg.minContributionSats ≤ requiredCurve) (.invalid "BELOW_MIN_CONTRIBUTION")
  let requiredPlatform ← priced (computePlatformFee requiredCurve cfg.primaryMintFeeBps)
  let requiredSettlement := requiredCurve + requiredPlatform
  let recipientOut ← demand (findRole tx.protocolOutputs "recipient")
    (.invalid "INVALID_OUTPUT_LAYOUT")
  ensure (recipientOut.index = 1) (.invalid "INVALID_OUTPUT_LAYOUT")
  ensure (recipientOut.scriptPubKey = recipient) (.invalid "WRONG_RECIPIENT")
  ensure (anchorIsDustSafe recipientOut = true) (.invalid "RECIPIENT_ANCHOR_DUST")
  let settlementOut ← demand (findRole tx.protocolOutputs "settlement")
    (.invalid "INVALID_OUTPUT_LAYOUT")
  ensure (settlementOut.index = 2) (.invalid "INVALID_OUTPUT_LAYOUT")
  ensure (settlementOut.scriptPubKey = cfg.settlementScript) (.invalid "WRONG_SETTLEMENT_SCRIPT")
  ensure (settlementOut.amountSats = requiredSettlement)
    (.invalid (if settlementOut.amountSats < requiredSettlement then "UNDERPAYMENT"
      else "OVERPAYMENT"))

/-- What one owner's map says of a token. -/
def heldOf (m : Dict Bytes CoveBalance) (deploymentId : Bytes) : Int :=
  ((m.get deploymentId).map CoveBalance.availableAtoms).getD 0

/-- What an owner holds of a token. -/
def CoveState.balanceOf (state : CoveState) (owner deploymentId : Bytes) : Int :=
  ((state.balances.get owner).map fun m => heldOf m deploymentId).getD 0

def validateTransfer (state : CoveState) (tx : CoveTransaction) : Except Refusal Unit := do
  let token ← demand (resolveToken state tx.ticker) (.invalid "UNKNOWN_DEPLOYMENT")
  let amount := tx.amountAtoms.getD 0
  ensure (0 < amount) (.invalid "ZERO_AMOUNT")
  ensure (isSupportedScript tx.actor = true) (.invalid "UNSUPPORTED_ACTOR_SCRIPT")
  let recipient ← demand tx.recipient (.invalid "INVALID_RECIPIENT")
  ensure (isSupportedScript recipient = true) (.invalid "INVALID_RECIPIENT")
  ensure (recipient ≠ tx.actor) (.invalid "SELF_TRANSFER")
  ensure (amount ≤ state.balanceOf tx.actor token.deploymentId)
    (.invalid "INSUFFICIENT_AVAILABLE_TOKENS")
  let recipientOut ← demand (findRole tx.protocolOutputs "recipient")
    (.invalid "INVALID_OUTPUT_LAYOUT")
  ensure (recipientOut.index = 1) (.invalid "INVALID_OUTPUT_LAYOUT")
  ensure (recipientOut.scriptPubKey = recipient) (.invalid "WRONG_RECIPIENT")
  ensure (anchorIsDustSafe recipientOut = true) (.invalid "RECIPIENT_ANCHOR_DUST")
  let continuationOut ← demand (findRole tx.protocolOutputs "continuation")
    (.invalid "MISSING_CONTINUATION")
  ensure (continuationOut.index = 2) (.invalid "MISSING_CONTINUATION")
  ensure (continuationOut.scriptPubKey = tx.actor) (.invalid "WRONG_CONTINUATION")
  ensure (anchorIsDustSafe continuationOut = true) (.invalid "CONTINUATION_DUST")

def validateCoveOperation (state : CoveState) (tx : CoveTransaction) (cfg : CoveConfig) :
    Except Refusal Unit :=
  match tx.operation with
  | .deploy => validateDeploy state tx cfg
  | .mint => validateMint state tx cfg
  | .transfer => validateTransfer state tx

/-! Application of a validated operation. -/

/-- Add to what an owner holds of a token. -/
def CoveState.credit (state : CoveState) (owner deploymentId : Bytes) (amount : Int) : CoveState :=
  let m := (state.balances.get owner).getD ∅
  { state with
    balances := state.balances.set owner (m.set deploymentId ⟨heldOf m deploymentId + amount⟩) }

/-- Take from what an owner holds of a token. A balance of zero is pruned, and so is an owner
without balances. -/
def CoveState.debit (state : CoveState) (owner deploymentId : Bytes) (amount : Int) :
    Except Fault CoveState := do
  let m ← demand (state.balances.get owner)
    ⟨none, "Cannot read properties of undefined (reading 'get')"⟩
  let sender ← demand (m.get deploymentId)
    ⟨none, "Cannot read properties of undefined (reading 'availableAtoms')"⟩
  let left := sender.availableAtoms - amount
  if left = 0 then
    let m := m.delete deploymentId
    if m = ∅ then return { state with balances := state.balances.delete owner }
    else return { state with balances := state.balances.set owner m }
  else return { state with balances := state.balances.set owner (m.set deploymentId ⟨left⟩) }

def undefinedToken : Fault := ⟨none, "Cannot read properties of undefined"⟩

def applyCoveOperation (state : CoveState) (tx : CoveTransaction) (cfg : CoveConfig) :
    Except Fault CoveState :=
  match tx.operation with
  | .deploy =>
    let tick := tx.ticker.getD []
    let token : CoveToken := {
      deploymentId := tx.txid
      ticker := tick
      creator := tx.actor
      confirmedSupplyAtoms := 0
      publicSupplyAtoms := publicSupplyAtoms
      currentStage := 1 }
    .ok { state with
      tokens := state.tokens.set tx.txid token
      tickerIndex := state.tickerIndex.set tick tx.txid
      platformTreasurySats := state.platformTreasurySats + cfg.launchFeeSats }
  | .mint => do
    let token ← demand (resolveToken state tx.ticker) undefinedToken
    let amount := tx.amountAtoms.getD 0
    let quote ← exactTokens (atomsToDisplayTokens amount)
      (atomsToDisplayTokens token.confirmedSupplyAtoms)
    let requiredCurve := quote.curveContributionSats
    let requiredPlatform ← computePlatformFee requiredCurve cfg.primaryMintFeeBps
    let confirmedSupplyAtoms := token.confirmedSupplyAtoms + amount
    let currentStage ← getStageForSupply (atomsToDisplayTokens confirmedSupplyAtoms)
    let minted : CoveState := { state with
      tokens := state.tokens.set token.deploymentId
        { token with confirmedSupplyAtoms, currentStage }
      reserveSats := state.reserveSats + requiredCurve
      platformTreasurySats := state.platformTreasurySats + requiredPlatform }
    return minted.credit (tx.recipient.getD []) token.deploymentId amount
  | .transfer => do
    let token ← demand (resolveToken state tx.ticker) undefinedToken
    let amount := tx.amountAtoms.getD 0
    let debited ← state.debit tx.actor token.deploymentId amount
    return debited.credit (tx.recipient.getD []) token.deploymentId amount

/-! The invariants asserted after each block. The first one broken is thrown; which one that is
depends on the order of the maps, so a check answers with all that may be. -/

/-- The atoms of a token over all balances. -/
def CoveState.heldAtoms (state : CoveState) (deploymentId : Bytes) : Int :=
  state.balances.total fun _ m => heldOf m deploymentId

def tokenFault (state : CoveState) (deploymentId : Bytes) (token : CoveToken) : Option Fault :=
  let broken (message : String) : Option Fault :=
    some ⟨none, s!"token {Bytes.utf8Text token.ticker}: " ++ message⟩
  if token.confirmedSupplyAtoms < 0 ∨ token.publicSupplyAtoms < token.confirmedSupplyAtoms then
    broken "supply out of range"
  else if state.tickerIndex.get token.ticker ≠ some deploymentId then
    broken "ticker index mismatch"
  else if (state.balances.values.filter fun m => heldOf m deploymentId < 0) ≠ 0 then
    broken "negative balance"
  else if state.heldAtoms deploymentId ≠ token.confirmedSupplyAtoms then
    broken (s!"conservation violated (Σ balances {state.heldAtoms deploymentId} != confirmed " ++
      s!"{token.confirmedSupplyAtoms})")
  else none

def invariantFaults (state : CoveState) : Multiset Fault :=
  state.tokens.entries.filterMap fun e => tokenFault state e.1 e.2

def assertCoveInvariants (state : CoveState) : Except (Multiset Fault) Unit :=
  ensure (invariantFaults state = 0) (invariantFaults state)

end Protocol

end Cove
