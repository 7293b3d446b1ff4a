import Cove.Bitcoin.Transaction
import Cove.Economics.Curve
import Cove.Wire.Codec

/-! The covenant state and its transitions: `packages/cove-covenant/src/stateV2.ts` and
`transitionV2.ts`. -/

namespace Cove

open Checked

def reserveAnchorSats : Int := 10000
def tokenCarrierSats : Int := 1000

/-- The backing state of one token. The token id is the 32 bytes its
64 hexadecimal characters spell. -/
@[ext] structure CoveStateV2 where
  stateVersion : Nat
  policyVersion : Nat
  tokenId : Bytes
  issuedPublicSupplyAtoms : Int
  backingSats : Int
  curveStage : Nat
  deriving DecidableEq, Repr

/-- The expressions `^[0-9a-f]{64}$` and not `^0{64}$`, on the bytes spelt. -/
def isTokenIdHex (tokenId : Bytes) : Bool :=
  tokenId.length = 32 && tokenId ≠ List.replicate 32 0

def serializeStateV2 (state : CoveStateV2) : Except Fault Bytes := do
  ensure (state.stateVersion = 2) ⟨none, s!"unsupported stateVersion {state.stateVersion}"⟩
  ensure (state.tokenId.length = 32) ⟨none, "tokenId must be 64 hex chars"⟩
  ensure (state.tokenId ≠ List.replicate 32 0) ⟨none, "tokenId must be nonzero"⟩
  ensure (0 ≤ state.issuedPublicSupplyAtoms ∧ state.issuedPublicSupplyAtoms ≤ publicSupplyAtoms)
    ⟨none, "issuedPublicSupplyAtoms out of range"⟩
  ensure (0 ≤ state.backingSats ∧ state.backingSats ≤ u64Max) ⟨none, "backingSats out of range"⟩
  return UInt8.ofNat state.stateVersion :: UInt8.ofNat state.policyVersion ::
    (state.tokenId ++ Bytes.ofNatBE 8 state.issuedPublicSupplyAtoms.toNat ++
      Bytes.ofNatBE 8 state.backingSats.toNat ++ [UInt8.ofNat state.curveStage])

def stateHashV2 (C : Crypto) (state : CoveStateV2) : Except Fault Bytes := do
  let bytes ← serializeStateV2 state
  return C.sha256 (Bytes.ascii "Cove/State/v2" ++ [0x00] ++ bytes)

def impliedStageV2 (supplyAtoms : Int) : Except Fault Nat :=
  getStageForSupply (supplyAtoms / atomsPerToken)

def covenantFault (code message : String) : Fault := ⟨some code, message⟩

def validateStateV2 (state : CoveStateV2) : Except Fault Unit := do
  ensure (state.stateVersion = 2) (covenantFault "BAD_STATE_VERSION" "stateVersion must be 2")
  ensure (state.policyVersion = covePolicyV3)
    (covenantFault "BAD_POLICY_VERSION" s!"policyVersion must be {covePolicyV3}")
  ensure (isTokenIdHex state.tokenId)
    (covenantFault "INVALID_TOKEN_ID" "tokenId must be nonzero 32 bytes")
  ensure (0 ≤ state.issuedPublicSupplyAtoms ∧ state.issuedPublicSupplyAtoms ≤ publicSupplyAtoms)
    (covenantFault "SUPPLY_OUT_OF_RANGE" "issued supply out of range")
  ensure (state.issuedPublicSupplyAtoms % atomsPerToken = 0)
    (covenantFault "SUPPLY_NOT_ATOMIC" "issued supply is not a whole display token")
  ensure (state.issuedPublicSupplyAtoms % lotAtoms = 0)
    (covenantFault "SUPPLY_NOT_LOTS" "issued supply is not a whole number of lots")
  let implied ← impliedStageV2 state.issuedPublicSupplyAtoms
  ensure (state.curveStage = implied)
    (covenantFault "CURVE_STAGE_MISMATCH" s!"curveStage {state.curveStage} != implied {implied}")
  let backing ← requiredBackingSats (state.issuedPublicSupplyAtoms / atomsPerToken)
  ensure (state.backingSats = backing)
    (covenantFault "BACKING_MISMATCH" s!"backingSats {state.backingSats} != R(supply) {backing}")

structure TransitionV2Result where
  nextState : CoveStateV2
  grossSats : Int
  deriving DecidableEq, Repr

/-- The state of a fresh token: nothing issued, nothing backing it. -/
def s0StateV2 (tokenId : Bytes) : Except Fault CoveStateV2 := do
  let curveStage ← impliedStageV2 0
  return {
    stateVersion := 2
    policyVersion := covePolicyV3
    tokenId
    issuedPublicSupplyAtoms := 0
    backingSats := 0
    curveStage }

def applyMintV2 (prev : CoveStateV2) (amountAtoms : Int) : Except Fault TransitionV2Result := do
  validateStateV2 prev
  ensure (0 < amountAtoms) (covenantFault "ZERO_MINT" "amount must be positive")
  ensure (amountAtoms % atomsPerToken = 0) (covenantFault "SUBTOKEN_MINT" "amount must be whole token")
  ensure (amountAtoms % lotAtoms = 0)
    (covenantFault "NOT_WHOLE_LOTS" s!"mint whole lots of {lotTokens} tokens")
  let nextSupply := prev.issuedPublicSupplyAtoms + amountAtoms
  ensure (nextSupply ≤ publicSupplyAtoms) (covenantFault "OVERMINT" "exceeds public cap")
  let nextBacking ← requiredBackingSats (nextSupply / atomsPerToken)
  let prevBacking ← requiredBackingSats (prev.issuedPublicSupplyAtoms / atomsPerToken)
  let gross := nextBacking - prevBacking
  ensure (1 ≤ gross) (covenantFault "ECONOMIC_DUST" "zero R-delta")
  let curveStage ← impliedStageV2 nextSupply
  return {
    grossSats := gross
    nextState := { prev with
      issuedPublicSupplyAtoms := nextSupply
      backingSats := nextBacking
      curveStage } }

def applyRedeemV2 (prev : CoveStateV2) (amountAtoms : Int) : Except Fault TransitionV2Result := do
  validateStateV2 prev
  ensure (0 < amountAtoms) (covenantFault "ZERO_REDEEM" "amount must be positive")
  ensure (amountAtoms % atomsPerToken = 0)
    (covenantFault "SUBTOKEN_REDEEM" "amount must be whole token")
  ensure (amountAtoms % lotAtoms = 0)
    (covenantFault "NOT_WHOLE_LOTS" s!"redeem whole lots of {lotTokens} tokens")
  ensure (amountAtoms ≤ prev.issuedPublicSupplyAtoms)
    (covenantFault "REDEEM_EXCEEDS_SUPPLY" "amount exceeds issued supply")
  let nextSupply := prev.issuedPublicSupplyAtoms - amountAtoms
  let prevBacking ← requiredBackingSats (prev.issuedPublicSupplyAtoms / atomsPerToken)
  let nextBacking ← requiredBackingSats (nextSupply / atomsPerToken)
  let gross := prevBacking - nextBacking
  ensure (1 ≤ gross) (covenantFault "ECONOMIC_DUST" "zero R-delta")
  let curveStage ← impliedStageV2 nextSupply
  return {
    grossSats := gross
    nextState := { prev with
      issuedPublicSupplyAtoms := nextSupply
      backingSats := nextBacking
      curveStage } }

end Cove
