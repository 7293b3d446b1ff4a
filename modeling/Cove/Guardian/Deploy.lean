import Cove.Guardian.Built

/-! The DEPLOY builder of `packages/cove-guardian/src/v3/builder.ts`. -/

namespace Cove

open Checked

/-- The token identity without the creator script, which has a parameter of its own. -/
structure DeployIdentity where
  chainIdentity : Bytes
  policyVersion : Nat
  ticker : Bytes
  tokenNonce : Bytes
  deriving DecidableEq, Repr

structure DeployParams where
  identity : DeployIdentity
  keys : VaultKeys
  deployerInputs : List ResolvedInput
  deployerChangeScript : Bytes
  creatorScript : Option Bytes := none
  minerFeeSats : Int
  deriving DecidableEq, Repr

structure DeployResult where
  psbt : Psbt
  tokenId : Bytes
  s0 : CoveStateV2
  vault : CoveVaultV3
  wire : Bytes
  minerFeeSats : Int
  deriving DecidableEq, Repr

def buildDeployPsbtV3 (C : Crypto) (scriptForKind : ScriptForKind) (params : DeployParams) :
    Except Fault DeployResult := do
  let creatorScript := params.creatorScript.getD params.deployerChangeScript
  let tokenId ← computeTokenId C {
    chainIdentity := params.identity.chainIdentity
    policyVersion := params.identity.policyVersion
    ticker := params.identity.ticker
    tokenNonce := params.identity.tokenNonce
    creatorScript }
  let s0 ← s0StateV2 tokenId
  let vault ← buildBackingVaultV3 C s0 params.keys
  let wire ← encodeDeployV2 covePolicyV3 params.identity.ticker params.identity.tokenNonce
  let inputs ← addInputs scriptForKind [] params.deployerInputs
  let outs ← addOutputs [] [
    ⟨opReturnScript wire, 0⟩,
    ⟨vault.scriptPubKey, reserveAnchorSats⟩,
    ⟨creatorScript, creatorRecordSats⟩]
  let totalIn := totalValue params.deployerInputs
  let change := totalIn - reserveAnchorSats - creatorRecordSats - params.minerFeeSats
  ensure (0 ≤ change) ⟨none, "insufficient deployer funds"⟩
  let settled ← addChangeOrAbsorb outs params.deployerChangeScript change params.minerFeeSats
  return {
    psbt := { inputs, txOutputs := settled.txOutputs }
    tokenId, s0, vault, wire
    minerFeeSats := settled.minerFeeSats }

def DeployParams.payments (params : DeployParams) (r : DeployResult) : List Payment := [
  ⟨opReturnScript r.wire, 0⟩,
  ⟨r.vault.scriptPubKey, reserveAnchorSats⟩,
  ⟨params.creatorScript.getD params.deployerChangeScript, creatorRecordSats⟩]

end Cove
