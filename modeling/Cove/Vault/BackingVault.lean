import Cove.Covenant.State
import Cove.Vault.Taproot

/-! The V3 backing vault of a state: `packages/cove-vault/src/leaves.ts`,
`vaultProfile.ts`, `policyIdentity.ts`, `vault.ts` and `backingVault.ts`. The vault's
address, the one field the network enters, is left out: nothing here reads it. -/

namespace Cove

open Checked

inductive VaultProfileVersion
  | dev1
  | mainnet1
  deriving DecidableEq, Repr

structure VaultRecoveryProfile where
  profileVersion : VaultProfileVersion
  recoveryCsvBlocks : Int
  recoveryThreshold : Int
  recoveryPubkeys : List Bytes
  deriving DecidableEq, Repr

def coveNumsXOnly : Bytes :=
  Bytes.ofNatBE 32 0x50929b74c1a04954b78b4b6035e97a5e078a5a0f28ec96d547bfee9ace803ac0

def mintCmrV3 : Bytes :=
  Bytes.ofNatBE 32 0x7fb27adf2db5458882daf976ba9325815f111b2f3b16eedb72e75f96de4269b2

def redeemCmrV3 : Bytes :=
  Bytes.ofNatBE 32 0x37e681b3e70a34acc3b38680c06fbe4f1b2799bede2607c6c9ed7fcac8c95d56

/-- `<policyIdentityHash> OP_EQUALVERIFY <guardianXOnly> OP_CHECKSIG`. -/
def buildExecutionLeaf (C : Crypto) (policyIdentityHash guardianXOnly : Bytes) :
    Except Fault Bytes := do
  ensure (policyIdentityHash.length = 32)
    ⟨none, s!"policyIdentityHash must be 32 bytes, got {policyIdentityHash.length}"⟩
  ensure (guardianXOnly.length = 32)
    ⟨none, s!"guardianXOnly must be 32 bytes, got {guardianXOnly.length}"⟩
  ensure (C.isXOnlyPoint guardianXOnly) ⟨none, "guardianXOnly is not on the secp256k1 curve"⟩
  return scriptCompile [.data policyIdentityHash, .op 0x88, .data guardianXOnly, .op 0xac]

/-- The checks of `sortRecoveryPubkeys`, key by key with the keys seen so far. -/
def checkRecoveryPubkeys (C : Crypto) : List Bytes → List Bytes → Except Fault Unit
  | [], _ => .ok ()
  | k :: ks, seen => do
    ensure (k.length = 32) ⟨none, "recovery pubkeys must be 32-byte x-only keys"⟩
    ensure (C.isXOnlyPoint k) ⟨none, "recovery pubkey is not on the secp256k1 curve"⟩
    ensure (k ∉ seen) ⟨none, "duplicate recovery pubkey " ++ k.hexString⟩
    checkRecoveryPubkeys C ks (k :: seen)

def sortRecoveryPubkeys (C : Crypto) (pubkeys : List Bytes) : Except Fault (List Bytes) := do
  checkRecoveryPubkeys C pubkeys []
  return pubkeys.insertionSort Bytes.le

/-- `<csv> CSV DROP <K1> CHECKSIG <K2> CHECKSIGADD … <threshold> NUMEQUAL`. -/
def buildThresholdRecoveryLeaf (C : Crypto) (csvBlocks threshold : Int) (pubkeys : List Bytes) :
    Except Fault Bytes := do
  ensure (0 < csvBlocks) ⟨none, "csvBlocks must be positive"⟩
  ensure (1 ≤ threshold ∧ threshold ≤ 16) ⟨none, "threshold must be 1..16"⟩
  ensure (threshold ≤ pubkeys.length) ⟨none, "threshold exceeds pubkey count"⟩
  let keys ← sortRecoveryPubkeys C pubkeys
  let checks := keys.zipIdx.flatMap fun (k, i) =>
    [ScriptChunk.data k, ScriptChunk.op (if i = 0 then 0xac else 0xba)]
  return scriptCompile
    ([ScriptChunk.data (scriptNumber csvBlocks.toNat), ScriptChunk.op 0xb2, ScriptChunk.op 0x75] ++
      checks ++ [ScriptChunk.op (UInt8.ofNat (0x50 + threshold.toNat)), ScriptChunk.op 0x9c])

/-- `<144> CSV 2DROP <owner> CHECKSIG`. -/
def buildDev1RecoveryLeaf (ownerXOnly : Bytes) : Except Fault Bytes := do
  ensure (ownerXOnly.length = 32) ⟨none, "ownerXOnly must be 32 bytes"⟩
  return scriptCompile
    [.data (scriptNumber 144), .op 0xb2, .op 0x6d, .data ownerXOnly, .op 0xac]

def buildRecoveryLeafForProfile (C : Crypto) (profile : VaultRecoveryProfile) :
    Except Fault Bytes :=
  match profile.profileVersion with
  | .dev1 =>
    match profile.recoveryPubkeys with
    | [k] => buildDev1RecoveryLeaf k
    | _ => .error ⟨none, "DEV1 requires exactly one recovery key"⟩
  | .mainnet1 =>
    buildThresholdRecoveryLeaf C profile.recoveryCsvBlocks profile.recoveryThreshold
      profile.recoveryPubkeys

def dev1RecoveryProfile (ownerXOnly : Bytes) : VaultRecoveryProfile where
  profileVersion := .dev1
  recoveryCsvBlocks := 144
  recoveryThreshold := 1
  recoveryPubkeys := [ownerXOnly]

structure PolicyIdentity where
  version : Nat
  operation : UInt8
  tokenId : Bytes
  currentStateHash : Bytes
  cmr : Bytes
  deriving DecidableEq, Repr

def policyIdentityHash (C : Crypto) (p : PolicyIdentity) : Except Fault Bytes := do
  ensure (p.tokenId.length = 32) ⟨none, "tokenId must be 64 hex chars"⟩
  ensure (p.currentStateHash.length = 32) ⟨none, "currentStateHash must be 32 bytes"⟩
  ensure (p.cmr.length = 32) ⟨none, "cmr must be 32 bytes"⟩
  return taggedHash C "CovePolicy"
    (UInt8.ofNat p.version :: p.operation :: (p.tokenId ++ p.currentStateHash ++ p.cmr))

structure CoveVaultLeaf where
  script : Bytes
  tapleafHash : Bytes
  deriving DecidableEq, Repr

structure CoveVaultV3 where
  numsKey : Bytes
  mintLeaf : CoveVaultLeaf
  redeemLeaf : CoveVaultLeaf
  recoveryLeaf : CoveVaultLeaf
  merkleRoot : Bytes
  outputKey : Bytes
  outputParity : Nat
  scriptPubKey : Bytes
  mintControlBlock : Bytes
  redeemControlBlock : Bytes
  recoveryControlBlock : Bytes
  deriving DecidableEq, Repr

/-- The keys a vault is built for. -/
structure VaultKeys where
  guardianXOnly : Bytes
  recoveryKeyXOnly : Bytes
  recoveryProfile : Option VaultRecoveryProfile
  deriving DecidableEq, Repr

def buildCoveVaultV3 (C : Crypto) (mintPolicyIdentityHash redeemPolicyIdentityHash : Bytes)
    (keys : VaultKeys) : Except Fault CoveVaultV3 := do
  let mintScript ← buildExecutionLeaf C mintPolicyIdentityHash keys.guardianXOnly
  let redeemScript ← buildExecutionLeaf C redeemPolicyIdentityHash keys.guardianXOnly
  let recoveryScript ← buildRecoveryLeafForProfile C
    (keys.recoveryProfile.getD (dev1RecoveryProfile keys.recoveryKeyXOnly))
  let leaf (script : Bytes) : CoveVaultLeaf := ⟨script, tapleafHash C script leafVersionTapscript⟩
  let mintLeaf := leaf mintScript
  let redeemLeaf := leaf redeemScript
  let recoveryLeaf := leaf recoveryScript
  let leaves := [mintLeaf.tapleafHash, redeemLeaf.tapleafHash, recoveryLeaf.tapleafHash]
  let merkleRoot ← taprootMerkleRoot C leaves
  let (outputKey, outputParity) ← tweakKey C coveNumsXOnly merkleRoot
  let paths := merklePaths C leaves
  let controlBlockFor (tapleaf : Bytes) : Bytes :=
    (leafVersionTapscript ||| UInt8.ofNat outputParity) ::
      (coveNumsXOnly ++ ((paths.get tapleaf).getD []).flatten)
  return {
    numsKey := coveNumsXOnly
    mintLeaf, redeemLeaf, recoveryLeaf, merkleRoot, outputKey, outputParity
    scriptPubKey := 0x51 :: 0x20 :: outputKey
    mintControlBlock := controlBlockFor mintLeaf.tapleafHash
    redeemControlBlock := controlBlockFor redeemLeaf.tapleafHash
    recoveryControlBlock := controlBlockFor recoveryLeaf.tapleafHash }

/-- The vault that commits to a covenant state. -/
def buildBackingVaultV3 (C : Crypto) (state : CoveStateV2) (keys : VaultKeys) :
    Except Fault CoveVaultV3 := do
  let currentStateHash ← stateHashV2 C state
  let identity (operation : UInt8) (cmr : Bytes) : PolicyIdentity :=
    ⟨covePolicyV3, operation, state.tokenId, currentStateHash, cmr⟩
  let mintPi ← policyIdentityHash C (identity opMint mintCmrV3)
  let redeemPi ← policyIdentityHash C (identity opRedeem redeemCmrV3)
  buildCoveVaultV3 C mintPi redeemPi keys

end Cove
