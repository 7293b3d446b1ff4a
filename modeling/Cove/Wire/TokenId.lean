import Cove.Wire.Codec
import Cove.Bitcoin.Transaction

/-! Token identity: `packages/cove-wire/src/tokenId.ts`. -/

namespace Cove

open Checked

/-- `SHA256(SHA256(tag) || SHA256(tag) || msg)`. -/
def taggedHash (C : Crypto) (tag : String) (msg : Bytes) : Bytes :=
  let tagHash := C.sha256 (Bytes.ascii tag)
  C.sha256 (tagHash ++ tagHash ++ msg)

structure TokenIdentityInput where
  chainIdentity : Bytes
  policyVersion : Nat
  ticker : Bytes
  tokenNonce : Bytes
  creatorScript : Bytes
  deriving DecidableEq, Repr

def computeTokenId (C : Crypto) (input : TokenIdentityInput) : Except Fault Bytes := do
  let tick ← canonicalTicker input.ticker
  ensure (input.tokenNonce.length = 32) ⟨none, "tokenNonce must be 32 bytes"⟩
  ensure (1 ≤ input.policyVersion) ⟨none, "policyVersion must be a positive integer"⟩
  ensure (input.creatorScript.length ≠ 0 ∧ input.creatorScript.length ≤ 255)
    ⟨none, "creatorScript must be 1..255 bytes"⟩
  return taggedHash C "CoveToken"
    (input.chainIdentity ++ [UInt8.ofNat input.policyVersion] ++ tick ++ input.tokenNonce ++
      [UInt8.ofNat input.creatorScript.length] ++ input.creatorScript)

end Cove
