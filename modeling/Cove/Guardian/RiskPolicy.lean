import Cove.Guardian.Accept
import Cove.Mainnet.Profile

/-! The caps the Guardian signs within, and where they come from: `checkRiskPolicy` of
`packages/cove-guardian/src/v3/transitionSigner.ts`, `riskPolicyFromProfile` of
`apps/guardian/src/service.ts`. -/

namespace Cove

open Checked

structure GuardianRiskPolicy where
  maxGrossSats : Int
  maxMintAtoms : Int
  minMintGrossSats : Int
  maxRedeemPayoutSats : Int
  maxBackingSats : Int
  maxMinerFeeSats : Int
  allowedTokenIds : List Bytes
  enforceTokenAllowlist : Bool
  deriving DecidableEq, Repr

section

variable (policy : GuardianRiskPolicy)

/-- The checks of both operations up to the caps on a mint. -/
def checkTokenAndGross (tokenId : Bytes) (grossSats : Int) : Except String Unit := do
  ensure (policy.enforceTokenAllowlist = true → tokenId.hexText ∈ policy.allowedTokenIds)
    s!"token {tokenId.hexString} is not in the canary allowlist"
  ensure (grossSats ≤ policy.maxGrossSats)
    s!"gross {grossSats} exceeds cap {policy.maxGrossSats}"

/-- The caps of both operations after those on a mint. -/
def checkBackingAndFee (nextState : CoveStateV2) (minerFeeSats : Int) : Except String Unit := do
  ensure (nextState.backingSats ≤ policy.maxBackingSats)
    s!"next backing {nextState.backingSats} exceeds cap {policy.maxBackingSats}"
  ensure (minerFeeSats ≤ policy.maxMinerFeeSats)
    s!"miner fee {minerFeeSats} exceeds cap {policy.maxMinerFeeSats}"

def checkMintCaps (a : MintAnalysis) : Except String Unit := do
  ensure (a.amountAtoms ≤ policy.maxMintAtoms)
    (s!"mint of {a.amountAtoms.tdiv 100000000} tokens exceeds the per-mint limit of " ++
      s!"{policy.maxMintAtoms.tdiv 100000000}")
  ensure (policy.minMintGrossSats ≤ a.grossSats)
    s!"mint of {a.grossSats} sats is below the minimum of {policy.minMintGrossSats}"

/-- The analysis is of the operation asked for. Where the source returns no reason, this is `ok`. -/
def checkRiskPolicy : MintAnalysis ⊕ RedeemAnalysis → Except String Unit
  | .inl a => do
    checkTokenAndGross policy a.tokenId a.grossSats
    checkMintCaps policy a
    checkBackingAndFee policy a.nextState a.minerFeeSats
  | .inr a => do
    checkTokenAndGross policy a.tokenId a.grossSats
    checkBackingAndFee policy a.nextState a.minerFeeSats
    ensure (a.netPayoutSats ≤ policy.maxRedeemPayoutSats) "redeem payout exceeds cap"

end

/-- What the policy lets through of a mint. -/
structure WithinCaps (policy : GuardianRiskPolicy) (a : MintAnalysis) : Prop where
  token : policy.enforceTokenAllowlist = true → a.tokenId.hexText ∈ policy.allowedTokenIds
  gross : a.grossSats ≤ policy.maxGrossSats
  amount : a.amountAtoms ≤ policy.maxMintAtoms
  minimum : policy.minMintGrossSats ≤ a.grossSats
  backing : a.nextState.backingSats ≤ policy.maxBackingSats
  minerFee : a.minerFeeSats ≤ policy.maxMinerFeeSats

theorem checkRiskPolicy_mint {policy : GuardianRiskPolicy} {a : MintAnalysis} :
    checkRiskPolicy policy (.inl a) = .ok () ↔ WithinCaps policy a := by
  simp only [checkRiskPolicy, checkTokenAndGross, checkMintCaps, checkBackingAndFee,
    bind_eq_ok, ensure_eq_ok]
  constructor
  · intro h
    obtain ⟨_, ⟨_, htoken, hgross⟩, _, ⟨_, hamount, hminimum⟩, _, hbacking, hfee⟩ := h
    exact ⟨htoken, hgross, hamount, hminimum, hbacking, hfee⟩
  · intro h
    exact ⟨(), ⟨(), h.token, h.gross⟩, (), ⟨(), h.amount, h.minimum⟩, (), h.backing, h.minerFee⟩

namespace Mainnet

def maxMinerFeeSats : Int := 20000

/-- The caps of a profile. A validated one states them all; the zeros stand for values that are
not there. -/
def riskPolicyFromProfile (profile : MainnetProfile) : GuardianRiskPolicy where
  maxGrossSats := profile.canary.maxSingleBuySats.getD 0
  maxMintAtoms := profile.canary.maxMintAtoms.getD 0
  minMintGrossSats := profile.canary.minMintGrossSats.getD 0
  maxRedeemPayoutSats := profile.canary.maxSingleRedeemPayoutSats.getD 0
  maxBackingSats := profile.canary.maxBackingSats.getD 0
  maxMinerFeeSats := maxMinerFeeSats
  allowedTokenIds := profile.canary.allowedTokenIds
  enforceTokenAllowlist := true

end Mainnet

end Cove
