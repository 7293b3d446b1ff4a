import Cove.Economics.Curve
import Cove.Lib.Bytes

/-! Protocol fees and the dust rule: `packages/cove-economics/src/fee.ts`, `dust.ts` and
`feeSettlement.ts`. -/

namespace Cove

open Checked

structure CoveFeeConfig where
  buyFeeBps : Int
  buyFeeFlatSats : Int
  buyFeeLotSats : Int
  creatorFeeBps : Int
  redeemFeeBps : Int
  redeemFeeFlatSats : Int
  redeemFeeMinSats : Int
  p2pFeeBps : Int
  p2pFeeFlatSats : Int
  p2pFeeMinSats : Int
  deriving DecidableEq, Repr

def coveFeeConfig : CoveFeeConfig where
  buyFeeBps := 750
  buyFeeFlatSats := 5000
  buyFeeLotSats := 10
  creatorFeeBps := 5000
  redeemFeeBps := 750
  redeemFeeFlatSats := 0
  redeemFeeMinSats := 1000
  p2pFeeBps := 750
  p2pFeeFlatSats := 0
  p2pFeeMinSats := 1000

def bpsDenom : Int := 10000

/-- `flat + ceil(gross × bps / 10000)`, never below the minimum. -/
def deterministicFee (grossSats feeBps flatSats minSats : Int) : Except Fault Int := do
  ensure (0 ≤ grossSats) ⟨none, "grossSats must be non-negative"⟩
  ensure (0 ≤ feeBps) ⟨none, "feeBps must be non-negative"⟩
  ensure (0 ≤ flatSats) ⟨none, "flatSats must be non-negative"⟩
  ensure (0 ≤ minSats) ⟨none, "minSats must be non-negative"⟩
  if grossSats = 0 then return 0
  let pct := if feeBps = 0 then 0 else (grossSats * feeBps + bpsDenom - 1) / bpsDenom
  let fee := flatSats + pct
  return if fee < minSats then minSats else fee

def mintFeeSats (grossSats amountAtoms feeBps flatPerMintSats perLotSats : Int) : Except Fault Int :=
  deterministicFee grossSats feeBps (flatPerMintSats + perLotSats * (amountAtoms / lotAtoms)) 0

def creatorRecordSats : Int := 1000
def creatorMinSats : Int := 546

def creatorFeeSats (grossSats creatorBps : Int) : Except Fault Int :=
  deterministicFee grossSats creatorBps 0 creatorMinSats

def redeemFeeSats (grossSats feeBps flatSats minSats : Int) : Except Fault Int :=
  deterministicFee grossSats feeBps flatSats minSats

def isP2TR (script : Bytes) : Bool :=
  script.length = 34 && script[0]? = some 0x51 && script[1]? = some 0x20

def isP2WPKH (script : Bytes) : Bool :=
  script.length = 22 && script[0]? = some 0x00 && script[1]? = some 0x14

def isP2SH (script : Bytes) : Bool :=
  script.length = 23 && script[0]? = some 0xa9 && script[1]? = some 0x14 && script[22]? = some 0x87

/-- Scripts a creator can be paid to. -/
def isCreatorScript (script : Bytes) : Bool := isP2WPKH script || isP2TR script || isP2SH script

def isWitnessProgram (script : Bytes) : Bool :=
  match script with
  | first :: len :: rest =>
    script.length ≥ 4 && (first = 0x00 || (0x51 ≤ first && first ≤ 0x60)) &&
      2 ≤ len && len ≤ 40 && rest.length = len.toNat
  | _ => false

def dustRelayFeeSatPerKvB : Int := 3000

/-- Bitcoin Core's dust threshold of an output script. -/
def dustThreshold (script : Bytes) : Int :=
  if script[0]? = some 0x6a then 0
  else (8 + 1 + (script.length : Int) + (if isWitnessProgram script then 67 else 148)) *
    dustRelayFeeSatPerKvB / 1000

structure FeeSettlementCheck where
  nominalFeeSats : Int
  dustThresholdSats : Int
  isStandard : Bool
  minimumGrossForStandardFeeOutput : Option Int
  deriving DecidableEq, Repr

/-- A nonzero fee output below the dust threshold is not standard. -/
def checkFeeSettlement (nominalFeeSats : Int) (feeScript : Bytes) (feeBps : Int) :
    Except Fault FeeSettlementCheck := do
  ensure (0 ≤ nominalFeeSats) ⟨none, "nominalFeeSats must be non-negative"⟩
  let dust := dustThreshold feeScript
  return {
    nominalFeeSats
    dustThresholdSats := dust
    isStandard := nominalFeeSats = 0 || dust ≤ nominalFeeSats
    minimumGrossForStandardFeeOutput :=
      if feeBps = 0 then none else some (((dust - 1) * bpsDenom).tdiv feeBps + 1) }

end Cove
