import Cove.Lib.Checked
import Mathlib.Algebra.Ring.Int.Defs

/-! The 210-stair bonding curve: `packages/curve/src/constants.ts`, `prices.ts` and
`packages/cove-economics/src/curve.ts`, `backing.ts`. A `bigint` is an `Int`. -/

namespace Cove

open Checked

def atomsPerToken : Int := 10 ^ 8
def publicSupplyTokens : Int := 21000000
def publicSupplyAtoms : Int := publicSupplyTokens * atomsPerToken
def stageCount : Nat := 210
def tokensPerStage : Int := 100000
def lotTokens : Int := 1000
def lotAtoms : Int := lotTokens * atomsPerToken
def lotBaseSats : Int := 27
def lotStepSats : Int := 27
def priceUnitTokens : Int := 1000000

theorem atomsPerToken_eq : atomsPerToken = 100000000 := by decide

theorem lotAtoms_eq : lotAtoms = 100000000000 := by decide

theorem publicSupplyAtoms_eq : publicSupplyAtoms = 2100000000000000 := by decide

/-- Sats per million tokens on each stair, cheapest first. -/
def stagePricesSatsPerMillion : List Int :=
  (List.range stageCount).map fun (i : Nat) =>
    (lotBaseSats + lotStepSats * (i : Int)) * (priceUnitTokens / lotTokens)

/-- The 1-based stair of the next token, clamped at the last one. -/
def getStageForSupply (supply : Int) : Except Fault Nat :=
  if supply < 0 then .error ⟨some "NEGATIVE_SUPPLY", "Supply cannot be negative."⟩
  else if supply ≥ publicSupplyTokens then .ok stageCount
  else .ok (min ((supply / tokensPerStage).toNat + 1) stageCount)

/-- Division rounding up. Every caller divides by a nonzero constant. -/
def ceilDiv (n d : Int) : Int := if n ≤ 0 then 0 else (n + d - 1) / d

/-- The 0-based stair a supply stands on. -/
def stageAt (supply : Int) : Nat :=
  if supply ≥ publicSupplyTokens then stagePricesSatsPerMillion.length - 1
  else (supply / tokensPerStage).toNat

/-- The loop of `stairs210.costToBuy`. Every turn takes at least one token, so
a fuel of `remaining` never runs out before the loop ends. -/
def costToBuyLoop (supply amount : Int) : Nat → Int → Int → Int → Except Fault Int
  | 0, _, _, cost => .ok cost
  | fuel + 1, remaining, s, cost =>
    if remaining ≤ 0 then .ok cost
    else
      let stage := stageAt s
      let inStage := ((stage : Int) + 1) * tokensPerStage - s
      let chunk := if remaining < inStage then remaining else inStage
      if chunk ≤ 0 then
        .error ⟨none, s!"cannot price {amount} tokens from {supply}: beyond the public supply"⟩
      else
        costToBuyLoop supply amount fuel (remaining - chunk) (s + chunk)
          (cost + ceilDiv (chunk * stagePricesSatsPerMillion.getD stage 0) priceUnitTokens)

/-- `stairs210.costToBuy`. -/
def costToBuy (supply amount : Int) : Except Fault Int :=
  costToBuyLoop supply amount amount.toNat amount supply 0

def assertSupplyInRange (supply : Int) : Except Fault Unit := do
  ensure (0 ≤ supply) ⟨some "INVALID_SUPPLY", "supply must be non-negative"⟩
  ensure (supply ≤ publicSupplyTokens) ⟨some "PUBLIC_CAP_EXCEEDED", "supply exceeds public cap"⟩

/-- `R`: the sats the vault must hold for an issued supply of display tokens. -/
def requiredBackingSats (supply : Int) : Except Fault Int := do
  assertSupplyInRange supply
  costToBuy 0 supply

/-- One lot on the first stair costs the base lot price. -/
example : requiredBackingSats 1000 = .ok 27 := by decide +kernel

end Cove
