import Cove.Economics.Curve

/-! The curve candidates of `packages/cove-economics/src/curve.ts`: the live staircase, a linear
ramp, a quadratic and a ramp of two segments. Prices are sats per million tokens. -/

namespace Cove

structure Curve where
  id : String
  priceAt : Int → Int
  costToBuy : Int → Int → Except Fault Int

/-- The live curve. -/
def stairs210 : Curve where
  id := "stairs210"
  priceAt supply := stagePricesSatsPerMillion.getD (stageAt supply) 0
  costToBuy := costToBuy

def p0 : Int := 500
def p1 : Int := 150000
def ramp : Int := p1 - p0

def linearRamp : Curve where
  id := "linear"
  priceAt supply :=
    let capped := if supply > publicSupplyTokens then publicSupplyTokens else supply
    p0 + (ramp * capped).tdiv publicSupplyTokens
  costToBuy supply amount :=
    let n := amount
    let s := supply
    let num := p0 * n * 2 * publicSupplyTokens + ramp * (n * n + 2 * s * n)
    let den := 2 * publicSupplyTokens * priceUnitTokens
    .ok (ceilDiv num den)

def qk : Int := ramp

def quadratic : Curve where
  id := "quadratic"
  priceAt supply :=
    let capped := if supply > publicSupplyTokens then publicSupplyTokens else supply
    p0 + (qk * capped * capped).tdiv (publicSupplyTokens * publicSupplyTokens)
  costToBuy supply amount :=
    let n := amount
    let s := supply
    let sCube := s * s * s
    let eCube := (s + n) * (s + n) * (s + n)
    let num := p0 * n * 3 * publicSupplyTokens * publicSupplyTokens + qk * (eCube - sCube)
    let den := 3 * publicSupplyTokens * publicSupplyTokens * priceUnitTokens
    .ok (ceilDiv num den)

def kink : Int := publicSupplyTokens / 2
def seg0Start : Int := 500
def seg0End : Int := 20000
def seg1Start : Int := 20000
def seg1End : Int := 150000

def twoSegPriceAt (supply : Int) : Int :=
  if supply ≤ kink then
    seg0Start + ((seg0End - seg0Start) * supply).tdiv kink
  else
    let beyond := supply - kink
    seg1Start + ((seg1End - seg1Start) * beyond).tdiv (publicSupplyTokens - kink)

/-- Each segment a purchase reaches into is integrated and rounded up on its own. -/
def twoSegmentLinear : Curve where
  id := "twoSegLinear"
  priceAt := twoSegPriceAt
  costToBuy supply amount :=
    let stop := supply + amount
    let s0 := if supply < kink then supply else kink
    let e0 := if stop < kink then stop else kink
    let cost0 :=
      if e0 > s0 then
        let n := e0 - s0
        let m := seg0End - seg0Start
        let num := seg0Start * n * 2 * kink + m * (n * n + 2 * s0 * n)
        ceilDiv num (2 * kink * priceUnitTokens)
      else 0
    let cost1 :=
      if stop > kink then
        let s1 := if supply < kink then kink else supply
        let n := stop - s1
        let m := seg1End - seg1Start
        let segLen := publicSupplyTokens - kink
        let beyond := s1 - kink
        let num := seg1Start * n * 2 * segLen + m * (n * n + 2 * beyond * n)
        ceilDiv num (2 * segLen * priceUnitTokens)
      else 0
    .ok (cost0 + cost1)

/-- `CURVES`. -/
def curves : List Curve := [stairs210, linearRamp, quadratic, twoSegmentLinear]

end Cove
