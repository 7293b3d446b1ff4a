import Cove.Covenant.State
import Cove.Economics.Lots

/-! The first version of the covenant: `packages/cove-covenant/src/types.ts`, `state.ts` and
`transition.ts`. Its serializer still bounds the stage as when the curve had twenty stairs. -/

namespace Cove

open Checked

namespace V1

inductive CovePhase
  | publicMint
  | graduated
  | liquidity
  deriving DecidableEq, Repr

def phaseToByte : CovePhase → UInt8
  | .publicMint => 0x00
  | .graduated => 0x01
  | .liquidity => 0x02

/-- The token id is the 32 bytes its 64 hexadecimal characters spell. -/
structure CoveState where
  version : Nat
  tokenId : Bytes
  phase : CovePhase
  publicSupplyAtoms : Int
  reserveSats : Int
  curveStage : Nat
  deriving DecidableEq, Repr

def coveStateVersion : Nat := 1

/-- The largest stage the serializer takes. -/
def serializedStageMax : Nat := 20

def serializeState (state : CoveState) : Except Fault Bytes := do
  ensure (state.version = coveStateVersion)
    ⟨none, s!"Unsupported state version {state.version} (expected {coveStateVersion})"⟩
  ensure (state.tokenId.length = 32)
    ⟨none, s!"tokenId must be 64 hex chars, got \"{state.tokenId.hexString}\""⟩
  ensure (0 ≤ state.publicSupplyAtoms ∧ state.publicSupplyAtoms ≤ u64Max)
    ⟨none, "publicSupplyAtoms does not fit in u64"⟩
  ensure (0 ≤ state.reserveSats ∧ state.reserveSats ≤ u64Max)
    ⟨none, "reserveSats does not fit in u64"⟩
  ensure (1 ≤ state.curveStage ∧ state.curveStage ≤ serializedStageMax)
    ⟨none, s!"curveStage must be an integer 1..20, got {state.curveStage}"⟩
  return UInt8.ofNat state.version :: (state.tokenId ++ [phaseToByte state.phase] ++
    Bytes.ofNatBE 8 state.publicSupplyAtoms.toNat ++ Bytes.ofNatBE 8 state.reserveSats.toNat ++
      [UInt8.ofNat state.curveStage])

structure MintResult where
  nextState : CoveState
  curveContributionSats : Int
  deriving DecidableEq, Repr

structure RedeemResult where
  nextState : CoveState
  grossRedeemSats : Int
  deriving DecidableEq, Repr

/-- What `applyMint` throws for a backing error; only those carry a code. -/
def mintBackingFault (e : Fault) : Fault :=
  match e.code with
  | none => e
  | some code => ⟨some (if code = "ECONOMIC_DUST" then "ECONOMIC_DUST" else "OVERMINT"), e.message⟩

def applyMint (prev : CoveState) (amountAtoms : Int) : Except Fault MintResult := do
  ensure (0 < amountAtoms) ⟨some "ZERO_MINT", "Minted amount must be positive."⟩
  ensure (amountAtoms % atomsPerToken = 0)
    ⟨some "SUBTOKEN_MINT", "Minted amount must be a whole display token."⟩
  let amountTokens := amountAtoms / atomsPerToken
  let supplyTokens := prev.publicSupplyAtoms / atomsPerToken
  let nextSupplyAtoms := prev.publicSupplyAtoms + amountAtoms
  ensure (nextSupplyAtoms ≤ publicSupplyAtoms) ⟨some "OVERMINT",
    s!"Mint would exceed public supply ({nextSupplyAtoms} > {publicSupplyAtoms})."⟩
  let curveContributionSats ← (grossBuy supplyTokens amountTokens).mapError mintBackingFault
  let curveStage ← getStageForSupply (nextSupplyAtoms / atomsPerToken)
  return {
    curveContributionSats
    nextState := { prev with
      publicSupplyAtoms := nextSupplyAtoms
      reserveSats := prev.reserveSats + curveContributionSats
      curveStage } }

/-- A backing error is thrown on with its code and message. -/
def applyRedeem (prev : CoveState) (amountAtoms : Int) : Except Fault RedeemResult := do
  ensure (0 < amountAtoms) ⟨some "ZERO_REDEEM", "Redeemed amount must be positive."⟩
  ensure (amountAtoms % atomsPerToken = 0)
    ⟨some "SUBTOKEN_REDEEM", "Redeemed amount must be a whole display token."⟩
  let amountTokens := amountAtoms / atomsPerToken
  let supplyTokens := prev.publicSupplyAtoms / atomsPerToken
  ensure (amountAtoms ≤ prev.publicSupplyAtoms)
    ⟨some "INSUFFICIENT_TOKEN_BALANCE", "Redeem exceeds issued supply."⟩
  let gross ← grossRedeem supplyTokens amountTokens
  let nextSupplyAtoms := prev.publicSupplyAtoms - amountAtoms
  let curveStage ← getStageForSupply (nextSupplyAtoms / atomsPerToken)
  return {
    grossRedeemSats := gross
    nextState := { prev with
      publicSupplyAtoms := nextSupplyAtoms
      reserveSats := prev.reserveSats - gross
      curveStage } }

/-! When the successor serializes. -/

/-- The serializer takes the state. -/
def Serializes (s : CoveState) : Prop := ∃ bytes, serializeState s = .ok bytes

theorem serializes_iff (s : CoveState) :
    Serializes s ↔ s.version = coveStateVersion ∧ s.tokenId.length = 32 ∧
      (0 ≤ s.publicSupplyAtoms ∧ s.publicSupplyAtoms ≤ u64Max) ∧
      (0 ≤ s.reserveSats ∧ s.reserveSats ≤ u64Max) ∧
      1 ≤ s.curveStage ∧ s.curveStage ≤ serializedStageMax := by
  simp only [Serializes, serializeState, bind_eq_ok, ensure_eq_ok, pure_eq_ok]
  constructor
  · intro h
    obtain ⟨_, _, hv, _, ht, _, hp, _, hr, _, hs, -⟩ := h
    exact ⟨hv, ht, hp, hr, hs⟩
  · intro h
    obtain ⟨hv, ht, hp, hr, hs⟩ := h
    exact ⟨_, (), hv, (), ht, (), hp, (), hr, (), hs, rfl⟩

/-- The supply stands on one of the stairs the serializer knows. -/
def OnSerializedStairs (supplyAtoms : Int) : Prop :=
  supplyAtoms / atomsPerToken < serializedStageMax * tokensPerStage

instance (supplyAtoms : Int) : Decidable (OnSerializedStairs supplyAtoms) :=
  inferInstanceAs (Decidable (_ < _))

theorem getStageForSupply_le_iff {supply : Int} {stage : Nat}
    (h : getStageForSupply supply = .ok stage) :
    1 ≤ stage ∧ (stage ≤ serializedStageMax ↔ supply < serializedStageMax * tokensPerStage) := by
  unfold getStageForSupply at h
  split_ifs at h with hneg hsold
  · have hstage := Except.ok.inj h
    unfold publicSupplyTokens at hsold
    unfold stageCount at hstage
    unfold serializedStageMax tokensPerStage
    omega
  · have hstage := Except.ok.inj h
    unfold tokensPerStage stageCount at hstage
    unfold serializedStageMax tokensPerStage
    omega

/-- A mint leaves a state that serializes when it ends on the stairs the serializer knows and what
it adds to the reserve still fits. -/
def MintFits (prev : CoveState) (amountAtoms : Int) : Prop :=
  OnSerializedStairs (prev.publicSupplyAtoms + amountAtoms) ∧
    ∀ gross, grossBuy (prev.publicSupplyAtoms / atomsPerToken) (amountAtoms / atomsPerToken) =
      .ok gross → prev.reserveSats + gross ≤ u64Max

/-- A redeem does when it ends on those stairs and the reserve holds what it pays out. -/
def RedeemFits (prev : CoveState) (amountAtoms : Int) : Prop :=
  OnSerializedStairs (prev.publicSupplyAtoms - amountAtoms) ∧
    ∀ gross, grossRedeem (prev.publicSupplyAtoms / atomsPerToken) (amountAtoms / atomsPerToken) =
      .ok gross → gross ≤ prev.reserveSats

theorem grossBuy_pos {supply amount gross : Int} (h : grossBuy supply amount = .ok gross) :
    1 ≤ gross := by
  simp only [grossBuy, assertPositiveDelta, bind_eq_ok, ensure_eq_ok, pure_eq_ok] at h
  obtain ⟨_, -, _, -, _, -, _, -, _, -, _, hpos, rfl⟩ := h
  exact hpos

theorem grossRedeem_pos {supply amount gross : Int} (h : grossRedeem supply amount = .ok gross) :
    1 ≤ gross := by
  simp only [grossRedeem, assertPositiveDelta, bind_eq_ok, ensure_eq_ok, pure_eq_ok] at h
  obtain ⟨_, -, _, -, _, -, _, -, _, -, _, hpos, rfl⟩ := h
  exact hpos

theorem applyMint_serializes_iff {prev : CoveState} {amountAtoms : Int} {r : MintResult}
    (hprev : Serializes prev) (h : applyMint prev amountAtoms = .ok r) :
    Serializes r.nextState ↔ MintFits prev amountAtoms := by
  obtain ⟨hv, ht, ⟨hp0, -⟩, ⟨hr0, -⟩, -⟩ := (serializes_iff prev).mp hprev
  simp only [applyMint, bind_eq_ok, ensure_eq_ok, mapError_eq_ok, pure_eq_ok] at h
  obtain ⟨_, hpos, _, -, _, hcap, gross, hgross, stage, hstage, rfl⟩ := h
  obtain ⟨hone, hle⟩ := getStageForSupply_le_iff hstage
  have hgrossPos := grossBuy_pos hgross
  have hmax : publicSupplyAtoms ≤ u64Max := by decide
  rw [serializes_iff]
  dsimp only
  constructor
  · intro hs
    obtain ⟨-, -, -, hreserve, -, hstair⟩ := hs
    refine ⟨hle.mp hstair, ?_⟩
    intro g hg
    have heq : g = gross := Except.ok.inj (hg.symm.trans hgross)
    rw [heq]
    exact hreserve.2
  · intro hfits
    have hreserve := hfits.2 gross hgross
    exact ⟨hv, ht, by omega, by omega, hone, hle.mpr hfits.1⟩

theorem applyRedeem_serializes_iff {prev : CoveState} {amountAtoms : Int} {r : RedeemResult}
    (hprev : Serializes prev) (h : applyRedeem prev amountAtoms = .ok r) :
    Serializes r.nextState ↔ RedeemFits prev amountAtoms := by
  obtain ⟨hv, ht, ⟨-, hpmax⟩, ⟨-, hrmax⟩, -⟩ := (serializes_iff prev).mp hprev
  simp only [applyRedeem, bind_eq_ok, ensure_eq_ok, pure_eq_ok] at h
  obtain ⟨_, hpos, _, -, _, hle', gross, hgross, stage, hstage, rfl⟩ := h
  obtain ⟨hone, hle⟩ := getStageForSupply_le_iff hstage
  have hgrossPos := grossRedeem_pos hgross
  rw [serializes_iff]
  dsimp only
  constructor
  · intro hs
    obtain ⟨-, -, -, hreserve, -, hstair⟩ := hs
    refine ⟨hle.mp hstair, ?_⟩
    intro g hg
    have heq : g = gross := Except.ok.inj (hg.symm.trans hgross)
    omega
  · intro hfits
    have hreserve := hfits.2 gross hgross
    exact ⟨hv, ht, by omega, by omega, hone, hle.mpr hfits.1⟩

/-- The successor of an accepted transition serializes just when the transition fits. -/
theorem transitions_serialize_iff {prev : CoveState} (hprev : Serializes prev) (amountAtoms : Int) :
    (∀ r, applyMint prev amountAtoms = .ok r →
      (Serializes r.nextState ↔ MintFits prev amountAtoms)) ∧
    (∀ r, applyRedeem prev amountAtoms = .ok r →
      (Serializes r.nextState ↔ RedeemFits prev amountAtoms)) :=
  ⟨fun _ h => applyMint_serializes_iff hprev h, fun _ h => applyRedeem_serializes_iff hprev h⟩

/-- A token with nothing issued. -/
def freshState : CoveState := ⟨1, List.replicate 32 0xab, .publicMint, 0, 0, 1⟩

theorem freshState_serializes : Serializes freshState :=
  (serializes_iff freshState).mpr (by decide)

/-- The first stair is minted. -/
theorem transitions_serialize_iff_first_stair :
    Serializes ⟨1, List.replicate 32 0xab, .publicMint, 10000000000000, 2700, 2⟩ ↔
      MintFits freshState 10000000000000 :=
  (transitions_serialize_iff freshState_serializes 10000000000000).1 ⟨_, 2700⟩ (by decide +kernel)

/-- Twenty stairs are minted at once, and the state stands on the next one. -/
theorem twenty_stairs_not_serialized :
    ¬∀ (prev : CoveState) (amountAtoms : Int) (r : MintResult), Serializes prev →
      applyMint prev amountAtoms = .ok r → Serializes r.nextState := by
  intro h
  have hmint : applyMint freshState 200000000000000 =
      .ok ⟨⟨1, List.replicate 32 0xab, .publicMint, 200000000000000, 567000, 21⟩, 567000⟩ := by
    decide +kernel
  have hnext := h _ _ _ freshState_serializes hmint
  rw [serializes_iff] at hnext
  exact absurd hnext (by decide)

end V1

end Cove
