import Cove.Covenant.State
import Cove.Economics.Backing
import Mathlib.Tactic.NormNum

/-! What the covenant's transitions promise: the states `validateStateV2` accepts are
closed under accepted mints and redeems, and the supply moves by the amount. -/

namespace Cove

open Checked

/-- The states `validateStateV2` accepts. -/
structure ValidStateV2 (s : CoveStateV2) : Prop where
  stateVersion : s.stateVersion = 2
  policyVersion : s.policyVersion = covePolicyV3
  tokenId : isTokenIdHex s.tokenId
  supply_nonneg : 0 ≤ s.issuedPublicSupplyAtoms
  supply_le : s.issuedPublicSupplyAtoms ≤ publicSupplyAtoms
  supply_lots : s.issuedPublicSupplyAtoms % lotAtoms = 0
  stage : impliedStageV2 s.issuedPublicSupplyAtoms = .ok s.curveStage
  backing : requiredBackingSats (s.issuedPublicSupplyAtoms / atomsPerToken) = .ok s.backingSats

theorem whole_tokens_of_lots (a : Int) (h : a % lotAtoms = 0) : a % atomsPerToken = 0 := by
  rw [lotAtoms_eq] at h
  rw [atomsPerToken_eq]
  omega

theorem validateStateV2_eq_ok (s : CoveStateV2) :
    validateStateV2 s = .ok () ↔ ValidStateV2 s := by
  constructor
  · intro h
    simp only [validateStateV2, bind_eq_ok, ensure_eq_ok] at h
    obtain ⟨_, hv, _, hp, _, ht, _, hr, _, -, _, hl, stage, hs, _, hc, backing, hb, he⟩ := h
    exact ⟨hv, hp, ht, hr.1, hr.2, hl, by rw [hs, hc], by rw [hb, he]⟩
  · intro h
    simp only [validateStateV2, bind_eq_ok, ensure_eq_ok]
    exact ⟨(), h.stateVersion, (), h.policyVersion, (), h.tokenId, (), ⟨h.supply_nonneg, h.supply_le⟩,
      (), whole_tokens_of_lots _ h.supply_lots, (), h.supply_lots, _, h.stage, (), rfl, _, h.backing,
      rfl⟩

theorem s0StateV2_spec {tokenId : Bytes} {s : CoveStateV2} (h : s0StateV2 tokenId = .ok s)
    (ht : isTokenIdHex tokenId) :
    ValidStateV2 s ∧ s.tokenId = tokenId ∧ s.issuedPublicSupplyAtoms = 0 ∧ s.backingSats = 0 := by
  simp only [s0StateV2, bind_eq_ok, pure_eq_ok] at h
  obtain ⟨stage, hs, rfl⟩ := h
  refine ⟨⟨rfl, rfl, ht, le_refl _, ?_, rfl, hs, rfl⟩, rfl, rfl, rfl⟩
  norm_num [publicSupplyAtoms, publicSupplyTokens, atomsPerToken]

/-- An accepted mint adds its amount to the supply and keeps the state valid. -/
theorem applyMintV2_spec {prev : CoveStateV2} {a : Int} {r : TransitionV2Result}
    (h : applyMintV2 prev a = .ok r) :
    ValidStateV2 prev ∧ ValidStateV2 r.nextState ∧ r.nextState.tokenId = prev.tokenId ∧
      0 < a ∧ r.nextState.issuedPublicSupplyAtoms = prev.issuedPublicSupplyAtoms + a := by
  simp only [applyMintV2, bind_eq_ok, ensure_eq_ok, pure_eq_ok] at h
  obtain ⟨_, hv, _, ha, _, -, _, hl, _, hc, _, hn, _, -, _, -, _, hs, rfl⟩ := h
  have hp := (validateStateV2_eq_ok prev).mp hv
  have hlots : (prev.issuedPublicSupplyAtoms + a) % lotAtoms = 0 := by
    rw [Int.add_emod, hp.supply_lots, hl]; rfl
  have h0 := hp.supply_nonneg
  exact ⟨hp, ⟨hp.stateVersion, hp.policyVersion, hp.tokenId, by dsimp; omega, hc, hlots, hs, hn⟩,
    rfl, ha, rfl⟩

/-- An accepted redeem takes its amount from the supply and keeps the state valid. -/
theorem applyRedeemV2_spec {prev : CoveStateV2} {a : Int} {r : TransitionV2Result}
    (h : applyRedeemV2 prev a = .ok r) :
    ValidStateV2 prev ∧ ValidStateV2 r.nextState ∧ r.nextState.tokenId = prev.tokenId ∧
      0 < a ∧ r.nextState.issuedPublicSupplyAtoms = prev.issuedPublicSupplyAtoms - a := by
  simp only [applyRedeemV2, bind_eq_ok, ensure_eq_ok, pure_eq_ok] at h
  obtain ⟨_, hv, _, ha, _, -, _, hl, _, hc, _, -, _, hn, _, -, _, hs, rfl⟩ := h
  have hp := (validateStateV2_eq_ok prev).mp hv
  have hlots : (prev.issuedPublicSupplyAtoms - a) % lotAtoms = 0 := by
    rw [Int.sub_emod, hp.supply_lots, hl]; rfl
  have hu := hp.supply_le
  exact ⟨hp, ⟨hp.stateVersion, hp.policyVersion, hp.tokenId, by dsimp; omega, by dsimp; omega,
    hlots, hs, hn⟩, rfl, ha, rfl⟩

/-! Runs of the covenant. -/

/-- A valid state fits its fixed-width layout. -/
theorem ValidStateV2.serializes {s : CoveStateV2} (h : ValidStateV2 s) :
    ∃ bytes, serializeStateV2 s = .ok bytes := by
  have hid := h.tokenId
  simp only [isTokenIdHex, Bool.and_eq_true, decide_eq_true_eq] at hid
  have hb := requiredBackingSats_bounds h.backing
  have hmax : (6 : Int) * publicSupplyTokens ≤ u64Max := by decide
  simp only [serializeStateV2, bind_eq_ok, ensure_eq_ok, pure_eq_ok]
  exact ⟨_, (), h.stateVersion, (), hid.1, (), hid.2, (), ⟨h.supply_nonneg, h.supply_le⟩, (),
    ⟨hb.1, by omega⟩, rfl⟩

theorem stateHashV2_ok {C : Crypto} {s : CoveStateV2} (h : ∃ bytes, serializeStateV2 s = .ok bytes) :
    ∃ hash, stateHashV2 C s = .ok hash := by
  obtain ⟨bytes, hbytes⟩ := h
  exact ⟨_, bind_eq_ok.mpr ⟨bytes, hbytes, rfl⟩⟩

/-- An accepted mint adds its gross to the backing. -/
theorem applyMintV2_gross {prev : CoveStateV2} {a : Int} {r : TransitionV2Result}
    (h : applyMintV2 prev a = .ok r) : r.nextState.backingSats = prev.backingSats + r.grossSats := by
  simp only [applyMintV2, bind_eq_ok, ensure_eq_ok, pure_eq_ok] at h
  obtain ⟨_, hv, _, -, _, -, _, -, _, -, next, -, before, hbefore, _, -, _, -, rfl⟩ := h
  have hp := (validateStateV2_eq_ok prev).mp hv
  have heq : before = prev.backingSats := Except.ok.inj (hbefore.symm.trans hp.backing)
  dsimp only
  omega

/-- An accepted redeem takes its gross from the backing. -/
theorem applyRedeemV2_gross {prev : CoveStateV2} {a : Int} {r : TransitionV2Result}
    (h : applyRedeemV2 prev a = .ok r) :
    r.nextState.backingSats = prev.backingSats - r.grossSats := by
  simp only [applyRedeemV2, bind_eq_ok, ensure_eq_ok, pure_eq_ok] at h
  obtain ⟨_, hv, _, -, _, -, _, -, _, -, before, hbefore, next, -, _, -, _, -, rfl⟩ := h
  have hp := (validateStateV2_eq_ok prev).mp hv
  have heq : before = prev.backingSats := Except.ok.inj (hbefore.symm.trans hp.backing)
  dsimp only
  omega

/-- The states accepted mints and redeems lead to from a first one, beside the gross amounts
minted and redeemed on the way. -/
inductive CovenantRun (s₀ : CoveStateV2) : CoveStateV2 → Int → Int → Prop
  | start : CovenantRun s₀ s₀ 0 0
  | mint {s : CoveStateV2} {minted redeemed amountAtoms : Int} {r : TransitionV2Result}
      (hs : CovenantRun s₀ s minted redeemed) (h : applyMintV2 s amountAtoms = .ok r) :
      CovenantRun s₀ r.nextState (minted + r.grossSats) redeemed
  | redeem {s : CoveStateV2} {minted redeemed amountAtoms : Int} {r : TransitionV2Result}
      (hs : CovenantRun s₀ s minted redeemed) (h : applyRedeemV2 s amountAtoms = .ok r) :
      CovenantRun s₀ r.nextState minted (redeemed + r.grossSats)

theorem CovenantRun.valid {s₀ s : CoveStateV2} {minted redeemed : Int}
    (h : CovenantRun s₀ s minted redeemed) (h₀ : ValidStateV2 s₀) (hb : s₀.backingSats = 0) :
    ValidStateV2 s ∧ s.backingSats = minted - redeemed := by
  induction h with
  | start => exact ⟨h₀, by omega⟩
  | mint _ hstep ih =>
    have hgross := applyMintV2_gross hstep
    exact ⟨(applyMintV2_spec hstep).2.1, by omega⟩
  | redeem _ hstep ih =>
    have hgross := applyRedeemV2_gross hstep
    exact ⟨(applyRedeemV2_spec hstep).2.1, by omega⟩

/-- Every state of a run from the fresh one is valid, serializes, and is backed by the reserve
function of its supply, which is what was minted less what was redeemed. -/
theorem covenant_runs_track_curve {tokenId : Bytes} {s₀ s : CoveStateV2} {minted redeemed : Int}
    (ht : isTokenIdHex tokenId) (h₀ : s0StateV2 tokenId = .ok s₀)
    (h : CovenantRun s₀ s minted redeemed) :
    validateStateV2 s = .ok () ∧ (∃ bytes, serializeStateV2 s = .ok bytes) ∧
      requiredBackingSats (s.issuedPublicSupplyAtoms / atomsPerToken) = .ok s.backingSats ∧
      requiredBackingSats (s.issuedPublicSupplyAtoms / atomsPerToken) =
        .ok (minted - redeemed) := by
  obtain ⟨hvalid₀, -, -, hb₀⟩ := s0StateV2_spec h₀ ht
  obtain ⟨hvalid, hb⟩ := h.valid hvalid₀ hb₀
  refine ⟨(validateStateV2_eq_ok s).mpr hvalid, hvalid.serializes, hvalid.backing, ?_⟩
  rw [← hb]
  exact hvalid.backing

/-- Two lots are minted and one is redeemed. -/
theorem covenant_runs_track_curve_lots :
    requiredBackingSats 1000 = .ok ((0 + 54) - (0 + 27)) := by
  have h₀ : s0StateV2 (List.replicate 32 1) = .ok ⟨2, 3, List.replicate 32 1, 0, 0, 1⟩ := by
    decide +kernel
  have hmint : applyMintV2 ⟨2, 3, List.replicate 32 1, 0, 0, 1⟩ 200000000000 =
      .ok ⟨⟨2, 3, List.replicate 32 1, 200000000000, 54, 1⟩, 54⟩ := by decide +kernel
  have hredeem : applyRedeemV2 ⟨2, 3, List.replicate 32 1, 200000000000, 54, 1⟩ 100000000000 =
      .ok ⟨⟨2, 3, List.replicate 32 1, 100000000000, 27, 1⟩, 27⟩ := by decide +kernel
  exact (covenant_runs_track_curve (by decide) h₀ (.redeem (.mint .start hmint) hredeem)).2.2.2

/-! Mint and redeem are one relation between two states, read upwards and downwards. -/

/-- The upper state has issued whole lots more than the lower one, for the gross that the
backing differs by. -/
structure CovenantStep (lower upper : CoveStateV2) (amountAtoms grossSats : Int) : Prop where
  lower_valid : ValidStateV2 lower
  upper_valid : ValidStateV2 upper
  tokenId : upper.tokenId = lower.tokenId
  amount_pos : 0 < amountAtoms
  amount_lots : amountAtoms % lotAtoms = 0
  supply : upper.issuedPublicSupplyAtoms = lower.issuedPublicSupplyAtoms + amountAtoms
  gross_pos : 1 ≤ grossSats
  backing : upper.backingSats = lower.backingSats + grossSats

/-- Valid states of one token are told by their supply, stage and backing. -/
theorem ValidStateV2.ext_of_token {s t : CoveStateV2} (hs : ValidStateV2 s) (ht : ValidStateV2 t)
    (htoken : t.tokenId = s.tokenId) :
    t = { s with
      issuedPublicSupplyAtoms := t.issuedPublicSupplyAtoms
      backingSats := t.backingSats
      curveStage := t.curveStage } := by
  apply CoveStateV2.ext
  · exact ht.stateVersion.trans hs.stateVersion.symm
  · exact ht.policyVersion.trans hs.policyVersion.symm
  · exact htoken
  all_goals rfl

theorem applyMintV2_iff {lower upper : CoveStateV2} {amountAtoms grossSats : Int} :
    applyMintV2 lower amountAtoms = .ok ⟨upper, grossSats⟩ ↔
      CovenantStep lower upper amountAtoms grossSats := by
  constructor
  · intro h
    obtain ⟨hlower, hupper, htoken, hpos, hsupply⟩ := applyMintV2_spec h
    have hbacking := applyMintV2_gross h
    simp only [applyMintV2, bind_eq_ok, ensure_eq_ok, pure_eq_ok] at h
    obtain ⟨_, -, _, -, _, -, _, hlots, _, -, _, -, _, -, _, hgross, _, -, he⟩ := h
    obtain ⟨-, rfl⟩ := TransitionV2Result.mk.inj he
    exact ⟨hlower, hupper, htoken, hpos, hlots, hsupply, hgross, hbacking⟩
  · intro h
    have hbacking := h.upper_valid.backing
    have hstage := h.upper_valid.stage
    have hcap := h.upper_valid.supply_le
    have hdelta := h.backing
    have hgross := h.gross_pos
    rw [h.supply] at hbacking hstage hcap
    simp only [applyMintV2, bind_eq_ok, ensure_eq_ok, pure_eq_ok, TransitionV2Result.mk.injEq]
    refine ⟨(), (validateStateV2_eq_ok lower).mpr h.lower_valid, (), h.amount_pos, (),
      whole_tokens_of_lots _ h.amount_lots, (), h.amount_lots, (), hcap, _, hbacking, _,
      h.lower_valid.backing, (), by omega, _, hstage, ?_, by omega⟩
    rw [← h.supply]
    exact (h.lower_valid.ext_of_token h.upper_valid h.tokenId).symm

theorem applyRedeemV2_iff {lower upper : CoveStateV2} {amountAtoms grossSats : Int} :
    applyRedeemV2 upper amountAtoms = .ok ⟨lower, grossSats⟩ ↔
      CovenantStep lower upper amountAtoms grossSats := by
  constructor
  · intro h
    obtain ⟨hupper, hlower, htoken, hpos, hsupply⟩ := applyRedeemV2_spec h
    have hbacking := applyRedeemV2_gross h
    dsimp only at hsupply hbacking
    simp only [applyRedeemV2, bind_eq_ok, ensure_eq_ok, pure_eq_ok] at h
    obtain ⟨_, -, _, -, _, -, _, hlots, _, -, _, -, _, -, _, hgross, _, -, he⟩ := h
    obtain ⟨-, rfl⟩ := TransitionV2Result.mk.inj he
    exact ⟨hlower, hupper, htoken.symm, hpos, hlots, by omega, hgross, by omega⟩
  · intro h
    have hsupply : upper.issuedPublicSupplyAtoms - amountAtoms = lower.issuedPublicSupplyAtoms := by
      rw [h.supply]
      omega
    have hnonneg := h.lower_valid.supply_nonneg
    have hdelta := h.backing
    have hgross := h.gross_pos
    simp only [applyRedeemV2, bind_eq_ok, ensure_eq_ok, pure_eq_ok, TransitionV2Result.mk.injEq,
      hsupply]
    refine ⟨(), (validateStateV2_eq_ok upper).mpr h.upper_valid, (), h.amount_pos, (),
      whole_tokens_of_lots _ h.amount_lots, (), h.amount_lots, (), by omega, _,
      h.upper_valid.backing, _, h.lower_valid.backing, (), by omega, _, h.lower_valid.stage, ?_,
      by omega⟩
    exact (h.upper_valid.ext_of_token h.lower_valid h.tokenId.symm).symm

/-- Redeeming what a mint issued, or minting what a redeem took, is accepted and leads back to
the state before, for the same gross. -/
theorem mint_redeem_inverse (s : CoveStateV2) (amountAtoms : Int) (r : TransitionV2Result) :
    (applyMintV2 s amountAtoms = .ok r →
      applyRedeemV2 r.nextState amountAtoms = .ok ⟨s, r.grossSats⟩) ∧
    (applyRedeemV2 s amountAtoms = .ok r →
      applyMintV2 r.nextState amountAtoms = .ok ⟨s, r.grossSats⟩) := by
  constructor
  · intro h
    exact applyRedeemV2_iff.mpr (applyMintV2_iff.mp h)
  · intro h
    exact applyMintV2_iff.mpr (applyRedeemV2_iff.mp h)

/-- A lot minted from the fresh state and redeemed again. -/
theorem mint_redeem_inverse_lot :
    applyRedeemV2 ⟨2, 3, List.replicate 32 1, 100000000000, 27, 1⟩ 100000000000 =
      .ok ⟨⟨2, 3, List.replicate 32 1, 0, 0, 1⟩, 27⟩ :=
  (mint_redeem_inverse ⟨2, 3, List.replicate 32 1, 0, 0, 1⟩ 100000000000
    ⟨⟨2, 3, List.replicate 32 1, 100000000000, 27, 1⟩, 27⟩).1 (by decide +kernel)

end Cove
