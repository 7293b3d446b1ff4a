import Cove.Covenant.Transition
import Cove.Economics.Lots

/-! Transitions move whole lots, and whole lots always move the reserve: the guard against a zero
delta never fires. -/

namespace Cove

open Checked

def NotDust (e : Fault) : Prop := e.code ≠ some "ECONOMIC_DUST"

instance (e : Fault) : Decidable (NotDust e) := inferInstanceAs (Decidable (¬_))

theorem costToBuyLoop_notDust {supply amount : Int} (fuel : Nat) (remaining s cost : Int) :
    FailsWith NotDust (costToBuyLoop supply amount fuel remaining s cost) := by
  induction fuel generalizing remaining s cost with
  | zero => exact .ok cost
  | succ fuel ih =>
    rw [costToBuyLoop]
    dsimp only
    split_ifs with hdone hshort hempty
    · exact .ok cost
    · exact ih _ _ _
    · apply FailsWith.error
      simp [NotDust]
    · exact ih _ _ _

theorem requiredBackingSats_notDust (supply : Int) :
    FailsWith NotDust (requiredBackingSats supply) := by
  apply FailsWith.bind
  · exact .bind (.ensure (by decide)) fun _ => .ensure (by decide)
  · intro _
    exact costToBuyLoop_notDust _ _ _ _

theorem impliedStageV2_notDust (supplyAtoms : Int) :
    FailsWith NotDust (impliedStageV2 supplyAtoms) := by
  unfold impliedStageV2 getStageForSupply
  split_ifs
  · exact .error (by decide)
  · exact .ok _
  · exact .ok _

theorem covenantFault_notDust {code : String} (message : String) (h : code ≠ "ECONOMIC_DUST") :
    NotDust (covenantFault code message) := by
  simpa [NotDust, covenantFault] using h

theorem validateStateV2_notDust (state : CoveStateV2) :
    FailsWith NotDust (validateStateV2 state) := by
  have hensure : ∀ (c : Prop) [Decidable c] (code message : String), code ≠ "ECONOMIC_DUST" →
      FailsWith NotDust (ensure c (covenantFault code message)) :=
    fun _ _ _ message h => .ensure (covenantFault_notDust message h)
  refine .bind (hensure _ _ _ (by decide)) fun _ => .bind (hensure _ _ _ (by decide)) fun _ =>
    .bind (hensure _ _ _ (by decide)) fun _ => .bind (hensure _ _ _ (by decide)) fun _ =>
    .bind (hensure _ _ _ (by decide)) fun _ => .bind (hensure _ _ _ (by decide)) fun _ =>
    .bind (impliedStageV2_notDust _) fun _ => .bind (hensure _ _ _ (by decide)) fun _ =>
    .bind (requiredBackingSats_notDust _) fun _ => hensure _ _ _ (by decide)

/-- Whole display tokens of whole lots of atoms. -/
theorem lots_of_atoms {a : Int} (h0 : 0 ≤ a) (hlots : a % lotAtoms = 0) :
    LotAligned (a / atomsPerToken) := by
  rw [lotAtoms_eq] at hlots
  rw [atomsPerToken_eq]
  unfold LotAligned lotTokens
  omega

/-- The reserve rises by a sat at least from fewer lots of atoms to more. -/
theorem gross_of_lots {lower upper r₁ r₂ : Int} (h0 : 0 ≤ lower) (hlt : lower < upper)
    (hlower : lower % lotAtoms = 0) (hupper : upper % lotAtoms = 0)
    (h₁ : requiredBackingSats (lower / atomsPerToken) = .ok r₁)
    (h₂ : requiredBackingSats (upper / atomsPerToken) = .ok r₂) : 1 ≤ r₂ - r₁ := by
  have hs := lots_of_atoms h0 hlower
  have ht := lots_of_atoms (by omega : 0 ≤ upper) hupper
  have hmove : LotAligned (upper / atomsPerToken - lower / atomsPerToken) := by
    rw [lotAtoms_eq] at hlower hupper
    rw [atomsPerToken_eq]
    unfold LotAligned lotTokens
    omega
  have hpos : 0 < upper / atomsPerToken - lower / atomsPerToken := by
    rw [lotAtoms_eq] at hlower hupper
    rw [atomsPerToken_eq]
    omega
  have hcap : upper / atomsPerToken ≤ publicSupplyTokens := by
    simp only [requiredBackingSats, assertSupplyInRange, bind_eq_ok, ensure_eq_ok] at h₂
    obtain ⟨_, ⟨_, -, hcap⟩, -⟩ := h₂
    exact hcap
  have heq : lower / atomsPerToken + (upper / atomsPerToken - lower / atomsPerToken) =
      upper / atomsPerToken := by omega
  rw [← heq] at h₂ hcap
  rw [requiredBackingSats_sub hs hmove.1 hcap h₁ h₂]
  exact stairCharge_lots_pos hs hmove hpos hcap

theorem applyMintV2_notDust (prev : CoveStateV2) (amountAtoms : Int) :
    FailsWith NotDust (applyMintV2 prev amountAtoms) := by
  refine .bind_of_ok (validateStateV2_notDust prev) ?_
  intro _ hvalid
  refine .bind_of_ok (.ensure (by decide)) ?_
  intro _ hpos
  refine .bind (.ensure (by decide)) fun _ => .bind_of_ok (.ensure ?_) ?_
  · exact covenantFault_notDust _ (by decide)
  intro _ hlots
  refine .bind (.ensure (by decide)) fun _ => .bind_of_ok (requiredBackingSats_notDust _) ?_
  intro next hnext
  refine .bind_of_ok (requiredBackingSats_notDust _) ?_
  intro before hbefore
  have hprev := (validateStateV2_eq_ok prev).mp hvalid
  rw [ensure_eq_ok] at hpos hlots
  have hgross : 1 ≤ next - before := by
    refine gross_of_lots hprev.supply_nonneg (by omega) hprev.supply_lots ?_ hbefore hnext
    rw [Int.add_emod, hprev.supply_lots, hlots]
    rfl
  have hensure : ensure (1 ≤ next - before) (covenantFault "ECONOMIC_DUST" "zero R-delta") =
      .ok () := (ensure_eq_ok _ _ _).mpr hgross
  dsimp only
  rw [hensure]
  exact .bind (.ok ()) fun _ => .bind (impliedStageV2_notDust _) fun _ => .pure _

theorem applyRedeemV2_notDust (prev : CoveStateV2) (amountAtoms : Int) :
    FailsWith NotDust (applyRedeemV2 prev amountAtoms) := by
  refine .bind_of_ok (validateStateV2_notDust prev) ?_
  intro _ hvalid
  refine .bind_of_ok (.ensure (by decide)) ?_
  intro _ hpos
  refine .bind (.ensure (by decide)) fun _ => .bind_of_ok (.ensure ?_) ?_
  · exact covenantFault_notDust _ (by decide)
  intro _ hlots
  refine .bind_of_ok (.ensure (by decide)) ?_
  intro _ hle
  refine .bind_of_ok (requiredBackingSats_notDust _) ?_
  intro before hbefore
  refine .bind_of_ok (requiredBackingSats_notDust _) ?_
  intro next hnext
  have hprev := (validateStateV2_eq_ok prev).mp hvalid
  rw [ensure_eq_ok] at hpos hlots hle
  have hgross : 1 ≤ before - next := by
    refine gross_of_lots (by omega) (by omega) ?_ hprev.supply_lots hnext hbefore
    rw [Int.sub_emod, hprev.supply_lots, hlots]
    rfl
  have hensure : ensure (1 ≤ before - next) (covenantFault "ECONOMIC_DUST" "zero R-delta") =
      .ok () := (ensure_eq_ok _ _ _).mpr hgross
  dsimp only
  rw [hensure]
  exact .bind (.ok ()) fun _ => .bind (impliedStageV2_notDust _) fun _ => .pure _

/-- On whole lots the reserve is the unrounded integral of the staircase, rises with every lot and
rises no slower further up; so lots are never too little to move it, and the guard against that
refuses no transition. -/
theorem reserve_of_whole_lots :
    (∀ s, LotAligned s → s ≤ publicSupplyTokens →
      ∃ r : Int, requiredBackingSats s = .ok r ∧ (r : ℚ) = staircaseIntegral s) ∧
    (∀ s t r₁ r₂, LotAligned s → LotAligned t → s < t → requiredBackingSats s = .ok r₁ →
      requiredBackingSats t = .ok r₂ → r₁ < r₂) ∧
    (∀ s t q r₁ r₂ r₃ r₄, LotAligned s → LotAligned t → LotAligned q → s ≤ t →
      requiredBackingSats s = .ok r₁ → requiredBackingSats (s + q) = .ok r₂ →
      requiredBackingSats t = .ok r₃ → requiredBackingSats (t + q) = .ok r₄ →
      r₂ - r₁ ≤ r₄ - r₃) ∧
    (∀ s q, LotAligned s → LotAligned q → 0 < q → s + q ≤ publicSupplyTokens →
      (∃ gross, 1 ≤ gross ∧ grossBuy s q = .ok gross) ∧
      ∃ gross, 1 ≤ gross ∧ grossRedeem (s + q) q = .ok gross) ∧
    (∀ prev amountAtoms e, applyMintV2 prev amountAtoms = .error e ∨
      applyRedeemV2 prev amountAtoms = .error e → e.code ≠ some "ECONOMIC_DUST") := by
  have hrange : ∀ s r, requiredBackingSats s = .ok r → s ≤ publicSupplyTokens := by
    intro s r h
    simp only [requiredBackingSats, assertSupplyInRange, bind_eq_ok, ensure_eq_ok] at h
    obtain ⟨_, ⟨_, -, hcap⟩, -⟩ := h
    exact hcap
  refine ⟨fun s hs hcap => requiredBackingSats_lots hs hcap, ?_, ?_, ?_, ?_⟩
  · intro s t r₁ r₂ hs ht hlt h₁ h₂
    have hmove : LotAligned (t - s) := by
      unfold LotAligned lotTokens at *
      omega
    have heq : s + (t - s) = t := by omega
    have hcap := hrange t r₂ h₂
    have hone := stairCharge_lots_pos hs hmove (by omega) (by omega)
    have hsub := requiredBackingSats_sub hs hmove.1 (by omega) h₁ (by rw [heq]; exact h₂)
    omega
  · intro s t q r₁ r₂ r₃ r₄ hs ht hq hst h₁ h₂ h₃ h₄
    have hcap := hrange _ r₄ h₄
    rw [requiredBackingSats_sub hs hq.1 (by omega) h₁ h₂,
      requiredBackingSats_sub ht hq.1 hcap h₃ h₄]
    exact stairCharge_lots_mono hs ht hq hst hcap
  · intro s q hs hq hpos hcap
    have hq0 := hs.1
    exact ⟨grossBuy_lots hs hq hpos hcap,
      grossRedeem_lots (hs.add hq) hq hpos (by omega) hcap⟩
  · intro prev amountAtoms e h
    rcases h with h | h
    · exact applyMintV2_notDust prev amountAtoms e h
    · exact applyRedeemV2_notDust prev amountAtoms e h

/-- A lot bought at the foot of the second stair. -/
theorem reserve_of_whole_lots_second_stair :
    (∃ gross, 1 ≤ gross ∧ grossBuy 100000 1000 = .ok gross) ∧
      ∃ gross, 1 ≤ gross ∧ grossRedeem (100000 + 1000) 1000 = .ok gross :=
  reserve_of_whole_lots.2.2.2.1 100000 1000 (by decide) (by decide) (by decide) (by decide)

end Cove
