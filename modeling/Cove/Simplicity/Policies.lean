import Cove.Guardian.Laid
import Cove.Lib.Sha256

/-! The Simfony policies `packages/cove-simplicity/rust/src/mint.simf` and `redeem.simf`, beside
the witnesses `witness.ts` makes for them. -/

namespace Cove

open Checked

/-! The jets the policies call; the sums and differences wrap. -/

namespace Jet

def add64 (a b : UInt64) : Bool × UInt64 := (decide (2 ^ 64 ≤ a.toNat + b.toNat), a + b)

def subtract64 (a b : UInt64) : Bool × UInt64 := (decide (a.toNat < b.toNat), a - b)

def le64 (a b : UInt64) : Bool := decide (a ≤ b)

def lt64 (a b : UInt64) : Bool := decide (a < b)

def eq64 (a b : UInt64) : Bool := decide (a = b)

@[simp] theorem le64_iff (a b : UInt64) : le64 a b = true ↔ a.toNat ≤ b.toNat := by
  simp [le64, UInt64.le_iff_toNat_le]

@[simp] theorem lt64_iff (a b : UInt64) : lt64 a b = true ↔ a.toNat < b.toNat := by
  simp [lt64, UInt64.lt_iff_toNat_lt]

@[simp] theorem eq64_iff (a b : UInt64) : eq64 a b = true ↔ a.toNat = b.toNat := by
  simp [eq64, UInt64.toNat_inj]

/-- A wrapped sum that is no smaller than one operand did not wrap. -/
theorem add64_exact (a b c : UInt64) :
    le64 a (add64 a b).2 = true ∧ eq64 (add64 a b).2 c = true ↔
      a.toNat + b.toNat = c.toNat := by
  have ha := a.toNat_lt
  have hb := b.toNat_lt
  have hc := c.toNat_lt
  simp only [le64_iff, eq64_iff, add64, UInt64.toNat_add]
  omega

/-- Nothing is borrowed from a minuend that is no smaller. -/
theorem subtract64_exact (a b c : UInt64) :
    le64 b a = true ∧ eq64 (subtract64 a b).2 c = true ↔ c.toNat + b.toNat = a.toNat := by
  have ha := a.toNat_lt
  have hb := b.toNat_lt
  have hc := c.toNat_lt
  simp only [le64_iff, eq64_iff, subtract64, UInt64.toNat_sub]
  omega

end Jet

/-- `assert!` of Simfony: a failed one ends the program. -/
def simfonyAssert (b : Bool) : Option Unit := if b then some () else none

@[simp] theorem simfonyAssert_eq_some (b : Bool) (u : Unit) :
    simfonyAssert b = some u ↔ b = true := by
  cases b <;> simp [simfonyAssert]

/-- The witness values the mint program reads. -/
structure MintInputs where
  amount : UInt64
  prevSupply : UInt64
  nextSupply : UInt64
  prevReserve : UInt64
  nextReserve : UInt64
  contribution : UInt64
  deriving DecidableEq, Repr

/-- `main` of `mint.simf`. -/
def mintMain (w : MintInputs) : Option Unit := do
  let (_carry, sumSupply) := Jet.add64 w.prevSupply w.amount
  simfonyAssert (Jet.le64 w.prevSupply sumSupply)
  simfonyAssert (Jet.eq64 sumSupply w.nextSupply)
  simfonyAssert (Jet.le64 w.nextSupply 21000000)
  simfonyAssert (Jet.lt64 0 w.amount)
  let (_carry2, sumReserve) := Jet.add64 w.prevReserve w.contribution
  simfonyAssert (Jet.le64 w.prevReserve sumReserve)
  simfonyAssert (Jet.eq64 sumReserve w.nextReserve)

/-- The witness values the redeem program reads. -/
structure RedeemInputs where
  amount : UInt64
  oldSupply : UInt64
  newSupply : UInt64
  oldBacking : UInt64
  newBacking : UInt64
  payout : UInt64
  deriving DecidableEq, Repr

/-- `main` of `redeem.simf`. -/
def redeemMain (w : RedeemInputs) : Option Unit := do
  simfonyAssert (Jet.lt64 0 w.amount)
  simfonyAssert (Jet.le64 w.amount w.oldSupply)
  let (_borrow, diff) := Jet.subtract64 w.oldSupply w.amount
  simfonyAssert (Jet.eq64 diff w.newSupply)
  simfonyAssert (Jet.le64 w.payout w.oldBacking)
  let (_borrow2, diff2) := Jet.subtract64 w.oldBacking w.payout
  simfonyAssert (Jet.eq64 diff2 w.newBacking)

/-- The mint program accepts exactly the moves that add up over the integers, within the cap. -/
theorem mintMain_iff (w : MintInputs) :
    mintMain w = some () ↔
      0 < w.amount.toNat ∧ w.prevSupply.toNat + w.amount.toNat = w.nextSupply.toNat ∧
        w.nextSupply.toNat ≤ 21000000 ∧
        w.prevReserve.toNat + w.contribution.toNat = w.nextReserve.toNat := by
  have hsupply := Jet.add64_exact w.prevSupply w.amount w.nextSupply
  have hreserve := Jet.add64_exact w.prevReserve w.contribution w.nextReserve
  have hcap : (21000000 : UInt64).toNat = 21000000 := by decide
  simp only [mintMain, Option.bind_eq_bind, Option.bind_eq_some_iff, simfonyAssert_eq_some,
    exists_const, ← hsupply, ← hreserve, Jet.lt64_iff, Jet.le64_iff, hcap, UInt64.toNat_zero]
  tauto

/-- The redeem program accepts exactly the moves that add up over the integers. -/
theorem redeemMain_iff (w : RedeemInputs) :
    redeemMain w = some () ↔
      0 < w.amount.toNat ∧ w.newSupply.toNat + w.amount.toNat = w.oldSupply.toNat ∧
        w.newBacking.toNat + w.payout.toNat = w.oldBacking.toNat := by
  have hsupply := Jet.subtract64_exact w.oldSupply w.amount w.newSupply
  have hbacking := Jet.subtract64_exact w.oldBacking w.payout w.newBacking
  simp only [redeemMain, Option.bind_eq_bind, Option.bind_eq_some_iff, simfonyAssert_eq_some,
    exists_const, ← hsupply, ← hbacking, Jet.lt64_iff, UInt64.toNat_zero]
  tauto

/-- The bigints that the words stand for. -/
def MintInputs.witness (w : MintInputs) : MintWitness where
  amount := w.amount.toNat
  prevSupply := w.prevSupply.toNat
  nextSupply := w.nextSupply.toNat
  prevReserve := w.prevReserve.toNat
  nextReserve := w.nextReserve.toNat
  contribution := w.contribution.toNat

def RedeemInputs.witness (w : RedeemInputs) : RedeemWitness where
  amount := w.amount.toNat
  oldSupply := w.oldSupply.toNat
  newSupply := w.newSupply.toNat
  oldBacking := w.oldBacking.toNat
  newBacking := w.newBacking.toNat
  payout := w.payout.toNat

/-- A bigint as a 64-bit word. -/
def word64 (v : Int) : UInt64 := UInt64.ofNat v.toNat

theorem toNat_word64 {v : Int} (h : 0 ≤ v) (hlt : v ≤ u64Max) : ((word64 v).toNat : Int) = v := by
  have hmax : u64Max = 2 ^ 64 - 1 := by decide
  rw [word64, UInt64.toNat_ofNat', Nat.mod_eq_of_lt (by omega)]
  omega

/-! The canonical transitions in display tokens. -/

/-- A step of the covenant in the units of the policies. -/
structure TokenStep (lower upper : CoveStateV2) (amountAtoms grossSats : Int) : Prop where
  lower_nonneg : 0 ≤ lower.issuedPublicSupplyAtoms / atomsPerToken
  amount_pos : 0 < amountAtoms / atomsPerToken
  supply : lower.issuedPublicSupplyAtoms / atomsPerToken + amountAtoms / atomsPerToken =
    upper.issuedPublicSupplyAtoms / atomsPerToken
  supply_le : upper.issuedPublicSupplyAtoms / atomsPerToken ≤ 21000000
  backing_nonneg : 0 ≤ lower.backingSats
  gross_pos : 1 ≤ grossSats
  backing : lower.backingSats + grossSats = upper.backingSats
  backing_le : upper.backingSats ≤ 6 * 21000000

theorem CovenantStep.tokens {lower upper : CoveStateV2} {amountAtoms grossSats : Int}
    (h : CovenantStep lower upper amountAtoms grossSats) :
    TokenStep lower upper amountAtoms grossSats := by
  have hamount := whole_tokens_of_lots _ h.amount_lots
  have hlower := whole_tokens_of_lots _ h.lower_valid.supply_lots
  have hnonneg := h.lower_valid.supply_nonneg
  have hle := h.upper_valid.supply_le
  have hpos := h.amount_pos
  have hsupply := h.supply
  obtain ⟨hlow, -⟩ := requiredBackingSats_bounds h.lower_valid.backing
  obtain ⟨-, hhigh⟩ := requiredBackingSats_bounds h.upper_valid.backing
  rw [atomsPerToken_eq] at hamount hlower
  rw [publicSupplyAtoms_eq] at hle
  refine ⟨?_, ?_, ?_, ?_, hlow, h.gross_pos, h.backing.symm, ?_⟩
  · rw [atomsPerToken_eq]
    omega
  · rw [atomsPerToken_eq]
    omega
  · rw [atomsPerToken_eq]
    omega
  · rw [atomsPerToken_eq]
    omega
  · rw [publicSupplyTokens] at hhigh
    omega

/-- The words of an accepted mint, as the policies read them. -/
theorem mint_words (C : Crypto) {s : CoveStateV2} {amountAtoms : Int} {r : TransitionV2Result}
    (h : applyMintV2 s amountAtoms = .ok r) :
    ∃ w, buildMintSimplicityWitness C ⟨s, r.nextState, amountAtoms, r.grossSats⟩ =
        .ok (MintInputs.witness w) ∧ mintMain w = some () := by
  have hstep := (applyMintV2_iff.mp h).tokens
  obtain ⟨hnonneg, hamount, hsupply, hcap, hbacking, hgross, hreserve, hlimit⟩ := hstep
  have hmax : u64Max = 2 ^ 64 - 1 := by decide
  have ha := toNat_word64 (v := amountAtoms / atomsPerToken) (by omega) (by omega)
  have hp := toNat_word64 (v := s.issuedPublicSupplyAtoms / atomsPerToken) (by omega) (by omega)
  have hn := toNat_word64 (v := r.nextState.issuedPublicSupplyAtoms / atomsPerToken) (by omega)
    (by omega)
  have hr := toNat_word64 (v := s.backingSats) (by omega) (by omega)
  have hx := toNat_word64 (v := r.nextState.backingSats) (by omega) (by omega)
  have hc := toNat_word64 (v := r.grossSats) (by omega) (by omega)
  refine ⟨⟨word64 (amountAtoms / atomsPerToken),
    word64 (s.issuedPublicSupplyAtoms / atomsPerToken),
    word64 (r.nextState.issuedPublicSupplyAtoms / atomsPerToken), word64 s.backingSats,
    word64 r.nextState.backingSats, word64 r.grossSats⟩, ?_, ?_⟩
  · rw [buildMintSimplicityWitness_ok C h, MintInputs.witness, ha, hp, hn, hr, hx, hc]
  · rw [mintMain_iff]
    dsimp only
    omega

/-- The words of an accepted redeem, as the policies read them. -/
theorem redeem_words (C : Crypto) {s : CoveStateV2} {amountAtoms : Int} {r : TransitionV2Result}
    (h : applyRedeemV2 s amountAtoms = .ok r) :
    ∃ w, buildRedeemSimplicityWitness C ⟨s, r.nextState, amountAtoms, r.grossSats⟩ =
        .ok (RedeemInputs.witness w) ∧ redeemMain w = some () := by
  have hstep := (applyRedeemV2_iff.mp h).tokens
  obtain ⟨hnonneg, hamount, hsupply, hcap, hbacking, hgross, hreserve, hlimit⟩ := hstep
  have hmax : u64Max = 2 ^ 64 - 1 := by decide
  have ha := toNat_word64 (v := amountAtoms / atomsPerToken) (by omega) (by omega)
  have ho := toNat_word64 (v := s.issuedPublicSupplyAtoms / atomsPerToken) (by omega) (by omega)
  have hn := toNat_word64 (v := r.nextState.issuedPublicSupplyAtoms / atomsPerToken) (by omega)
    (by omega)
  have hb := toNat_word64 (v := s.backingSats) (by omega) (by omega)
  have hx := toNat_word64 (v := r.nextState.backingSats) (by omega) (by omega)
  have hp := toNat_word64 (v := r.grossSats) (by omega) (by omega)
  refine ⟨⟨word64 (amountAtoms / atomsPerToken),
    word64 (s.issuedPublicSupplyAtoms / atomsPerToken),
    word64 (r.nextState.issuedPublicSupplyAtoms / atomsPerToken), word64 s.backingSats,
    word64 r.nextState.backingSats, word64 r.grossSats⟩, ?_, ?_⟩
  · rw [buildRedeemSimplicityWitness_ok C h, RedeemInputs.witness, ha, ho, hn, hb, hx, hp]
  · rw [redeemMain_iff]
    dsimp only
    omega

/-- The policies accept the witness of every canonical transition, and no words but those that
add up over the integers. -/
theorem simplicity_policies_match (C : Crypto) :
    (∀ (s : CoveStateV2) (amountAtoms : Int) (r : TransitionV2Result),
      applyMintV2 s amountAtoms = .ok r →
        ∃ w, buildMintSimplicityWitness C ⟨s, r.nextState, amountAtoms, r.grossSats⟩ =
          .ok (MintInputs.witness w) ∧ mintMain w = some ()) ∧
    (∀ (s : CoveStateV2) (amountAtoms : Int) (r : TransitionV2Result),
      applyRedeemV2 s amountAtoms = .ok r →
        ∃ w, buildRedeemSimplicityWitness C ⟨s, r.nextState, amountAtoms, r.grossSats⟩ =
          .ok (RedeemInputs.witness w) ∧ redeemMain w = some ()) ∧
    (∀ w : MintInputs, mintMain w = some () ↔
      0 < w.amount.toNat ∧ w.prevSupply.toNat + w.amount.toNat = w.nextSupply.toNat ∧
        w.nextSupply.toNat ≤ 21000000 ∧
        w.prevReserve.toNat + w.contribution.toNat = w.nextReserve.toNat) ∧
    ∀ w : RedeemInputs, redeemMain w = some () ↔
      0 < w.amount.toNat ∧ w.newSupply.toNat + w.amount.toNat = w.oldSupply.toNat ∧
        w.newBacking.toNat + w.payout.toNat = w.oldBacking.toNat := by
  refine ⟨?_, ?_, mintMain_iff, redeemMain_iff⟩
  · intro s amountAtoms r h
    exact mint_words C h
  · intro s amountAtoms r h
    exact redeem_words C h

/-- A lot minted from the fresh state. -/
theorem simplicity_policies_match_lot :
    ∃ w, buildMintSimplicityWitness ⟨Sha256.sha256, fun _ => false, fun _ _ => none⟩
        ⟨⟨2, 3, List.replicate 32 1, 0, 0, 1⟩,
          ⟨2, 3, List.replicate 32 1, 100000000000, 27, 1⟩, 100000000000, 27⟩ =
        .ok (MintInputs.witness w) ∧ mintMain w = some () :=
  (simplicity_policies_match ⟨Sha256.sha256, fun _ => false, fun _ _ => none⟩).1
    ⟨2, 3, List.replicate 32 1, 0, 0, 1⟩ 100000000000
    ⟨⟨2, 3, List.replicate 32 1, 100000000000, 27, 1⟩, 27⟩ (by decide +kernel)

end Cove
