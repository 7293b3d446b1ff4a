import Cove.Guardian.Accept
import Cove.Guardian.DiscoveryBuilt

/-! The layout of the built mints and redeems, and what each check of the validators asks of it. -/

namespace Cove

open Checked

/-! The envelope of a built PSBT. -/

theorem opReturnEnvelope_script {payload : Bytes} {e : ParsedEnvelopeV2}
    (h : decodeV2 payload = .ok e) : opReturnEnvelope (opReturnScript payload) = .ok e := by
  have hle := (length_of_decodeV2 h).2
  have hlen := length_opReturnScript payload
  have hpush := @opReturnScript_push payload (by omega)
  simp only [opReturnEnvelope, bind_eq_ok, ensure_eq_ok]
  refine ⟨(), ⟨?_, rfl⟩, (), ?_, h⟩
  · omega
  · rw [hlen, hpush]

theorem decodeCoveOpReturn_paid {psbt : Psbt} {payments : List Payment} {changeScript payload : Bytes}
    {e : ParsedEnvelopeV2} (hpaid : PaidOut payments changeScript psbt.txOutputs)
    (hfirst : payments[0]? = some ⟨opReturnScript payload, 0⟩) (h : decodeV2 payload = .ok e) :
    decodeCoveOpReturn psbt = .ok e := by
  obtain ⟨o, hget, ho⟩ := hpaid.get hfirst
  simp only [decodeCoveOpReturn, bind_eq_ok, demand_eq_ok]
  exact ⟨o, hget, ho.script ▸ opReturnEnvelope_script h⟩

/-! What the last output is taken for. -/

/-- The last output carries a `crc-20` object. -/
def EndsInDiscovery (outs : List TxOut) : Prop :=
  ∃ last ∈ outs.getLast?, ∃ payload ∈ opReturnPayload last.script,
    (decodeDiscovery payload).isSome = true

/-- An output of value is present or absent as its script says, and never agrees. -/
theorem checkDiscoveryOutput_valued {outs : List TxOut} (binary : ParsedEnvelopeV2)
    (ticker : Option Bytes) (hlen : 2 ≤ outs.length) (hlast : ∀ o ∈ outs.getLast?, o.value ≠ 0) :
    ((checkDiscoveryOutput outs binary ticker).present = false ∨
        (checkDiscoveryOutput outs binary ticker).agrees = true) ↔ ¬ EndsInDiscovery outs := by
  have hnot : ¬ outs.length < 2 := Nat.not_lt.mpr hlen
  unfold checkDiscoveryOutput EndsInDiscovery
  cases hget : outs.getLast? with
  | none => simp
  | some last =>
    have hvalue := hlast last hget
    cases hpayload : opReturnPayload last.script with
    | none => simp [hnot, hpayload]
    | some payload =>
      cases hdecode : decodeDiscovery payload with
      | none => simp [hnot, hpayload, hdecode]
      | some env => simp [hnot, hpayload, hdecode, hvalue]

section Checks

variable {C : Crypto} {X : SimplicityExecutor} {v : ValidateParams}

/-- With no more outputs than allowed, only a last output that reads as a payload is refused. -/
theorem checkOutputCount_valued {outs : List TxOut} {binary : ParsedEnvelopeV2} {maxOutputs : Nat}
    {u : Unit} (hwire : decodeCoveOpReturn v.psbt = .ok binary) (hlen : 2 ≤ outs.length)
    (hcount : outs.length ≤ maxOutputs) (hlast : ∀ o ∈ outs.getLast?, o.value ≠ 0) :
    checkOutputCount v outs maxOutputs = .ok u ↔ ¬ EndsInDiscovery outs := by
  rw [← checkDiscoveryOutput_valued binary v.discoveryTicker hlen hlast]
  simp only [checkOutputCount, bind_eq_ok, ensure_eq_ok, thrown_eq_ok, hwire, Except.ok.injEq,
    exists_eq_left']
  constructor
  · intro h
    obtain ⟨_, hagrees, _⟩ := h
    exact hagrees
  · intro hagrees
    exact ⟨(), hagrees, by omega⟩

/-- The vault's input as a builder makes it lacks the value alone. -/
theorem checkVaultInput_vault {psbt : Psbt} {prevBacking : ResolvedInput} {vault : CoveVaultV3}
    {leaf : CoveVaultLeaf} {controlBlock : Bytes} {opName : String} {s : CoveStateV2}
    {input0 : PsbtInput} {u : Unit} (hinput : psbt.inputs[0]? = some input0)
    (h : vaultInput prevBacking vault leaf controlBlock = .ok input0) :
    checkVaultInput psbt vault opName leaf.script controlBlock s = .ok u ↔
      prevBacking.valueSats = reserveAnchorSats + s.backingSats := by
  obtain ⟨hfor, hkey, hroot, hleaf⟩ := vaultInput_ok h
  obtain ⟨value, hprevout, hvalue⟩ := hfor.prevout
  simp only [checkVaultInput, bind_eq_ok, demand_eq_ok, ensure_eq_ok, hinput, Option.some.injEq,
    exists_eq_left', hkey, hroot, hleaf, List.getElem?_cons_zero, hprevout, hvalue, true_and,
    exists_const]

theorem checkSuccessor_paid {outs : List TxOut} {nextVault : CoveVaultV3} {s : CoveStateV2}
    {o : TxOut} (hget : outs[1]? = some o)
    (ho : OutputFor ⟨nextVault.scriptPubKey, reserveAnchorSats + s.backingSats⟩ o) :
    checkSuccessor outs nextVault s = .ok () := by
  simp only [checkSuccessor, bind_eq_ok, demand_eq_ok, ensure_eq_ok]
  exact ⟨o, hget, (), ho.script, ho.value⟩

theorem PaysTo.of_outputFor {outs : List TxOut} {vout : Nat} {script : Bytes} {value : Int}
    {o : TxOut} (hget : outs[vout]? = some o) (ho : OutputFor ⟨script, value⟩ o) :
    PaysTo outs vout value script :=
  ⟨o, hget, ho.value, ho.script⟩

end Checks

/-! What the fees and the layout of a built PSBT are. -/

/-- The outputs of settled change: one more than the payments at most, and the last is of value
when the last payment is. -/
theorem settled_outputs {payments : List Payment} {outs : List TxOut} {changeScript : Bytes}
    {changeSats minerFeeSats : Int} {s : SettledChange} (houts : addOutputs [] payments = .ok outs)
    (hnonneg : 0 ≤ changeSats)
    (h : addChangeOrAbsorb outs changeScript changeSats minerFeeSats = .ok s) :
    payments.length ≤ s.txOutputs.length ∧ s.txOutputs.length ≤ payments.length + 1 ∧
      ((∀ p ∈ payments.getLast?, 0 < p.valueSats) → ∀ o ∈ s.txOutputs.getLast?, o.value ≠ 0) := by
  obtain ⟨paid, hout, hpaid⟩ := addOutputs_ok houts
  rw [List.nil_append] at hout
  subst hout
  have hlen := hpaid.length_eq
  rcases addChangeOrAbsorb_cases h hnonneg with ⟨hworth, -, o, hs, ho⟩ | ⟨-, -, hs⟩
  · refine ⟨by simp [hs, hlen], by simp [hs, hlen], ?_⟩
    intro _ last hlast
    rw [hs, List.getLast?_append, List.getLast?_singleton, Option.some_or] at hlast
    obtain rfl := Option.some.inj hlast
    have hvalue : (o.value : Int) = changeSats := ho.value
    have hpos := hworth.1
    omega
  · refine ⟨by simp [hs, hlen], by simp [hs, hlen], ?_⟩
    intro hpos last hlast
    rw [hs, List.getLast?_eq_getElem?, ← hlen] at hlast
    obtain ⟨hk, hget⟩ := List.getElem?_eq_some_iff.mp hlast
    have hk' : payments.length - 1 < payments.length := by omega
    have hfor := (List.forall₂_iff_get.mp hpaid).2 (payments.length - 1) hk' hk
    have hmem : payments[payments.length - 1] ∈ payments.getLast? := by
      rw [List.getLast?_eq_getElem?, List.getElem?_eq_getElem hk']
      rfl
    have hvalue : (last.value : Int) = payments[payments.length - 1].valueSats := by
      rw [← hget]
      exact hfor.value
    have hpaidPos := hpos _ hmem
    omega

/-- The fees and the layout of a built mint. -/
structure MintLaid (params : MintParams) (r : MintResult) : Prop where
  buyFee : mintFeeSats r.grossSats params.mintAmountAtoms
    (params.buyFeeBps.getD coveFeeConfig.buyFeeBps)
    (params.buyFeeFlatSats.getD coveFeeConfig.buyFeeFlatSats) coveFeeConfig.buyFeeLotSats =
      .ok r.buyFeeSats
  creatorFee : creatorFeeSats r.grossSats
    (params.creatorFeeBps.getD coveFeeConfig.creatorFeeBps) = .ok r.creatorFeeSats
  vault : ∃ input0 rest, r.psbt.inputs = input0 :: rest ∧
    vaultInput params.prevBacking r.prevVault r.prevVault.mintLeaf r.prevVault.mintControlBlock =
      .ok input0 ∧ List.Forall₂ InputFor params.buyerInputs rest
  outputs_ge : 5 ≤ r.psbt.txOutputs.length
  outputs_le : r.psbt.txOutputs.length ≤ 6 + params.discoveryEnvelope.toList.length
  last : params.discoveryEnvelope = none → ∀ o ∈ r.psbt.txOutputs.getLast?, o.value ≠ 0

theorem buildMintPsbtV3_laid {C : Crypto} {scriptForKind : ScriptForKind} {params : MintParams}
    {r : MintResult} (h : buildMintPsbtV3 C scriptForKind params = .ok r) : MintLaid params r := by
  have hgross := (applyMintV2_iff.mp (buildMintPsbtV3_ok h).canonical).gross_pos
  simp only [buildMintPsbtV3, bind_eq_ok, ensure_eq_ok, pure_eq_ok] at h
  obtain ⟨canonical, -, prevVault, -, nextVault, -, buyFee, hbuyFee, wire, -, input0, hinput0,
    first, hfirst, inputs, hinputs, creatorFee, hcreatorFee, outs, houts, _, hchange, settled,
    hsettled, out, hout, rfl⟩ := h
  obtain ⟨hge, hle, hlast⟩ := settled_outputs houts hchange hsettled
  obtain ⟨rest, rfl, hrest, -⟩ := addDiscovery_ok hout
  dsimp only at hgross
  constructor
  case buyFee => exact hbuyFee
  case creatorFee => exact hcreatorFee
  case vault =>
    obtain ⟨added, hadded, hfor⟩ := addInputs_behind hfirst hinputs
    exact ⟨input0, added, hadded, hinput0, hfor⟩
  case outputs_ge =>
    rw [List.length_append]
    exact Nat.le_add_right_of_le hge
  case outputs_le =>
    rw [List.length_append, hrest]
    exact Nat.add_le_add_right hle _
  case last =>
    intro hnone
    rw [hnone] at hrest
    rw [List.length_eq_zero_iff.mp hrest, List.append_nil]
    apply hlast
    intro p hp
    have hmin := deterministicFee_ge_min hcreatorFee (by omega)
    obtain rfl := Option.some.inj hp
    unfold creatorMinSats at hmin
    show 0 < creatorFee
    omega

def RedeemParams.coins (params : RedeemParams) : List ResolvedInput :=
  params.tokenInputs ++ params.funderInputs

/-- The fees and the layout of a built redeem. -/
structure RedeemLaid (params : RedeemParams) (r : RedeemResult) : Prop where
  changeAtoms_nonneg : 0 ≤ r.changeAtoms
  redeemFee : redeemFeeSats r.grossSats (params.redeemFeeBps.getD coveFeeConfig.redeemFeeBps)
    (params.redeemFeeFlatSats.getD coveFeeConfig.redeemFeeFlatSats)
    coveFeeConfig.redeemFeeMinSats = .ok r.redeemFeeSats
  vault : ∃ input0 rest, r.psbt.inputs = input0 :: rest ∧
    vaultInput params.prevBacking r.prevVault r.prevVault.redeemLeaf
      r.prevVault.redeemControlBlock = .ok input0 ∧ List.Forall₂ InputFor params.coins rest
  outputs_ge : 4 ≤ r.psbt.txOutputs.length
  outputs_le : r.psbt.txOutputs.length ≤ if 0 < r.changeAtoms then 6 else 5
  last : ∀ o ∈ r.psbt.txOutputs.getLast?, o.value ≠ 0

theorem buildRedeemPsbtV3_laid {C : Crypto} {scriptForKind : ScriptForKind} {params : RedeemParams}
    {r : RedeemResult} (h : buildRedeemPsbtV3 C scriptForKind params = .ok r) : RedeemLaid params r := by
  have hgross := (applyRedeemV2_iff.mp (buildRedeemPsbtV3_ok h).canonical).gross_pos
  simp only [buildRedeemPsbtV3, bind_eq_ok, ensure_eq_ok, pure_eq_ok] at h
  obtain ⟨canonical, -, prevVault, -, nextVault, -, redeemFee, hredeemFee, _, hatoms, wire, -, input0,
    hinput0, first, hfirst, inputs, hinputs, outs, houts, _, hchange, settled, hsettled, rfl⟩ := h
  obtain ⟨hge, hle, hlast⟩ := settled_outputs houts hchange hsettled
  dsimp only at hgross
  have hmin := deterministicFee_ge_min hredeemFee (by omega)
  have hfeePos : 0 < redeemFee := by
    have hthousand : coveFeeConfig.redeemFeeMinSats = 1000 := rfl
    omega
  constructor
  case changeAtoms_nonneg => exact hatoms
  case redeemFee => exact hredeemFee
  case vault =>
    obtain ⟨added, hadded, hfor⟩ := addInputs_behind hfirst hinputs
    exact ⟨input0, added, hadded, hinput0, hfor⟩
  case outputs_ge =>
    rw [List.length_append] at hge
    exact le_trans (Nat.le_add_right _ _) hge
  case outputs_le =>
    by_cases hpos : 0 < params.tokenInputTotalAtoms - params.redeemAmountAtoms
    · simp only [if_pos hpos] at hle ⊢
      exact hle
    · simp only [if_neg hpos] at hle ⊢
      exact hle
  case last =>
    apply hlast
    intro p hp
    split at hp
    · obtain rfl := Option.some.inj hp
      show 0 < tokenCarrierSats
      decide
    · obtain rfl := Option.some.inj hp
      exact hfeePos

/-! The Simplicity witness of an accepted transition. -/

theorem atomsToDisplayTokensExact_ok {atoms : Int} (hnonneg : 0 ≤ atoms)
    (hlots : atoms % lotAtoms = 0) :
    atomsToDisplayTokensExact atoms = .ok (atoms / atomsPerToken) := by
  simp only [atomsToDisplayTokensExact, bind_eq_ok, ensure_eq_ok]
  exact ⟨(), hnonneg, (), whole_tokens_of_lots _ hlots, rfl⟩

theorem buildMintSimplicityWitness_ok (C : Crypto) {s next : CoveStateV2} {amount gross : Int}
    (h : applyMintV2 s amount = .ok ⟨next, gross⟩) :
    buildMintSimplicityWitness C ⟨s, next, amount, gross⟩ =
      .ok {
        amount := amount / atomsPerToken
        prevSupply := s.issuedPublicSupplyAtoms / atomsPerToken
        nextSupply := next.issuedPublicSupplyAtoms / atomsPerToken
        prevReserve := s.backingSats
        nextReserve := next.backingSats
        contribution := gross } := by
  have hstep := applyMintV2_iff.mp h
  obtain ⟨hash, hhash⟩ := stateHashV2_ok (C := C) hstep.upper_valid.serializes
  simp only [buildMintSimplicityWitness, bind_eq_ok, ensure_eq_ok]
  exact ⟨_, atomsToDisplayTokensExact_ok (le_of_lt hstep.amount_pos) hstep.amount_lots,
    _, h, hash, hhash, hash, hhash, (), rfl, (), rfl, _,
    atomsToDisplayTokensExact_ok hstep.lower_valid.supply_nonneg hstep.lower_valid.supply_lots, _,
    atomsToDisplayTokensExact_ok hstep.upper_valid.supply_nonneg hstep.upper_valid.supply_lots, rfl⟩

theorem buildRedeemSimplicityWitness_ok (C : Crypto) {s next : CoveStateV2} {amount gross : Int}
    (h : applyRedeemV2 s amount = .ok ⟨next, gross⟩) :
    buildRedeemSimplicityWitness C ⟨s, next, amount, gross⟩ =
      .ok {
        amount := amount / atomsPerToken
        oldSupply := s.issuedPublicSupplyAtoms / atomsPerToken
        newSupply := next.issuedPublicSupplyAtoms / atomsPerToken
        oldBacking := s.backingSats
        newBacking := next.backingSats
        payout := gross } := by
  have hstep := applyRedeemV2_iff.mp h
  obtain ⟨hash, hhash⟩ := stateHashV2_ok (C := C) hstep.lower_valid.serializes
  simp only [buildRedeemSimplicityWitness, bind_eq_ok, ensure_eq_ok]
  exact ⟨_, atomsToDisplayTokensExact_ok (le_of_lt hstep.amount_pos) hstep.amount_lots,
    _, h, hash, hhash, hash, hhash, (), rfl, (), rfl, _,
    atomsToDisplayTokensExact_ok hstep.upper_valid.supply_nonneg hstep.upper_valid.supply_lots, _,
    atomsToDisplayTokensExact_ok hstep.lower_valid.supply_nonneg hstep.lower_valid.supply_lots, rfl⟩

end Cove
