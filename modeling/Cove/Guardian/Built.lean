import Cove.Guardian.Builder

/-! What the builders of a mint and of a redeem have built. -/

namespace Cove

open Checked

/-- The outputs pay what is listed, then the change if there is any, then nothing of value. -/
def PaidOut (payments : List Payment) (changeScript : Bytes) (outs : List TxOut) : Prop :=
  ∃ paid change rest, outs = paid ++ change ++ rest ∧ List.Forall₂ OutputFor payments paid ∧
    (∀ o ∈ change, o.script = changeScript) ∧ ∀ o ∈ rest, o.value = 0

/-- The payments are in their places. -/
theorem PaidOut.get {payments : List Payment} {changeScript : Bytes} {outs : List TxOut}
    (h : PaidOut payments changeScript outs) {k : Nat} {p : Payment} (hp : payments[k]? = some p) :
    ∃ o, outs[k]? = some o ∧ OutputFor p o := by
  obtain ⟨paid, change, rest, rfl, hpaid, -, -⟩ := h
  obtain ⟨hlen, hget⟩ := List.forall₂_iff_get.mp hpaid
  obtain ⟨hk, rfl⟩ := List.getElem?_eq_some_iff.mp hp
  have hk' : k < paid.length := by omega
  refine ⟨paid[k], ?_, hget k hk hk'⟩
  rw [List.append_assoc, List.getElem?_append_left hk', List.getElem?_eq_getElem hk']

def MintParams.payments (params : MintParams) (r : MintResult) : List Payment := [
  ⟨opReturnScript r.wire, 0⟩,
  ⟨r.nextVault.scriptPubKey, reserveAnchorSats + r.nextState.backingSats⟩,
  ⟨params.buyerCarrierScript, tokenCarrierSats⟩,
  ⟨params.feeScript, r.buyFeeSats⟩,
  ⟨params.creatorScript, r.creatorFeeSats⟩]

/-- What a mint's PSBT spends and pays. -/
structure MintBuilt (C : Crypto) (params : MintParams) (r : MintResult) : Prop where
  canonical : applyMintV2 params.prevState params.mintAmountAtoms = .ok ⟨r.nextState, r.grossSats⟩
  prevVault : buildBackingVaultV3 C params.prevState params.keys = .ok r.prevVault
  nextVault : buildBackingVaultV3 C r.nextState params.keys = .ok r.nextVault
  wire : encodeMintV2 params.tokenId params.mintAmountAtoms 2 = .ok r.wire
  inputs : List.Forall₂ InputFor (params.prevBacking :: params.buyerInputs) r.psbt.inputs
  outputs : PaidOut (params.payments r) params.buyerChangeScript r.psbt.txOutputs
  fee : outputTotal r.psbt.txOutputs + r.minerFeeSats =
    totalValue (params.prevBacking :: params.buyerInputs)

def RedeemParams.payments (params : RedeemParams) (r : RedeemResult) : List Payment := [
  ⟨opReturnScript r.wire, 0⟩,
  ⟨r.nextVault.scriptPubKey, reserveAnchorSats + r.nextState.backingSats⟩,
  ⟨params.sellerPayoutScript, r.netSats⟩,
  ⟨params.feeScript, r.redeemFeeSats⟩] ++
  if 0 < r.changeAtoms then [⟨params.sellerChangeScript, tokenCarrierSats⟩] else []

/-- What a redeem's PSBT spends and pays. -/
structure RedeemBuilt (C : Crypto) (params : RedeemParams) (r : RedeemResult) : Prop where
  canonical : applyRedeemV2 params.prevState params.redeemAmountAtoms =
    .ok ⟨r.nextState, r.grossSats⟩
  prevVault : buildBackingVaultV3 C params.prevState params.keys = .ok r.prevVault
  nextVault : buildBackingVaultV3 C r.nextState params.keys = .ok r.nextVault
  net : r.netSats = r.grossSats - r.redeemFeeSats
  changeAtoms : r.changeAtoms = params.tokenInputTotalAtoms - params.redeemAmountAtoms
  wire : encodeRedeemV2 params.tokenId params.redeemAmountAtoms
    (if 0 < r.changeAtoms then [⟨4, r.changeAtoms⟩] else []) = .ok r.wire
  inputs : List.Forall₂ InputFor (params.prevBacking :: (params.tokenInputs ++ params.funderInputs))
    r.psbt.inputs
  outputs : PaidOut (params.payments r)
    (params.funderChangeScript.getD params.sellerChangeScript) r.psbt.txOutputs
  fee : outputTotal r.psbt.txOutputs + r.minerFeeSats =
    totalValue (params.prevBacking :: (params.tokenInputs ++ params.funderInputs))

theorem totalValue_cons (r : ResolvedInput) (rs : List ResolvedInput) :
    totalValue (r :: rs) = r.valueSats + totalValue rs := by
  simp [totalValue]

/-- What the Guardian measures as the miner's fee is the fee of the build. -/
theorem minerFee_of_built {psbt : Psbt} {rs : List ResolvedInput} {fee : Int}
    (hin : List.Forall₂ InputFor rs psbt.inputs)
    (hfee : outputTotal psbt.txOutputs + fee = totalValue rs) :
    psbt.totalIn - psbt.totalOut = fee := by
  have htotal : psbt.totalIn = totalValue rs := totalIn_of_forall₂ hin
  have hout : psbt.totalOut = outputTotal psbt.txOutputs := rfl
  omega

/-- The vault's input comes first, and then one for each coin. -/
theorem addInputs_behind {scriptForKind : ScriptForKind} {rs : List ResolvedInput}
    {input0 : PsbtInput} {first inputs : List PsbtInput} (hfirst : addInput [] input0 = .ok first)
    (h : addInputs scriptForKind first rs = .ok inputs) :
    ∃ added, inputs = input0 :: added ∧ List.Forall₂ InputFor rs added := by
  obtain ⟨rfl, -⟩ := addInput_ok hfirst
  have hnodup : (([] ++ [input0]).map PsbtInput.outpoint).Nodup := List.nodup_singleton _
  obtain ⟨added, rfl, hadded, -⟩ := addInputs_ok h hnodup
  exact ⟨added, rfl, hadded⟩

theorem addInputs_vault {scriptForKind : ScriptForKind} {r : ResolvedInput}
    {rs : List ResolvedInput} {input0 : PsbtInput} {first inputs : List PsbtInput}
    (h0 : InputFor r input0) (hfirst : addInput [] input0 = .ok first)
    (h : addInputs scriptForKind first rs = .ok inputs) :
    List.Forall₂ InputFor (r :: rs) inputs := by
  obtain ⟨added, rfl, hadded⟩ := addInputs_behind hfirst h
  exact .cons h0 hadded

/-- The discovery output, if there is to be one, has no value. -/
theorem addDiscovery_ok {outs out : List TxOut} {wire : Bytes} {ticker : Option Bytes}
    (h : addDiscovery outs wire ticker = .ok out) :
    ∃ rest, out = outs ++ rest ∧ rest.length = ticker.toList.length ∧
      ∀ o ∈ rest, o.value = 0 := by
  cases ticker with
  | none =>
    obtain rfl := Except.ok.inj h
    exact ⟨[], (List.append_nil _).symm, rfl, by simp⟩
  | some ticker =>
    simp only [addDiscovery, bind_eq_ok] at h
    obtain ⟨_, -, _, -, h⟩ := h
    obtain ⟨o, rfl, ho⟩ := addOutput_ok h
    refine ⟨[o], rfl, rfl, ?_⟩
    intro o' ho'
    obtain rfl := List.mem_singleton.mp ho'
    have hvalue : (o'.value : Int) = 0 := ho.value
    omega

/-- Settled change and outputs without value behind it are all that follows the payments. -/
theorem paidOut_of_settled {payments : List Payment} {outs rest : List TxOut}
    {changeScript : Bytes} {changeSats minerFeeSats : Int} {s : SettledChange}
    (houts : addOutputs [] payments = .ok outs) (hnonneg : 0 ≤ changeSats)
    (h : addChangeOrAbsorb outs changeScript changeSats minerFeeSats = .ok s)
    (hrest : ∀ o ∈ rest, o.value = 0) :
    PaidOut payments changeScript (s.txOutputs ++ rest) ∧
      outputTotal (s.txOutputs ++ rest) + s.minerFeeSats =
        (payments.map Payment.valueSats).sum + changeSats + minerFeeSats := by
  obtain ⟨paid, hout, hpaid⟩ := addOutputs_ok houts
  rw [List.nil_append] at hout
  obtain rfl := hout
  have htotal := addChangeOrAbsorb_total h hnonneg
  have hzero : outputTotal rest = 0 := by
    rw [outputTotal, List.map_congr_left fun o ho => by rw [hrest o ho]]
    simp
  have hpayments := outputTotal_of_forall₂ hpaid
  refine ⟨?_, ?_⟩
  · rcases addChangeOrAbsorb_cases h hnonneg with ⟨-, -, o, hs, ho⟩ | ⟨-, -, hs⟩
    · refine ⟨outs, [o], rest, by rw [hs], hpaid, ?_, hrest⟩
      intro o' ho'
      obtain rfl := List.mem_singleton.mp ho'
      exact ho.script
    · exact ⟨outs, [], rest, by rw [hs, List.append_nil], hpaid, by simp, hrest⟩
  · rw [outputTotal_append, hzero]
    omega

theorem buildMintPsbtV3_ok {C : Crypto} {scriptForKind : ScriptForKind} {params : MintParams}
    {r : MintResult} (h : buildMintPsbtV3 C scriptForKind params = .ok r) :
    MintBuilt C params r := by
  simp only [buildMintPsbtV3, bind_eq_ok, ensure_eq_ok, pure_eq_ok] at h
  obtain ⟨canonical, hcanonical, prevVault, hprev, nextVault, hnext, buyFee, -, wire, hwire, input0,
    hinput0, first, hfirst, inputs, hinputs, creatorFee, -, outs, houts, _, hchange, settled,
    hsettled, out, hout, rfl⟩ := h
  obtain ⟨rest, rfl, -, hrest⟩ := addDiscovery_ok hout
  obtain ⟨hpaid, htotal⟩ := paidOut_of_settled houts hchange hsettled hrest
  constructor
  case canonical => exact hcanonical
  case prevVault => exact hprev
  case nextVault => exact hnext
  case wire => exact hwire
  case inputs => exact addInputs_vault (vaultInput_ok hinput0).1 hfirst hinputs
  case outputs => exact hpaid
  case fee =>
    simp only [List.map_cons, List.map_nil, List.sum_cons, List.sum_nil] at htotal
    rw [totalValue_cons]
    dsimp only
    omega

theorem buildRedeemPsbtV3_ok {C : Crypto} {scriptForKind : ScriptForKind} {params : RedeemParams}
    {r : RedeemResult} (h : buildRedeemPsbtV3 C scriptForKind params = .ok r) :
    RedeemBuilt C params r := by
  simp only [buildRedeemPsbtV3, bind_eq_ok, ensure_eq_ok, pure_eq_ok] at h
  obtain ⟨canonical, hcanonical, prevVault, hprev, nextVault, hnext, redeemFee, -, _, -, wire, hwire,
    input0, hinput0, first, hfirst, inputs, hinputs, outs, houts, _, hchange, settled, hsettled,
    rfl⟩ := h
  have hrest : ∀ o ∈ ([] : List TxOut), o.value = 0 := by simp
  obtain ⟨hpaid, htotal⟩ := paidOut_of_settled houts hchange hsettled hrest
  rw [List.append_nil] at hpaid htotal
  constructor
  case canonical => exact hcanonical
  case prevVault => exact hprev
  case nextVault => exact hnext
  case net => rfl
  case changeAtoms => rfl
  case wire => exact hwire
  case inputs => exact addInputs_vault (vaultInput_ok hinput0).1 hfirst hinputs
  case outputs => exact hpaid
  case fee =>
    rw [totalValue_cons]
    dsimp only
    split at htotal
    · rename_i hpos
      simp only [List.cons_append, List.nil_append, List.map_cons, List.map_nil, List.sum_cons,
        List.sum_nil] at htotal
      omega
    · rename_i hpos
      simp only [List.append_nil, List.map_cons, List.map_nil, List.sum_cons,
        List.sum_nil] at htotal
      omega

/-! The change of a transfer. -/

/-- What the coins of a transfer hold besides its payments and its fee. -/
def TransferParams.leftover (params : TransferParams) : Int :=
  totalValue (params.tokenInputs ++ params.funderInputs) -
    (params.tokenOutputs.length : Int) * tokenCarrierSats -
    (params.btcOutputs.map Payment.valueSats).sum - params.minerFeeSats

/-- A transfer's outputs are its payments, and its change where that is worth an output. -/
theorem buildTransferPsbtV2_outputs {scriptForKind : ScriptForKind} {params : TransferParams}
    {r : TransferResult} (h : buildTransferPsbtV2 scriptForKind params = .ok r) :
    ∃ paid, List.Forall₂ OutputFor (params.payments r.wire) paid ∧
      ((WorthOutput params.funderChangeScript params.leftover ∧
          ∃ o, r.psbt.txOutputs = paid ++ [o] ∧ o.script = params.funderChangeScript) ∨
        ¬ WorthOutput params.funderChangeScript params.leftover ∧ r.psbt.txOutputs = paid) := by
  simp only [buildTransferPsbtV2, bind_eq_ok, ensure_eq_ok, pure_eq_ok] at h
  obtain ⟨_, -, _, -, _, -, wire, -, inputs, -, outs, houts, _, hchange, settled, hsettled,
    rfl⟩ := h
  obtain ⟨paid, hout, hpaid⟩ := addOutputs_ok houts
  rw [List.nil_append] at hout
  obtain rfl := hout
  refine ⟨outs, hpaid, ?_⟩
  rcases addChangeOrAbsorb_cases hsettled hchange with ⟨hworth, -, o, hs, ho⟩ | ⟨hnot, -, hs⟩
  · exact .inl ⟨hworth, o, hs, ho.script⟩
  · exact .inr ⟨hnot, hs⟩

end Cove
