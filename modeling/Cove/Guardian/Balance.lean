import Cove.Guardian.Deploy

/-! What the four builders take in and give out: the inputs cover the outputs and the reported fee
to the sat, and the change is worth an output or part of the fee. -/

namespace Cove

open Checked

/-- What the inputs hold. -/
def inputTotal (inputs : List PsbtInput) : Int := (inputs.map PsbtInput.valueSats).sum

/-- The inputs less the outputs are the reported fee. It exceeds the requested fee by nothing, or by
less than the dust limit of the change script. What follows the payments is change above that
limit, and outputs without value. -/
structure Balanced (psbt : Psbt) (payments : List Payment) (changeScript : Bytes)
    (requestedFee reportedFee : Int) : Prop where
  fee : inputTotal psbt.inputs - outputTotal psbt.txOutputs = reportedFee
  fee_ge : requestedFee ≤ reportedFee
  fee_lt : requestedFee < reportedFee → reportedFee - requestedFee < dustThreshold changeScript
  outputs : ∃ paid change rest, psbt.txOutputs = paid ++ change ++ rest ∧
    List.Forall₂ OutputFor payments paid ∧ change.length ≤ 1 ∧
    (∀ o ∈ change, o.script = changeScript ∧ dustThreshold changeScript ≤ o.value) ∧
    ∀ o ∈ rest, o.value = 0

/-- A script that can be spent has a dust limit, so that the excess is always below it. -/
theorem dustThreshold_pos {script : Bytes} (h : script[0]? ≠ some 0x6a) : 0 < dustThreshold script := by
  unfold dustThreshold dustRelayFeeSatPerKvB
  rw [if_neg h]
  split_ifs <;> omega

theorem Balanced.excess_lt {psbt : Psbt} {payments : List Payment} {changeScript : Bytes}
    {requestedFee reportedFee : Int}
    (h : Balanced psbt payments changeScript requestedFee reportedFee)
    (hspendable : changeScript[0]? ≠ some 0x6a) :
    reportedFee - requestedFee < dustThreshold changeScript := by
  have hge := h.fee_ge
  by_cases hmore : requestedFee < reportedFee
  · exact h.fee_lt hmore
  · have hpos := dustThreshold_pos hspendable
    omega

/-- A builder that pays its list out of all its coins, settles the change and adds nothing of value
is balanced. -/
theorem balanced_of_settled {payments : List Payment} {coins : List ResolvedInput}
    {inputs : List PsbtInput} {outs : List TxOut} {changeScript : Bytes}
    {changeSats minerFeeSats : Int} {s : SettledChange} (rest : List TxOut)
    (hinputs : List.Forall₂ InputFor coins inputs)
    (houts : addOutputs [] payments = .ok outs)
    (hchange : changeSats = totalValue coins - (payments.map Payment.valueSats).sum - minerFeeSats)
    (hnonneg : 0 ≤ changeSats)
    (hsettled : addChangeOrAbsorb outs changeScript changeSats minerFeeSats = .ok s)
    (hrest : ∀ o ∈ rest, o.value = 0) :
    Balanced { inputs, txOutputs := s.txOutputs ++ rest } payments changeScript minerFeeSats
      s.minerFeeSats := by
  obtain ⟨paid, hout, hpaid⟩ := addOutputs_ok houts
  rw [List.nil_append] at hout
  subst hout
  have htotal := (paidOut_of_settled houts hnonneg hsettled hrest).2
  have hin : inputTotal inputs = totalValue coins := totalIn_of_forall₂ hinputs
  constructor
  case fee =>
    dsimp only
    omega
  case fee_ge =>
    rcases addChangeOrAbsorb_cases hsettled hnonneg with ⟨-, hfee, -⟩ | ⟨-, hfee, -⟩
    · omega
    · omega
  case fee_lt =>
    intro hmore
    rcases addChangeOrAbsorb_cases hsettled hnonneg with ⟨-, hfee, -⟩ | ⟨hnot, hfee, -⟩
    · omega
    · have hlt : ¬ dustThreshold changeScript ≤ changeSats := fun hle => hnot ⟨by omega, hle⟩
      omega
  case outputs =>
    rcases addChangeOrAbsorb_cases hsettled hnonneg with ⟨hworth, -, o, hs, ho⟩ | ⟨-, -, hs⟩
    · refine ⟨outs, [o], rest, by rw [hs], hpaid, le_refl 1, ?_, hrest⟩
      intro o' ho'
      obtain rfl := List.mem_singleton.mp ho'
      have hvalue : (o'.value : Int) = changeSats := ho.value
      have hdust := hworth.2
      exact ⟨ho.script, by omega⟩
    · exact ⟨outs, [], rest, by rw [hs, List.append_nil], hpaid, Nat.zero_le 1, by simp, hrest⟩

section

variable {C : Crypto} {scriptForKind : ScriptForKind}

theorem buildDeployPsbtV3_balanced {params : DeployParams} {r : DeployResult}
    (h : buildDeployPsbtV3 C scriptForKind params = .ok r) :
    Balanced r.psbt (params.payments r) params.deployerChangeScript params.minerFeeSats
      r.minerFeeSats := by
  simp only [buildDeployPsbtV3, bind_eq_ok, ensure_eq_ok, pure_eq_ok] at h
  obtain ⟨tokenId, -, s0, -, vault, -, wire, -, inputs, hinputs, outs, houts, _, hchange, settled,
    hsettled, rfl⟩ := h
  obtain ⟨added, rfl, hadded, -⟩ := addInputs_ok hinputs List.nodup_nil
  have hbalanced := balanced_of_settled [] hadded houts ?_ hchange hsettled (by simp)
  · rwa [List.append_nil] at hbalanced
  · simp only [List.map_cons, List.map_nil, List.sum_cons, List.sum_nil]
    omega

theorem buildMintPsbtV3_balanced {params : MintParams} {r : MintResult}
    (h : buildMintPsbtV3 C scriptForKind params = .ok r) :
    Balanced r.psbt (params.payments r) params.buyerChangeScript params.minerFeeSats
      r.minerFeeSats := by
  simp only [buildMintPsbtV3, bind_eq_ok, ensure_eq_ok, pure_eq_ok] at h
  obtain ⟨canonical, -, prevVault, -, nextVault, -, buyFee, -, wire, -, input0, hinput0, first,
    hfirst, inputs, hinputs, creatorFee, -, outs, houts, _, hchange, settled, hsettled, out, hout,
    rfl⟩ := h
  obtain ⟨rest, rfl, -, hrest⟩ := addDiscovery_ok hout
  have hcoins := addInputs_vault (vaultInput_ok hinput0).1 hfirst hinputs
  apply balanced_of_settled rest hcoins houts _ hchange hsettled hrest
  rw [totalValue_cons]
  simp only [List.map_cons, List.map_nil, List.sum_cons, List.sum_nil]
  omega

theorem buildTransferPsbtV2_balanced {params : TransferParams} {r : TransferResult}
    (h : buildTransferPsbtV2 scriptForKind params = .ok r) :
    Balanced r.psbt (params.payments r.wire) params.funderChangeScript params.minerFeeSats
      r.minerFeeSats := by
  simp only [buildTransferPsbtV2, bind_eq_ok, ensure_eq_ok, pure_eq_ok] at h
  obtain ⟨_, -, _, -, _, -, wire, -, inputs, hinputs, outs, houts, _, hchange, settled, hsettled,
    rfl⟩ := h
  obtain ⟨added, rfl, hadded, -⟩ := addInputs_ok hinputs List.nodup_nil
  have hbalanced := balanced_of_settled [] hadded houts ?_ hchange hsettled (by simp)
  · rwa [List.append_nil] at hbalanced
  · rw [params.payments_total]
    omega

theorem buildRedeemPsbtV3_balanced {params : RedeemParams} {r : RedeemResult}
    (h : buildRedeemPsbtV3 C scriptForKind params = .ok r) :
    Balanced r.psbt (params.payments r) (params.funderChangeScript.getD params.sellerChangeScript)
      params.minerFeeSats r.minerFeeSats := by
  simp only [buildRedeemPsbtV3, bind_eq_ok, ensure_eq_ok, pure_eq_ok] at h
  obtain ⟨canonical, -, prevVault, -, nextVault, -, redeemFee, -, _, -, wire, -, input0, hinput0,
    first, hfirst, inputs, hinputs, outs, houts, _, hchange, settled, hsettled, rfl⟩ := h
  have hcoins := addInputs_vault (vaultInput_ok hinput0).1 hfirst hinputs
  have hbalanced := balanced_of_settled [] hcoins houts ?_ hchange hsettled (by simp)
  · rwa [List.append_nil] at hbalanced
  · rw [totalValue_cons]
    split
    · simp only [List.cons_append, List.nil_append, List.map_cons, List.map_nil, List.sum_cons,
        List.sum_nil]
      omega
    · simp only [List.append_nil, List.map_cons, List.map_nil, List.sum_cons, List.sum_nil]
      omega

end

/-- Every PSBT of the four builders balances at the fee they report. -/
theorem builders_balance (C : Crypto) (scriptForKind : ScriptForKind) :
    (∀ params r, buildDeployPsbtV3 C scriptForKind params = .ok r →
      Balanced r.psbt (params.payments r) params.deployerChangeScript params.minerFeeSats
        r.minerFeeSats) ∧
    (∀ params r, buildMintPsbtV3 C scriptForKind params = .ok r →
      Balanced r.psbt (params.payments r) params.buyerChangeScript params.minerFeeSats
        r.minerFeeSats) ∧
    (∀ params r, buildTransferPsbtV2 scriptForKind params = .ok r →
      Balanced r.psbt (params.payments r.wire) params.funderChangeScript params.minerFeeSats
        r.minerFeeSats) ∧
    (∀ params r, buildRedeemPsbtV3 C scriptForKind params = .ok r →
      Balanced r.psbt (params.payments r)
        (params.funderChangeScript.getD params.sellerChangeScript) params.minerFeeSats
        r.minerFeeSats) :=
  ⟨fun _ _ h => buildDeployPsbtV3_balanced h, fun _ _ h => buildMintPsbtV3_balanced h,
    fun _ _ h => buildTransferPsbtV2_balanced h, fun _ _ h => buildRedeemPsbtV3_balanced h⟩

/-- A transfer whose change of 200 sats is dust. -/
def dustTransfer : TransferParams where
  tokenId := List.replicate 32 1
  tokenInputs := [⟨List.replicate 32 2, 1, 0x00 :: 0x14 :: List.replicate 20 2, 1000, none⟩]
  tokenInputTotalAtoms := 500000000000
  tokenOutputs := [⟨0x00 :: 0x14 :: List.replicate 20 4, 500000000000⟩]
  funderInputs := [⟨List.replicate 32 3, 0, 0x00 :: 0x14 :: List.replicate 20 3, 2200, none⟩]
  funderChangeScript := 0x00 :: 0x14 :: List.replicate 20 3
  btcOutputs := []
  minerFeeSats := 2000

/-- The dust goes to the miner. -/
theorem builders_balance_dust : ∃ r : TransferResult, r.minerFeeSats = 2200 ∧
    Balanced r.psbt (dustTransfer.payments r.wire) dustTransfer.funderChangeScript 2000
      r.minerFeeSats := by
  have hbuilt : ((buildTransferPsbtV2 (fun _ _ => .error ⟨none, "no key"⟩) dustTransfer).toOption.any
      fun r => r.minerFeeSats = 2200) = true := by
    decide +kernel
  obtain ⟨r, hr, hfee⟩ := (Option.any_eq_true _ _).mp hbuilt
  rw [toOption_eq_some] at hr
  exact ⟨r, of_decide_eq_true hfee, (builders_balance sampleCrypto _).2.2.1 dustTransfer r hr⟩

end Cove
