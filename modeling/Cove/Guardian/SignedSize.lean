import Cove.Bitcoin.VirtualSize
import Cove.Guardian.Deploy
import Cove.Guardian.DiscoveryBuilt
import Cove.Guardian.RemoteSigner
import Cove.Vault.Depth

/-! What the builders' transactions weigh once every input is signed. -/

namespace Cove

open Checked Transaction

/-! The signed inputs. -/

/-- An input with its final scripts, every signature as long as it gets: 72 bytes of ECDSA, a
Schnorr signature of a wallet with its hash type, one of the Guardian without. -/
inductive SignedInput (i : PsbtInput) : TxIn → Prop
  | vault {leaf : TapLeafScript} {sig : Bytes} (hleaf : i.tapLeafScript = [leaf])
      (hsig : sig.length = 64) :
      SignedInput i { hash := i.hash, index := i.index, sequence := i.sequence
                      witness := [sig, policyReveal leaf.script, leaf.script, leaf.controlBlock] }
  | p2wpkh {prevout : TxOut} {sig key : Bytes} (hleaf : i.tapLeafScript = [])
      (hprevout : i.witnessUtxo = some prevout) (hkind : spendKindOf prevout.script = some .p2wpkh)
      (hsig : sig.length = 72) (hkey : key.length = 33) :
      SignedInput i { hash := i.hash, index := i.index, sequence := i.sequence
                      witness := [sig, key] }
  | p2shP2wpkh {prevout : TxOut} {keyHash sig key : Bytes} (hleaf : i.tapLeafScript = [])
      (hprevout : i.witnessUtxo = some prevout)
      (hkind : spendKindOf prevout.script = some .p2shP2wpkh) (hhash : keyHash.length = 20)
      (hsig : sig.length = 72) (hkey : key.length = 33) :
      SignedInput i { hash := i.hash, index := i.index, sequence := i.sequence
                      script := 0x16 :: 0x00 :: 0x14 :: keyHash
                      witness := [sig, key] }
  | p2tr {prevout : TxOut} {sig : Bytes} (hleaf : i.tapLeafScript = [])
      (hprevout : i.witnessUtxo = some prevout) (hkind : spendKindOf prevout.script = some .p2tr)
      (hsig : sig.length = 65) :
      SignedInput i { hash := i.hash, index := i.index, sequence := i.sequence
                      witness := [sig] }

/-- The transaction extracted once all have signed. -/
structure Psbt.SignedAs (psbt : Psbt) (tx : Transaction) : Prop where
  version : tx.version = psbt.version
  ins : List.Forall₂ SignedInput psbt.inputs tx.ins
  outs : tx.outs = psbt.txOutputs
  locktime : tx.locktime = psbt.locktime

def SpendKind.signedWeight : SpendKind → Nat
  | .p2wpkh => 272
  | .p2shP2wpkh => 364
  | .p2tr => 231

def ResolvedInput.signedWeight (r : ResolvedInput) : Nat :=
  (spendKindOf r.script).elim 0 SpendKind.signedWeight

/-- An input that one key of its owner signs. -/
structure KeyInput (r : ResolvedInput) (i : PsbtInput) : Prop where
  hash : i.hash.length = 32
  leaf : i.tapLeafScript = []
  kind : spendKindOf r.script ≠ none
  prevout : ∃ v, i.witnessUtxo = some ⟨r.script, v⟩

theorem SignedInput.witness_ne {i : PsbtInput} {t : TxIn} (h : SignedInput i t) :
    t.witness ≠ [] := by
  cases h with
  | vault => simp
  | p2wpkh => simp
  | p2shP2wpkh => simp
  | p2tr => simp

theorem SignedInput.weight_vault {i : PsbtInput} {t : TxIn} {script controlBlock : Bytes}
    (h : SignedInput i t) (hhash : i.hash.length = 32) (hscript : script.length = 68)
    (hleaf : i.tapLeafScript = [⟨script, controlBlock⟩]) :
    t.weight = 332 + (varSlice controlBlock).length := by
  cases h with
  | vault hleaf' hsig =>
    obtain rfl := List.singleton_inj.mp (hleaf.symm.trans hleaf')
    have hreveal : (policyReveal script).length = 32 := by
      rw [policyReveal, Bytes.slice, List.length_take, List.length_drop]
      omega
    simp [TxIn.weight, witnessBytes, length_varSlice, length_varInt, lengthExcess_eq_zero, hhash,
      hsig, hreveal, hscript]
    omega
  | p2wpkh hleaf' => simp [hleaf] at hleaf'
  | p2shP2wpkh hleaf' => simp [hleaf] at hleaf'
  | p2tr hleaf' => simp [hleaf] at hleaf'

theorem SignedInput.weight_key {r : ResolvedInput} {i : PsbtInput} {t : TxIn}
    (h : SignedInput i t) (hi : KeyInput r i) : t.weight = r.signedWeight := by
  have hhash := hi.hash
  obtain ⟨v, hprevout⟩ := hi.prevout
  cases h with
  | vault hleaf => simp [hi.leaf] at hleaf
  | p2wpkh _ hprevout' hkind hsig hkey =>
    obtain rfl := Option.some.inj (hprevout.symm.trans hprevout')
    simp [TxIn.weight, witnessBytes, length_varSlice, length_varInt, lengthExcess_eq_zero, hhash,
      hsig, hkey, ResolvedInput.signedWeight, hkind, SpendKind.signedWeight]
  | p2shP2wpkh _ hprevout' hkind hkeyHash hsig hkey =>
    obtain rfl := Option.some.inj (hprevout.symm.trans hprevout')
    simp [TxIn.weight, witnessBytes, length_varSlice, length_varInt, lengthExcess_eq_zero, hhash,
      hsig, hkey, hkeyHash, ResolvedInput.signedWeight, hkind, SpendKind.signedWeight]
  | p2tr _ hprevout' hkind hsig =>
    obtain rfl := Option.some.inj (hprevout.symm.trans hprevout')
    simp [TxIn.weight, witnessBytes, length_varSlice, length_varInt, lengthExcess_eq_zero, hhash,
      hsig, ResolvedInput.signedWeight, hkind, SpendKind.signedWeight]

/-! The inputs of a build. -/

section

variable {scriptForKind : ScriptForKind}

theorem psbtInputFor_key {r : ResolvedInput} {i : PsbtInput}
    (h : psbtInputFor scriptForKind r = .ok i) :
    i.tapLeafScript = [] ∧ spendKindOf r.script ≠ none ∧
      ∃ v, i.witnessUtxo = some ⟨r.script, v⟩ := by
  simp only [psbtInputFor, bind_eq_ok, demand_eq_ok, ResolvedInput.psbtInput, ensure_eq_ok,
    pure_eq_ok] at h
  obtain ⟨kind, hkind, base, ⟨_, -, rfl⟩, h⟩ := h
  have hne : spendKindOf r.script ≠ none := by simp [hkind]
  split at h
  · obtain rfl := Except.ok.inj h
    exact ⟨rfl, hne, _, rfl⟩
  · simp only [bind_eq_ok, demand_eq_ok, ensure_eq_ok] at h
    obtain ⟨publicKey, -, derived, -, _, -, h⟩ := h
    split at h
    · obtain rfl := Except.ok.inj h
      exact ⟨rfl, hne, _, rfl⟩
    · obtain rfl := Except.ok.inj h
      exact ⟨rfl, hne, _, rfl⟩

theorem addInput_hash {inputs out : List PsbtInput} {i : PsbtInput}
    (h : addInput inputs i = .ok out) : i.hash.length = 32 := by
  simp only [addInput, bind_eq_ok, ensure_eq_ok] at h
  obtain ⟨_, ⟨hhash, -⟩, -⟩ := h
  exact hhash

theorem addInputs_keys {inputs out : List PsbtInput} {rs : List ResolvedInput}
    (h : addInputs scriptForKind inputs rs = .ok out) :
    ∃ added, out = inputs ++ added ∧ List.Forall₂ KeyInput rs added := by
  induction rs generalizing inputs with
  | nil =>
    cases h
    exact ⟨[], (List.append_nil _).symm, .nil⟩
  | cons r rs ih =>
    simp only [addInputs, bind_eq_ok] at h
    obtain ⟨i, hi, mid, hmid, h⟩ := h
    obtain ⟨hleaf, hkind, hprevout⟩ := psbtInputFor_key hi
    have hhash := addInput_hash hmid
    obtain ⟨rfl, -⟩ := addInput_ok hmid
    obtain ⟨added, rfl, hadded⟩ := ih h
    exact ⟨i :: added, by simp, .cons ⟨hhash, hleaf, hkind, hprevout⟩ hadded⟩

end

/-- The signed inputs weigh what the kinds of their prevouts do. -/
theorem signed_keys {rs : List ResolvedInput} {is : List PsbtInput} {ts : List TxIn}
    (hkeys : List.Forall₂ KeyInput rs is) (h : List.Forall₂ SignedInput is ts) :
    (ts.map TxIn.weight).sum = (rs.map ResolvedInput.signedWeight).sum := by
  induction hkeys generalizing ts with
  | nil =>
    cases h
    rfl
  | cons hi _ ih =>
    cases h with
    | cons ht hts =>
      rw [List.map_cons, List.sum_cons, ht.weight_key hi, ih hts, List.map_cons, List.sum_cons]

theorem signed_witnesses {is : List PsbtInput} {ts : List TxIn}
    (h : List.Forall₂ SignedInput is ts) : ∀ t ∈ ts, t.witness ≠ [] := by
  induction h with
  | nil => simp
  | cons ht _ ih =>
    intro t hmem
    rcases List.mem_cons.mp hmem with rfl | hmem
    · exact ht.witness_ne
    · exact ih t hmem

theorem signedWeight_of_kind {rs : List ResolvedInput} {kind : SpendKind}
    (h : ∀ r ∈ rs, spendKindOf r.script = some kind) :
    (rs.map ResolvedInput.signedWeight).sum = rs.length * kind.signedWeight := by
  have hmap : rs.map ResolvedInput.signedWeight = rs.map fun _ => kind.signedWeight := by
    apply List.map_congr_left
    intro r hr
    rw [ResolvedInput.signedWeight, h r hr, Option.elim_some]
  rw [hmap, List.map_const', List.sum_replicate_nat]

/-! The outputs of a build. -/

/-- What an output with the script weighs. -/
def outputWeight (script : Bytes) : Nat := 4 * (8 + (varSlice script).length)

/-- What an output with so long a script is priced at. -/
def pricedOutput (len : Nat) : Nat := 4 * (9 + len)

theorem outputWeight_eq (script : Bytes) :
    outputWeight script = pricedOutput script.length + 4 * lengthExcess script.length := by
  rw [outputWeight, pricedOutput, length_varSlice]
  omega

theorem outputWeight_of_short {script : Bytes} (h : script.length < 253) :
    outputWeight script = pricedOutput script.length := by
  rw [outputWeight_eq, lengthExcess_eq_zero h]
  rfl

theorem outputWeight_of_length {script : Bytes} {n : Nat} (h : script.length = n) (hn : n < 253) :
    outputWeight script = pricedOutput n := by
  rw [outputWeight_of_short (by omega), h]

theorem opReturn_weight {wire : Bytes} {n : Nat} (h : wire.length = n) (hn : n < 251) :
    outputWeight (opReturnScript wire) = pricedOutput (2 + n) := by
  have hlen := length_opReturnScript wire
  rw [outputWeight_of_short (by omega), hlen, h]

theorem outputs_weight (outs : List TxOut) :
    (outs.map TxOut.weight).sum = ((outs.map TxOut.script).map outputWeight).sum := by
  rw [List.map_map]
  rfl

theorem scripts_of_payments {payments : List Payment} {outs : List TxOut}
    (h : List.Forall₂ OutputFor payments outs) :
    outs.map TxOut.script = payments.map Payment.script := by
  induction h with
  | nil => rfl
  | cons ho _ ih => rw [List.map_cons, List.map_cons, ih, ho.script]

instance (changeScript : Bytes) (sats : Int) : Decidable (WorthOutput changeScript sats) :=
  inferInstanceAs (Decidable (_ ∧ _))

/-- The change output, where there is one. -/
def changeScripts (changeScript : Bytes) (sats : Int) : List Bytes :=
  if WorthOutput changeScript sats then [changeScript] else []

theorem changeScripts_length (changeScript : Bytes) (sats : Int) :
    (changeScripts changeScript sats).length ≤ 1 := by
  rw [changeScripts]
  split
  · exact le_rfl
  · exact Nat.zero_le 1

theorem settled_scripts {payments : List Payment} {outs : List TxOut} {changeScript : Bytes}
    {changeSats minerFeeSats : Int} {s : SettledChange}
    (houts : addOutputs [] payments = .ok outs) (hnonneg : 0 ≤ changeSats)
    (h : addChangeOrAbsorb outs changeScript changeSats minerFeeSats = .ok s) :
    s.txOutputs.map TxOut.script =
      payments.map Payment.script ++ changeScripts changeScript changeSats := by
  obtain ⟨paid, hout, hpaid⟩ := addOutputs_ok houts
  rw [List.nil_append] at hout
  obtain rfl := hout
  have hscripts := scripts_of_payments hpaid
  rw [changeScripts]
  rcases addChangeOrAbsorb_cases h hnonneg with ⟨hworth, -, o, hs, ho⟩ | ⟨hnot, -, hs⟩
  · rw [hs, if_pos hworth, List.map_append, hscripts, List.map_singleton, ho.script]
  · rw [hs, if_neg hnot, hscripts, List.append_nil]

/-! The four transactions. -/

section

variable {C : Crypto} {scriptForKind : ScriptForKind} {tx : Transaction}

/-- A signed build weighs what its inputs do, and what outputs with its scripts do. -/
theorem Psbt.SignedAs.weight {psbt : Psbt} (h : psbt.SignedAs tx) {inputs inputsWeight : Nat}
    {scripts : List Bytes} (hinputs : psbt.inputs.length = inputs)
    (hweight : (tx.ins.map TxIn.weight).sum = inputsWeight)
    (hscripts : psbt.txOutputs.map TxOut.script = scripts) :
    tx.weight = 36 + countWeight inputs + 4 * lengthExcess scripts.length + inputsWeight +
      (scripts.map outputWeight).sum := by
  have hlen : psbt.txOutputs.length = scripts.length := by
    rw [← hscripts, List.length_map]
  rw [weight_of_signed (signed_witnesses h.ins), h.outs, outputs_weight, ← h.ins.length_eq, hinputs,
    hweight, hscripts, hlen, length_varInt]
  omega

/-- What a mint's coins hold besides its payments and its fee. -/
def MintParams.leftover (params : MintParams) : Except Fault Int := do
  let r ← applyMintV2 params.prevState params.mintAmountAtoms
  let buyFeeSats ← mintFeeSats r.grossSats params.mintAmountAtoms
    (params.buyFeeBps.getD coveFeeConfig.buyFeeBps)
    (params.buyFeeFlatSats.getD coveFeeConfig.buyFeeFlatSats) coveFeeConfig.buyFeeLotSats
  let creatorFee ← creatorFeeSats r.grossSats
    (params.creatorFeeBps.getD coveFeeConfig.creatorFeeBps)
  return params.prevBacking.valueSats + totalValue params.buyerInputs -
    (reserveAnchorSats + r.nextState.backingSats) - tokenCarrierSats - buyFeeSats - creatorFee -
    params.minerFeeSats

def MintParams.changeOutput (params : MintParams) : List Bytes :=
  params.leftover.toOption.elim [] (changeScripts params.buyerChangeScript)

/-- The script length of a mint's discovery output, if it has one. -/
def MintParams.discoveryLength (params : MintParams) : Option Nat :=
  params.discoveryEnvelope.map fun ticker => 47 + ticker.length + digitCount params.mintAmountAtoms

theorem addDiscovery_weight {outs out : List TxOut} {params : MintParams} {wire : Bytes}
    (hwire : encodeMintV2 params.tokenId params.mintAmountAtoms 2 = .ok wire)
    (h : addDiscovery outs wire params.discoveryEnvelope = .ok out) :
    ∃ rest, out.map TxOut.script = outs.map TxOut.script ++ rest ∧ rest.length ≤ 1 ∧
      (rest.map outputWeight).sum = params.discoveryLength.elim 0 pricedOutput := by
  cases hdisc : params.discoveryEnvelope with
  | none =>
    rw [hdisc] at h
    obtain rfl := Except.ok.inj h
    refine ⟨[], (List.append_nil _).symm, Nat.zero_le 1, ?_⟩
    rw [MintParams.discoveryLength, hdisc]
    rfl
  | some ticker =>
    simp only [hdisc, addDiscovery, decode_encodeMintV2 hwire, bind_eq_ok, Except.ok.injEq] at h
    obtain ⟨_, rfl, payload, hpayload, h⟩ := h
    obtain ⟨o, rfl, ho⟩ := addOutput_ok h
    obtain ⟨-, hserialized, hlimit⟩ := encodeDiscovery_mint hpayload
    have hlength : payload.length = 45 + ticker.length + digitCount params.mintAmountAtoms := by
      rw [hserialized, length_mintEnvelope, List.length_map, digitCount]
    refine ⟨[o.script], by simp, le_rfl, ?_⟩
    unfold datacarrierPayloadLimit at hlimit
    rw [List.map_singleton, List.sum_singleton, ho.script, opReturn_weight hlength (by omega),
      MintParams.discoveryLength, hdisc]
    simp only [Option.map_some, Option.elim_some]
    congr 1
    omega

/-- The vault's input comes first, and then one for each coin. -/
theorem signed_behind {prevBacking : ResolvedInput} {vault : CoveVaultV3} {leaf : CoveVaultLeaf}
    {controlBlock : Bytes} {input0 : PsbtInput} {first inputs : List PsbtInput}
    {rs : List ResolvedInput} {ts : List TxIn} (hleaf : leaf.script.length = 68)
    (h0 : vaultInput prevBacking vault leaf controlBlock = .ok input0)
    (hfirst : addInput [] input0 = .ok first)
    (h : addInputs scriptForKind first rs = .ok inputs) (hsigned : List.Forall₂ SignedInput inputs ts) :
    inputs.length = rs.length + 1 ∧ (ts.map TxIn.weight).sum =
      332 + (varSlice controlBlock).length + (rs.map ResolvedInput.signedWeight).sum := by
  have hhash := addInput_hash hfirst
  obtain ⟨rfl, -⟩ := addInput_ok hfirst
  obtain ⟨added, rfl, hkeys⟩ := addInputs_keys h
  cases hsigned with
  | cons ht hts =>
    have hvault := ht.weight_vault hhash hleaf (vaultInput_ok h0).2.2.2
    refine ⟨by simp [hkeys.length_eq], ?_⟩
    rw [List.map_cons, List.sum_cons, hvault, signed_keys hkeys hts]

theorem mint_weight {params : MintParams} {r : MintResult}
    (hkeys : XOnlyKeys C)
    (h : buildMintPsbtV3 C scriptForKind params = .ok r) (hsigned : r.psbt.SignedAs tx) :
    tx.weight = 36 + countWeight (params.buyerInputs.length + 1) +
      (332 + (varSlice r.prevVault.mintControlBlock).length +
        (params.buyerInputs.map ResolvedInput.signedWeight).sum) +
      (pricedOutput 47 + pricedOutput 34 + outputWeight params.buyerCarrierScript +
        outputWeight params.feeScript + outputWeight params.creatorScript) +
      (params.changeOutput.map outputWeight).sum +
      params.discoveryLength.elim 0 pricedOutput := by
  have hins := hsigned.ins
  simp only [buildMintPsbtV3, bind_eq_ok, ensure_eq_ok, pure_eq_ok] at h
  obtain ⟨canonical, hcanonical, prevVault, hprev, nextVault, hnext, buyFee, hbuyFee, wire, hwire,
    input0, hinput0, first, hfirst, inputs, hinputs, creatorFee, hcreatorFee, outs, houts, _,
    hchange, settled, hsettled, out, hout, rfl⟩ := h
  obtain ⟨hcount, hinsWeight⟩ :=
    signed_behind (backingVault_lengths hkeys hprev).mintLeaf hinput0 hfirst hinputs hins
  obtain ⟨rest, hscripts, hrest, hrestWeight⟩ := addDiscovery_weight hwire hout
  have hleftover : params.changeOutput = changeScripts params.buyerChangeScript
      (params.prevBacking.valueSats + totalValue params.buyerInputs -
        (reserveAnchorSats + canonical.nextState.backingSats) - tokenCarrierSats - buyFee -
        creatorFee - params.minerFeeSats) := by
    simp [MintParams.changeOutput, MintParams.leftover, hcanonical, hbuyFee, hcreatorFee, bind,
      Except.bind, pure, Except.pure, Except.toOption]
  rw [settled_scripts houts hchange hsettled, ← hleftover] at hscripts
  have hchangeOne : params.changeOutput.length ≤ 1 := by
    rw [hleftover]
    exact changeScripts_length _ _
  have hvault := (backingVault_lengths hkeys hnext).scriptPubKey
  have hopReturn : outputWeight (opReturnScript wire) = pricedOutput 47 :=
    opReturn_weight (length_encodeMintV2 hwire) (by omega)
  have hvaultWeight := outputWeight_of_length hvault (by omega)
  rw [hsigned.weight hcount hinsWeight hscripts, lengthExcess_eq_zero]
  · simp only [List.map_append, List.map_cons, List.map_nil, List.sum_append, List.sum_cons,
      List.sum_nil, hopReturn, hvaultWeight, hrestWeight]
    omega
  · simp only [List.length_append, List.length_map, List.length_cons, List.length_nil]
    omega

/-- What a deploy's coins hold besides its payments and its fee. -/
def DeployParams.leftover (params : DeployParams) : Int :=
  totalValue params.deployerInputs - reserveAnchorSats - creatorRecordSats - params.minerFeeSats

def DeployParams.changeOutput (params : DeployParams) : List Bytes :=
  changeScripts params.deployerChangeScript params.leftover

theorem deploy_weight {params : DeployParams} {r : DeployResult}
    (hkeys : XOnlyKeys C)
    (h : buildDeployPsbtV3 C scriptForKind params = .ok r) (hsigned : r.psbt.SignedAs tx) :
    tx.weight = 36 + countWeight params.deployerInputs.length +
      (params.deployerInputs.map ResolvedInput.signedWeight).sum +
      (pricedOutput (40 + params.identity.ticker.length) + pricedOutput 34 +
        outputWeight (params.creatorScript.getD params.deployerChangeScript)) +
      (params.changeOutput.map outputWeight).sum := by
  have hins := hsigned.ins
  simp only [buildDeployPsbtV3, bind_eq_ok, ensure_eq_ok, pure_eq_ok] at h
  obtain ⟨tokenId, -, s0, -, vault, hvault, wire, hwire, inputs, hinputs, outs, houts, _, hchange,
    settled, hsettled, rfl⟩ := h
  obtain ⟨added, rfl, hadded⟩ := addInputs_keys hinputs
  have hscripts : settled.txOutputs.map TxOut.script = _ ++ params.changeOutput :=
    settled_scripts houts hchange hsettled
  have hchangeOne : params.changeOutput.length ≤ 1 := changeScripts_length _ _
  obtain ⟨hlength, hticker⟩ := length_encodeDeployV2 hwire
  have hopReturn : outputWeight (opReturnScript wire) =
      pricedOutput (40 + params.identity.ticker.length) := by
    rw [opReturn_weight hlength (by omega)]
    congr 1
    omega
  have hvaultWeight := outputWeight_of_length (backingVault_lengths hkeys hvault).scriptPubKey
    (by omega)
  rw [hsigned.weight hadded.length_eq.symm (signed_keys hadded hins) hscripts, lengthExcess_eq_zero]
  · simp only [List.map_append, List.map_cons, List.map_nil, List.sum_append, List.sum_cons,
      List.sum_nil, hopReturn, hvaultWeight]
    omega
  · simp only [List.length_append, List.length_map, List.length_cons, List.length_nil]
    omega

def TransferParams.changeOutput (params : TransferParams) : List Bytes :=
  changeScripts params.funderChangeScript params.leftover

theorem transfer_weight {params : TransferParams} {r : TransferResult}
    (h : buildTransferPsbtV2 scriptForKind params = .ok r) (hsigned : r.psbt.SignedAs tx) :
    tx.weight = 36 + countWeight (params.tokenInputs.length + params.funderInputs.length) +
      4 * lengthExcess (params.tokenOutputs.length + params.btcOutputs.length +
        params.changeOutput.length + 1) +
      ((params.tokenInputs.map ResolvedInput.signedWeight).sum +
        (params.funderInputs.map ResolvedInput.signedWeight).sum) +
      (pricedOutput (39 + 9 * params.tokenOutputs.length) +
        (params.tokenOutputs.map fun o => outputWeight o.script).sum +
        (params.btcOutputs.map fun p => outputWeight p.script).sum) +
      (params.changeOutput.map outputWeight).sum := by
  have hins := hsigned.ins
  simp only [buildTransferPsbtV2, bind_eq_ok, ensure_eq_ok, pure_eq_ok] at h
  obtain ⟨_, -, _, hfour, _, -, wire, hwire, inputs, hinputs, outs, houts, _, hchange, settled,
    hsettled, rfl⟩ := h
  obtain ⟨added, rfl, hadded⟩ := addInputs_keys hinputs
  have hscripts : settled.txOutputs.map TxOut.script = _ ++ params.changeOutput :=
    settled_scripts houts hchange hsettled
  have hallocations : params.allocations.length = params.tokenOutputs.length := by
    simp [TransferParams.allocations]
  have hopReturn : outputWeight (opReturnScript wire) =
      pricedOutput (39 + 9 * params.tokenOutputs.length) := by
    rw [opReturn_weight (length_encodeTransferV2 hwire) (by omega), hallocations]
    congr 1
    omega
  have hcount := hadded.length_eq
  rw [List.length_append] at hcount
  rw [hsigned.weight hcount.symm (signed_keys hadded hins) hscripts]
  simp only [TransferParams.payments, List.map_append, List.map_cons, List.map_map, List.sum_append,
    List.sum_cons, hopReturn, List.length_append, List.length_map, List.length_cons,
    List.cons_append, Function.comp_def]
  omega

/-- What a redeem's coins hold besides its payments and its fee. -/
def RedeemParams.leftover (params : RedeemParams) : Except Fault Int := do
  let r ← applyRedeemV2 params.prevState params.redeemAmountAtoms
  let changeCarrierValue :=
    if 0 < params.tokenInputTotalAtoms - params.redeemAmountAtoms then tokenCarrierSats else 0
  return params.prevBacking.valueSats + totalValue (params.tokenInputs ++ params.funderInputs) -
    (reserveAnchorSats + r.nextState.backingSats) - r.grossSats - changeCarrierValue -
    params.minerFeeSats

def RedeemParams.changeOutput (params : RedeemParams) : List Bytes :=
  params.leftover.toOption.elim []
    (changeScripts (params.funderChangeScript.getD params.sellerChangeScript))

/-- The carrier of what is not redeemed, where there is one. -/
def RedeemParams.tokenChange (params : RedeemParams) : List Bytes :=
  if 0 < params.tokenInputTotalAtoms - params.redeemAmountAtoms then [params.sellerChangeScript]
  else []

theorem redeem_weight {params : RedeemParams} {r : RedeemResult}
    (hkeys : XOnlyKeys C)
    (h : buildRedeemPsbtV3 C scriptForKind params = .ok r) (hsigned : r.psbt.SignedAs tx) :
    tx.weight = 36 +
      countWeight (params.tokenInputs.length + params.funderInputs.length + 1) +
      (332 + (varSlice r.prevVault.redeemControlBlock).length +
        ((params.tokenInputs.map ResolvedInput.signedWeight).sum +
          (params.funderInputs.map ResolvedInput.signedWeight).sum)) +
      (pricedOutput (47 + 9 * params.tokenChange.length) + pricedOutput 34 +
        outputWeight params.sellerPayoutScript + outputWeight params.feeScript) +
      (params.tokenChange.map outputWeight).sum +
      (params.changeOutput.map outputWeight).sum := by
  have hins := hsigned.ins
  simp only [buildRedeemPsbtV3, bind_eq_ok, ensure_eq_ok, pure_eq_ok] at h
  obtain ⟨canonical, hcanonical, prevVault, hprev, nextVault, hnext, redeemFee, hfee, _, -, wire,
    hwire, input0, hinput0, first, hfirst, inputs, hinputs, outs, houts, _, hchange, settled,
    hsettled, rfl⟩ := h
  obtain ⟨hcount, hinsWeight⟩ :=
    signed_behind (backingVault_lengths hkeys hprev).redeemLeaf hinput0 hfirst hinputs hins
  have hleftover : params.leftover = .ok (params.prevBacking.valueSats +
      totalValue (params.tokenInputs ++ params.funderInputs) -
      (reserveAnchorSats + canonical.nextState.backingSats) - (canonical.grossSats - redeemFee) -
      redeemFee - (if 0 < params.tokenInputTotalAtoms - params.redeemAmountAtoms then
        tokenCarrierSats else 0) - params.minerFeeSats) := by
    simp only [RedeemParams.leftover, bind_eq_ok, pure_eq_ok]
    refine ⟨canonical, hcanonical, ?_⟩
    omega
  have hchangeOutput {sats : Int} (hsats : params.leftover = .ok sats) : params.changeOutput =
      changeScripts (params.funderChangeScript.getD params.sellerChangeScript) sats := by
    rw [RedeemParams.changeOutput, hsats]
    rfl
  have hscripts := settled_scripts houts hchange hsettled
  rw [← hchangeOutput hleftover] at hscripts
  have hchangeOne : params.changeOutput.length ≤ 1 := by
    rw [hchangeOutput hleftover]
    exact changeScripts_length _ _
  have hvaultWeight := outputWeight_of_length (backingVault_lengths hkeys hnext).scriptPubKey
    (by omega)
  have hlength := length_encodeRedeemV2 hwire
  rw [hsigned.weight hcount hinsWeight hscripts, lengthExcess_eq_zero]
  · rw [RedeemParams.tokenChange]
    split at hlength
    · rename_i hpos
      have hopReturn : outputWeight (opReturnScript wire) = pricedOutput 56 :=
        opReturn_weight hlength (by simp)
      simp only [if_pos hpos, List.map_append, List.map_cons, List.map_nil, List.sum_append,
        List.sum_cons, List.sum_nil, hopReturn, hvaultWeight, List.length_append, List.length_cons,
        List.length_nil]
      unfold pricedOutput
      omega
    · rename_i hnone
      have hopReturn : outputWeight (opReturnScript wire) = pricedOutput 47 :=
        opReturn_weight hlength (by simp)
      simp only [if_neg hnone, List.map_append, List.map_cons, List.map_nil, List.sum_append,
        List.sum_cons, List.sum_nil, hopReturn, hvaultWeight, List.length_append, List.length_nil]
      unfold pricedOutput
      omega
  · split
    · simp only [List.length_append, List.length_map, List.length_cons, List.length_nil]
      omega
    · simp only [List.length_append, List.length_map, List.length_cons, List.length_nil]
      omega

end

end Cove
