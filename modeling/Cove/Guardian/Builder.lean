import Cove.Covenant.Transition
import Cove.Guardian.Analyze
import Cove.Indexer.Chain

/-! The PSBT builders: `packages/cove-guardian/src/v3/builder.ts`, over `psbtInputFor` of
`packages/bitcoin/src/spend.ts`. A redeem script is for the wallet alone and is left out. -/

namespace Cove

open Checked

structure ResolvedInput where
  txid : Bytes
  vout : Nat
  script : Bytes
  valueSats : Int
  publicKey : Option Bytes := none
  deriving DecidableEq, Repr

def ResolvedInput.outpoint (i : ResolvedInput) : OutPoint := ⟨i.txid, i.vout⟩

inductive SpendKind
  | p2wpkh
  | p2shP2wpkh
  | p2tr
  deriving DecidableEq, Repr

def SpendKind.text : SpendKind → String
  | p2wpkh => "p2wpkh"
  | p2shP2wpkh => "p2sh-p2wpkh"
  | p2tr => "p2tr"

def spendKindOf (script : Bytes) : Option SpendKind :=
  if isP2WPKH script then some .p2wpkh
  else if isP2TR script then some .p2tr
  else if isP2SH script then some .p2shP2wpkh
  else none

def xOnly (publicKey : Bytes) : Bytes :=
  if publicKey.length = 32 then publicKey else (publicKey.drop 1).take 32

/-- `scriptForKind`, whose curve and hashes are another package's. It throws on a bad key. -/
abbrev ScriptForKind := SpendKind → Bytes → Except Fault Bytes

def cannotSpend (input : ResolvedInput) (why : String) : Fault :=
  ⟨none, "cannot spend " ++ input.outpoint.text ++ ": " ++ why⟩

/-- The fields every kind of input has. A PSBT cannot be serialized with any other value. -/
def ResolvedInput.psbtInput (input : ResolvedInput) : Except Fault PsbtInput := do
  ensure (0 ≤ input.valueSats ∧ input.valueSats ≤ 9007199254740991) ⟨none, "value out of range"⟩
  return {
    hash := input.txid.reverse
    index := input.vout
    witnessUtxo := some ⟨input.script, input.valueSats.toNat⟩ }

def psbtInputFor (scriptForKind : ScriptForKind) (input : ResolvedInput) :
    Except Fault PsbtInput := do
  let kind ← demand (spendKindOf input.script) (cannotSpend input
    ("unsupported address type (script " ++ Bytes.hexString (input.script.take 8) ++ "…)"))
  let base ← input.psbtInput
  if kind = .p2wpkh then return base
  let publicKey ← demand input.publicKey
    (cannotSpend input ("a " ++ kind.text ++ " input needs the owner's public key"))
  let derived ← scriptForKind kind publicKey
  ensure (derived = input.script)
    (cannotSpend input "the supplied public key does not control it")
  if kind = .p2shP2wpkh then return base
  return { base with tapInternalKey := some (xOnly publicKey) }

/-- `psbt.addInput`, which wants a 32-byte hash, a 32-bit index and an outpoint not spent yet. -/
def addInput (inputs : List PsbtInput) (input : PsbtInput) : Except Fault (List PsbtInput) := do
  ensure (input.hash.length = 32 ∧ input.index < 2 ^ 32)
    ⟨none, "Expected a Hash256bit and a UInt32"⟩
  ensure (input.outpoint ∉ inputs.map PsbtInput.outpoint) ⟨none, "Duplicate input detected."⟩
  return inputs ++ [input]

/-- The loops over resolved inputs. -/
def addInputs (scriptForKind : ScriptForKind) (inputs : List PsbtInput) :
    List ResolvedInput → Except Fault (List PsbtInput)
  | [] => .ok inputs
  | r :: rest => do
    let input ← psbtInputFor scriptForKind r
    let inputs ← addInput inputs input
    addInputs scriptForKind inputs rest

structure Payment where
  script : Bytes
  valueSats : Int
  deriving DecidableEq, Repr

/-- `psbt.addOutput`, which takes no value outside the supply. -/
def addOutput (outs : List TxOut) (p : Payment) : Except Fault (List TxOut) := do
  ensure (0 ≤ p.valueSats ∧ p.valueSats ≤ 2100000000000000)
    ⟨none, s!"Expected property 1 of type Satoshi, got {p.valueSats}"⟩
  return outs ++ [⟨p.script, p.valueSats.toNat⟩]

def addOutputs (outs : List TxOut) : List Payment → Except Fault (List TxOut)
  | [] => .ok outs
  | p :: rest => do
    let outs ← addOutput outs p
    addOutputs outs rest

structure SettledChange where
  txOutputs : List TxOut
  minerFeeSats : Int
  changeSats : Int
  absorbedSats : Int
  deriving DecidableEq, Repr

/-- Change below the dust threshold goes to the miner. -/
def addChangeOrAbsorb (outs : List TxOut) (changeScript : Bytes) (changeSats minerFeeSats : Int) :
    Except Fault SettledChange := do
  if changeSats ≤ 0 then return ⟨outs, minerFeeSats, 0, 0⟩
  if dustThreshold changeScript ≤ changeSats then
    let outs ← addOutput outs ⟨changeScript, changeSats⟩
    return ⟨outs, minerFeeSats, changeSats, 0⟩
  return ⟨outs, minerFeeSats + changeSats, 0, changeSats⟩

def totalValue (inputs : List ResolvedInput) : Int := (inputs.map ResolvedInput.valueSats).sum

/-- The vault's input, with one execution leaf. -/
def vaultInput (prevBacking : ResolvedInput) (vault : CoveVaultV3) (leaf : CoveVaultLeaf)
    (controlBlock : Bytes) : Except Fault PsbtInput := do
  let base ← prevBacking.psbtInput
  return { base with
    tapInternalKey := some vault.numsKey
    tapMerkleRoot := some vault.merkleRoot
    tapLeafScript := [⟨leaf.script, controlBlock⟩] }

/-! MINT. -/

structure MintParams where
  tokenId : Bytes
  prevState : CoveStateV2
  prevBacking : ResolvedInput
  mintAmountAtoms : Int
  keys : VaultKeys
  buyerInputs : List ResolvedInput
  buyerCarrierScript : Bytes
  buyerChangeScript : Bytes
  feeScript : Bytes
  creatorScript : Bytes
  creatorFeeBps : Option Int := none
  minerFeeSats : Int
  buyFeeBps : Option Int := none
  buyFeeFlatSats : Option Int := none
  discoveryEnvelope : Option Bytes := none
  deriving DecidableEq, Repr

structure MintResult where
  psbt : Psbt
  prevVault : CoveVaultV3
  nextState : CoveStateV2
  nextVault : CoveVaultV3
  grossSats : Int
  buyFeeSats : Int
  creatorFeeSats : Int
  wire : Bytes
  minerFeeSats : Int
  deriving DecidableEq, Repr

/-- The advisory envelope, derived from the binary one, always last. -/
def addDiscovery (outs : List TxOut) (wire : Bytes) (ticker : Option Bytes) :
    Except Fault (List TxOut) :=
  match ticker with
  | none => .ok outs
  | some ticker => do
    let binary ← decodeV2 wire
    let discovery ← encodeDiscovery binary (some ticker)
    addOutput outs ⟨opReturnScript discovery, 0⟩

def buildMintPsbtV3 (C : Crypto) (scriptForKind : ScriptForKind) (params : MintParams) :
    Except Fault MintResult := do
  let r ← applyMintV2 params.prevState params.mintAmountAtoms
  let prevVault ← buildBackingVaultV3 C params.prevState params.keys
  let nextVault ← buildBackingVaultV3 C r.nextState params.keys
  let buyFeeSats ← mintFeeSats r.grossSats params.mintAmountAtoms
    (params.buyFeeBps.getD coveFeeConfig.buyFeeBps)
    (params.buyFeeFlatSats.getD coveFeeConfig.buyFeeFlatSats) coveFeeConfig.buyFeeLotSats
  let wire ← encodeMintV2 params.tokenId params.mintAmountAtoms 2
  let input0 ← vaultInput params.prevBacking prevVault prevVault.mintLeaf
    prevVault.mintControlBlock
  let inputs ← addInput [] input0
  let inputs ← addInputs scriptForKind inputs params.buyerInputs
  let successorValue := reserveAnchorSats + r.nextState.backingSats
  let creatorFee ← creatorFeeSats r.grossSats
    (params.creatorFeeBps.getD coveFeeConfig.creatorFeeBps)
  let outs ← addOutputs [] [
    ⟨opReturnScript wire, 0⟩,
    ⟨nextVault.scriptPubKey, successorValue⟩,
    ⟨params.buyerCarrierScript, tokenCarrierSats⟩,
    ⟨params.feeScript, buyFeeSats⟩,
    ⟨params.creatorScript, creatorFee⟩]
  let totalIn := params.prevBacking.valueSats + totalValue params.buyerInputs
  let change := totalIn - successorValue - tokenCarrierSats - buyFeeSats - creatorFee -
    params.minerFeeSats
  ensure (0 ≤ change) ⟨none, "insufficient buyer funds"⟩
  let settled ← addChangeOrAbsorb outs params.buyerChangeScript change params.minerFeeSats
  let outs ← addDiscovery settled.txOutputs wire params.discoveryEnvelope
  return {
    psbt := { inputs, txOutputs := outs }
    prevVault
    nextState := r.nextState
    nextVault
    grossSats := r.grossSats
    buyFeeSats
    creatorFeeSats := creatorFee
    wire
    minerFeeSats := settled.minerFeeSats }

/-! TRANSFER. -/

structure TokenOutput where
  script : Bytes
  amountAtoms : Int
  deriving DecidableEq, Repr

structure TransferParams where
  tokenId : Bytes
  tokenInputs : List ResolvedInput
  tokenInputTotalAtoms : Int
  tokenOutputs : List TokenOutput
  funderInputs : List ResolvedInput
  funderChangeScript : Bytes
  btcOutputs : List Payment
  minerFeeSats : Int
  deriving DecidableEq, Repr

structure TransferResult where
  psbt : Psbt
  wire : Bytes
  allocations : List TokenAllocation
  minerFeeSats : Int
  deriving DecidableEq, Repr

/-- The token outputs follow the `OP_RETURN`. -/
def TransferParams.allocations (params : TransferParams) : List TokenAllocation :=
  params.tokenOutputs.zipIdx.map fun (o, i) => ⟨i + 1, o.amountAtoms⟩

def TransferParams.payments (params : TransferParams) (wire : Bytes) : List Payment :=
  ⟨opReturnScript wire, 0⟩ :: params.tokenOutputs.map (fun o => ⟨o.script, tokenCarrierSats⟩) ++
    params.btcOutputs

def buildTransferPsbtV2 (scriptForKind : ScriptForKind) (params : TransferParams) :
    Except Fault TransferResult := do
  ensure (params.tokenOutputs ≠ []) ⟨none, "no token outputs"⟩
  ensure (params.tokenOutputs.length ≤ 4) ⟨none, "max 4 token outputs"⟩
  let tokenOutTotal := (params.tokenOutputs.map TokenOutput.amountAtoms).sum
  ensure (tokenOutTotal = params.tokenInputTotalAtoms) ⟨none,
    s!"token conservation violated: in={params.tokenInputTotalAtoms} out={tokenOutTotal}"⟩
  let wire ← encodeTransferV2 params.tokenId params.allocations
  let inputs ← addInputs scriptForKind [] (params.tokenInputs ++ params.funderInputs)
  let outs ← addOutputs [] (params.payments wire)
  let totalIn := totalValue (params.tokenInputs ++ params.funderInputs)
  let carriersOut := (params.tokenOutputs.length : Int) * tokenCarrierSats
  let btcOut := (params.btcOutputs.map Payment.valueSats).sum
  let change := totalIn - carriersOut - btcOut - params.minerFeeSats
  ensure (0 ≤ change) ⟨none, "insufficient transfer funds"⟩
  let settled ← addChangeOrAbsorb outs params.funderChangeScript change params.minerFeeSats
  return {
    psbt := { inputs, txOutputs := settled.txOutputs }
    wire
    allocations := params.allocations
    minerFeeSats := settled.minerFeeSats }

/-! REDEEM. -/

structure RedeemParams where
  tokenId : Bytes
  prevState : CoveStateV2
  prevBacking : ResolvedInput
  redeemAmountAtoms : Int
  tokenInputs : List ResolvedInput
  tokenInputTotalAtoms : Int
  keys : VaultKeys
  sellerPayoutScript : Bytes
  sellerChangeScript : Bytes
  feeScript : Bytes
  minerFeeSats : Int
  funderInputs : List ResolvedInput := []
  funderChangeScript : Option Bytes := none
  redeemFeeBps : Option Int := none
  redeemFeeFlatSats : Option Int := none
  deriving DecidableEq, Repr

structure RedeemResult where
  psbt : Psbt
  prevVault : CoveVaultV3
  nextState : CoveStateV2
  nextVault : CoveVaultV3
  grossSats : Int
  redeemFeeSats : Int
  netSats : Int
  changeAtoms : Int
  wire : Bytes
  minerFeeSats : Int
  deriving DecidableEq, Repr

def buildRedeemPsbtV3 (C : Crypto) (scriptForKind : ScriptForKind) (params : RedeemParams) :
    Except Fault RedeemResult := do
  let r ← applyRedeemV2 params.prevState params.redeemAmountAtoms
  let prevVault ← buildBackingVaultV3 C params.prevState params.keys
  let nextVault ← buildBackingVaultV3 C r.nextState params.keys
  let redeemFee ← redeemFeeSats r.grossSats (params.redeemFeeBps.getD coveFeeConfig.redeemFeeBps)
    (params.redeemFeeFlatSats.getD coveFeeConfig.redeemFeeFlatSats) coveFeeConfig.redeemFeeMinSats
  let netSats := r.grossSats - redeemFee
  let changeAtoms := params.tokenInputTotalAtoms - params.redeemAmountAtoms
  ensure (0 ≤ changeAtoms) ⟨none, "redeem exceeds token input"⟩
  let wire ← encodeRedeemV2 params.tokenId params.redeemAmountAtoms
    (if 0 < changeAtoms then [⟨4, changeAtoms⟩] else [])
  let input0 ← vaultInput params.prevBacking prevVault prevVault.redeemLeaf
    prevVault.redeemControlBlock
  let inputs ← addInput [] input0
  -- Funder inputs go last, behind the token carriers.
  let inputs ← addInputs scriptForKind inputs (params.tokenInputs ++ params.funderInputs)
  let successorValue := reserveAnchorSats + r.nextState.backingSats
  let outs ← addOutputs [] ([
    ⟨opReturnScript wire, 0⟩,
    ⟨nextVault.scriptPubKey, successorValue⟩,
    ⟨params.sellerPayoutScript, netSats⟩,
    ⟨params.feeScript, redeemFee⟩] ++
    if 0 < changeAtoms then [⟨params.sellerChangeScript, tokenCarrierSats⟩] else [])
  let totalIn := params.prevBacking.valueSats +
    totalValue (params.tokenInputs ++ params.funderInputs)
  let changeCarrierValue := if 0 < changeAtoms then tokenCarrierSats else 0
  let change := totalIn - successorValue - netSats - redeemFee - changeCarrierValue -
    params.minerFeeSats
  ensure (0 ≤ change) ⟨none, s!"insufficient redeem funds: need {-change} more sats; " ++
    "add a BTC funding input (carriers alone cover only " ++
    s!"{params.tokenInputs.length * 1000} sats)"⟩
  let settled ← addChangeOrAbsorb outs (params.funderChangeScript.getD params.sellerChangeScript)
    change params.minerFeeSats
  return {
    psbt := { inputs, txOutputs := settled.txOutputs }
    prevVault
    nextState := r.nextState
    nextVault
    grossSats := r.grossSats
    redeemFeeSats := redeemFee
    netSats
    changeAtoms
    wire
    minerFeeSats := settled.minerFeeSats }

/-! What the parts of a PSBT come from. -/

/-- The input built for a coin. -/
structure InputFor (r : ResolvedInput) (i : PsbtInput) : Prop where
  outpoint : i.outpoint = r.outpoint
  prevout : ∃ v : Nat, i.witnessUtxo = some ⟨r.script, v⟩ ∧ (v : Int) = r.valueSats

/-- The output built for a payment. -/
structure OutputFor (p : Payment) (o : TxOut) : Prop where
  script : o.script = p.script
  value : (o.value : Int) = p.valueSats

section

variable {scriptForKind : ScriptForKind}

theorem ResolvedInput.psbtInput_ok {r : ResolvedInput} {i : PsbtInput}
    (h : r.psbtInput = .ok i) : InputFor r i := by
  simp only [psbtInput, bind_eq_ok, ensure_eq_ok, pure_eq_ok] at h
  obtain ⟨_, ⟨hnonneg, -⟩, rfl⟩ := h
  refine ⟨?_, _, rfl, Int.toNat_of_nonneg hnonneg⟩
  rw [PsbtInput.outpoint, List.reverse_reverse]
  rfl

theorem psbtInputFor_ok {r : ResolvedInput} {i : PsbtInput}
    (h : psbtInputFor scriptForKind r = .ok i) : InputFor r i := by
  simp only [psbtInputFor, bind_eq_ok, demand_eq_ok] at h
  obtain ⟨kind, -, base, hbase, h⟩ := h
  have hfor := ResolvedInput.psbtInput_ok hbase
  split at h
  · rw [← Except.ok.inj h]
    exact hfor
  · simp only [bind_eq_ok, demand_eq_ok, ensure_eq_ok] at h
    obtain ⟨publicKey, -, derived, -, _, -, h⟩ := h
    split at h
    · rw [← Except.ok.inj h]
      exact hfor
    · rw [← Except.ok.inj h]
      exact ⟨hfor.outpoint, hfor.prevout⟩

theorem vaultInput_ok {r : ResolvedInput} {vault : CoveVaultV3} {leaf : CoveVaultLeaf}
    {controlBlock : Bytes} {i : PsbtInput} (h : vaultInput r vault leaf controlBlock = .ok i) :
    InputFor r i ∧ i.tapInternalKey = some vault.numsKey ∧
      i.tapMerkleRoot = some vault.merkleRoot ∧ i.tapLeafScript = [⟨leaf.script, controlBlock⟩] := by
  simp only [vaultInput, bind_eq_ok, pure_eq_ok] at h
  obtain ⟨base, hbase, rfl⟩ := h
  have hfor := ResolvedInput.psbtInput_ok hbase
  exact ⟨⟨hfor.outpoint, hfor.prevout⟩, rfl, rfl, rfl⟩

theorem addInput_ok {inputs out : List PsbtInput} {i : PsbtInput} (h : addInput inputs i = .ok out) :
    out = inputs ++ [i] ∧ i.outpoint ∉ inputs.map PsbtInput.outpoint := by
  simp only [addInput, bind_eq_ok, ensure_eq_ok, pure_eq_ok] at h
  obtain ⟨_, -, _, hnew, rfl⟩ := h
  exact ⟨rfl, hnew⟩

/-- The loop adds one input for each coin, and none twice. -/
theorem addInputs_ok {inputs out : List PsbtInput} {rs : List ResolvedInput}
    (h : addInputs scriptForKind inputs rs = .ok out)
    (hnodup : (inputs.map PsbtInput.outpoint).Nodup) :
    ∃ added, out = inputs ++ added ∧ List.Forall₂ InputFor rs added ∧
      (out.map PsbtInput.outpoint).Nodup := by
  induction rs generalizing inputs with
  | nil =>
    cases h
    exact ⟨[], (List.append_nil _).symm, .nil, hnodup⟩
  | cons r rs ih =>
    simp only [addInputs, bind_eq_ok] at h
    obtain ⟨i, hi, mid, hmid, h⟩ := h
    obtain ⟨rfl, hnew⟩ := addInput_ok hmid
    have hnodup' : ((inputs ++ [i]).map PsbtInput.outpoint).Nodup := by
      rw [List.map_append, List.map_singleton, ← List.concat_eq_append]
      exact hnodup.concat hnew
    obtain ⟨added, rfl, hadded, hout⟩ := ih h hnodup'
    exact ⟨i :: added, by simp, .cons (psbtInputFor_ok hi) hadded, hout⟩

theorem addOutput_ok {outs out : List TxOut} {p : Payment} (h : addOutput outs p = .ok out) :
    ∃ o, out = outs ++ [o] ∧ OutputFor p o := by
  simp only [addOutput, bind_eq_ok, ensure_eq_ok, pure_eq_ok] at h
  obtain ⟨_, ⟨hnonneg, -⟩, rfl⟩ := h
  exact ⟨_, rfl, rfl, Int.toNat_of_nonneg hnonneg⟩

theorem addOutputs_ok {outs out : List TxOut} {ps : List Payment}
    (h : addOutputs outs ps = .ok out) :
    ∃ added, out = outs ++ added ∧ List.Forall₂ OutputFor ps added := by
  induction ps generalizing outs with
  | nil =>
    cases h
    exact ⟨[], (List.append_nil _).symm, .nil⟩
  | cons p ps ih =>
    simp only [addOutputs, bind_eq_ok] at h
    obtain ⟨mid, hmid, h⟩ := h
    obtain ⟨o, rfl, ho⟩ := addOutput_ok hmid
    obtain ⟨added, rfl, hadded⟩ := ih h
    exact ⟨o :: added, by simp, .cons ho hadded⟩

end

def outputTotal (outs : List TxOut) : Int := (outs.map fun o => (o.value : Int)).sum

@[simp] theorem outputTotal_append (a b : List TxOut) :
    outputTotal (a ++ b) = outputTotal a + outputTotal b := by
  simp [outputTotal]

theorem outputTotal_of_forall₂ {ps : List Payment} {outs : List TxOut}
    (h : List.Forall₂ OutputFor ps outs) :
    outputTotal outs = (ps.map Payment.valueSats).sum := by
  induction h with
  | nil => rfl
  | cons ho _ ih =>
    simp only [outputTotal, List.map_cons, List.sum_cons] at ih ⊢
    rw [ih, ho.value]

theorem totalIn_of_forall₂ {rs : List ResolvedInput} {inputs : List PsbtInput}
    (h : List.Forall₂ InputFor rs inputs) :
    (inputs.map PsbtInput.valueSats).sum = totalValue rs := by
  induction h with
  | nil => rfl
  | cons hi _ ih =>
    obtain ⟨v, hv, hvalue⟩ := hi.prevout
    simp only [totalValue, List.map_cons, List.sum_cons] at ih ⊢
    rw [ih, PsbtInput.valueSats, hv]
    simp only [Option.elim_some, hvalue]

/-- Change at a script is worth an output. -/
def WorthOutput (changeScript : Bytes) (sats : Int) : Prop :=
  0 < sats ∧ dustThreshold changeScript ≤ sats

/-- Change that is worth an output is one, other change is part of the fee. -/
theorem addChangeOrAbsorb_cases {outs : List TxOut} {changeScript : Bytes}
    {changeSats minerFeeSats : Int} {s : SettledChange}
    (h : addChangeOrAbsorb outs changeScript changeSats minerFeeSats = .ok s)
    (hnonneg : 0 ≤ changeSats) :
    (WorthOutput changeScript changeSats ∧ s.minerFeeSats = minerFeeSats ∧
      ∃ o, s.txOutputs = outs ++ [o] ∧ OutputFor ⟨changeScript, changeSats⟩ o) ∨
    ¬ WorthOutput changeScript changeSats ∧ s.minerFeeSats = minerFeeSats + changeSats ∧
      s.txOutputs = outs := by
  simp only [addChangeOrAbsorb] at h
  split_ifs at h with hnone hdust
  · obtain rfl := Except.ok.inj h
    exact .inr ⟨fun hworth => absurd hworth.1 (by omega), by dsimp only; omega, rfl⟩
  · simp only [bind_eq_ok, pure_eq_ok] at h
    obtain ⟨out, hout, rfl⟩ := h
    obtain ⟨o, rfl, ho⟩ := addOutput_ok hout
    exact .inl ⟨⟨by omega, hdust⟩, rfl, o, rfl, ho⟩
  · obtain rfl := Except.ok.inj h
    exact .inr ⟨fun hworth => hdust hworth.2, rfl, rfl⟩

/-- What the outputs and the fee add up to does not depend on where the change goes. -/
theorem addChangeOrAbsorb_total {outs : List TxOut} {changeScript : Bytes}
    {changeSats minerFeeSats : Int} {s : SettledChange}
    (h : addChangeOrAbsorb outs changeScript changeSats minerFeeSats = .ok s)
    (hnonneg : 0 ≤ changeSats) :
    outputTotal s.txOutputs + s.minerFeeSats = outputTotal outs + changeSats + minerFeeSats := by
  rcases addChangeOrAbsorb_cases h hnonneg with ⟨-, hfee, o, hs, ho⟩ | ⟨-, hfee, hs⟩
  · have hvalue := ho.value
    rw [hs, hfee, outputTotal_append, outputTotal, outputTotal, List.map_singleton,
      List.sum_singleton, hvalue]
  · rw [hs, hfee]
    omega

/-- What a transfer's PSBT spends and pays; the fee is what is left. -/
structure TransferBuilt (params : TransferParams) (r : TransferResult) : Prop where
  wire : encodeTransferV2 params.tokenId params.allocations = .ok r.wire
  allocations : r.allocations = params.allocations
  inputs : List.Forall₂ InputFor (params.tokenInputs ++ params.funderInputs) r.psbt.inputs
  nodup : (r.psbt.inputs.map PsbtInput.outpoint).Nodup
  outputs : ∃ paid, List.Forall₂ OutputFor (params.payments r.wire) paid ∧
    (r.psbt.txOutputs = paid ∨ ∃ change, r.psbt.txOutputs = paid ++ [change] ∧
      change.script = params.funderChangeScript)
  fee : outputTotal r.psbt.txOutputs + r.minerFeeSats =
    totalValue (params.tokenInputs ++ params.funderInputs)

theorem TransferParams.payments_total (params : TransferParams) (wire : Bytes) :
    ((params.payments wire).map Payment.valueSats).sum =
      (params.tokenOutputs.length : Int) * tokenCarrierSats +
        (params.btcOutputs.map Payment.valueSats).sum := by
  have hcarriers : ((params.tokenOutputs.map fun o => (⟨o.script, tokenCarrierSats⟩ : Payment)).map
      Payment.valueSats).sum = (params.tokenOutputs.length : Int) * tokenCarrierSats := by
    rw [List.map_map]
    simp [Function.comp_def]
  rw [payments, List.cons_append, List.map_cons, List.sum_cons, List.map_append, List.sum_append,
    hcarriers]
  dsimp only
  omega

theorem buildTransferPsbtV2_ok {scriptForKind : ScriptForKind} {params : TransferParams}
    {r : TransferResult} (h : buildTransferPsbtV2 scriptForKind params = .ok r) :
    TransferBuilt params r := by
  simp only [buildTransferPsbtV2, bind_eq_ok, ensure_eq_ok, pure_eq_ok] at h
  obtain ⟨_, -, _, -, _, -, wire, hwire, inputs, hinputs, outs, houts, _, hchange, settled,
    hsettled, rfl⟩ := h
  obtain ⟨added, rfl, hadded, hnodup⟩ := addInputs_ok hinputs List.nodup_nil
  obtain ⟨paid, rfl, hpaid⟩ := addOutputs_ok houts
  have htotal := addChangeOrAbsorb_total hsettled hchange
  rw [outputTotal_of_forall₂ hpaid, params.payments_total] at htotal
  constructor
  case wire => exact hwire
  case allocations => rfl
  case inputs => exact hadded
  case nodup => exact hnodup
  case outputs =>
    refine ⟨outs, hpaid, ?_⟩
    rcases addChangeOrAbsorb_cases hsettled hchange with ⟨-, -, o, hs, ho⟩ | ⟨-, -, hs⟩
    · exact .inr ⟨o, hs, ho.script⟩
    · exact .inl hs
  case fee =>
    dsimp only
    omega

end Cove
