import Cove.Covenant.StateCodec
import Cove.Guardian.MintV1
import Cove.Lib.Sha256

/-! What the first Guardian signs: every mint its own builder makes from an admissible request,
and none that its policy engine would refuse. `buildMintPsbt` of
`packages/cove-guardian/src/tx.ts`, `validateMint` of `policy.ts`, and `deserializeState` of
`packages/cove-covenant/src/state.ts`. -/

namespace Cove

open Checked

namespace V1

/-! The builder. -/

structure ResolvedInput where
  txid : Bytes
  vout : Nat
  script : Bytes
  valueSats : Int
  deriving DecidableEq, Repr

structure BuildMintPsbtParams where
  internalKey : Bytes
  intent : MintIntent
  stateInput : ResolvedInput
  buyerInputs : List ResolvedInput
  buyerChangeScript : Bytes
  minerFeeSats : Int
  network : GuardianNetwork
  deriving DecidableEq, Repr

def ResolvedInput.out (r : ResolvedInput) : TxOut := ⟨r.script, r.valueSats.toNat⟩

def ResolvedInput.psbtInput (r : ResolvedInput) : PsbtInput where
  hash := r.txid.reverse
  index := r.vout
  witnessUtxo := some r.out

/-- `psbt.addInput`, which wants a 32-byte hash, a 32-bit index and an outpoint not spent yet. A
PSBT cannot be serialized with a value that is no natural number within 53 bits. -/
def addInput (inputs : List PsbtInput) (r : ResolvedInput) : Except Fault (List PsbtInput) := do
  ensure (0 ≤ r.valueSats ∧ r.valueSats ≤ 9007199254740991) ⟨none, "value out of range"⟩
  ensure (r.txid.length = 32 ∧ r.vout < 2 ^ 32) ⟨none, "Expected a Hash256bit and a UInt32"⟩
  ensure (r.psbtInput.outpoint ∉ inputs.map PsbtInput.outpoint)
    ⟨none, "Duplicate input detected."⟩
  return inputs ++ [r.psbtInput]

def addInputs (inputs : List PsbtInput) : List ResolvedInput → Except Fault (List PsbtInput)
  | [] => .ok inputs
  | r :: rest => do
    let inputs ← addInput inputs r
    addInputs inputs rest

/-- `psbt.addOutput`, which takes no value outside the supply. -/
def addOutput (outs : List TxOut) (script : Bytes) (value : Int) : Except Fault (List TxOut) := do
  ensure (0 ≤ value ∧ value ≤ 2100000000000000)
    ⟨none, s!"Expected property 1 of type Satoshi, got {value}"⟩
  return outs ++ [⟨script, value.toNat⟩]

/-- An output that is there only when it holds something. -/
def addPositive (outs : List TxOut) (script : Bytes) (value : Int) : Except Fault (List TxOut) :=
  if 0 < value then addOutput outs script value else .ok outs

def BuildMintPsbtParams.totalBuyerIn (params : BuildMintPsbtParams) : Int :=
  (params.buyerInputs.map ResolvedInput.valueSats).sum

def buildMintPsbt (C : Crypto) (params : BuildMintPsbtParams) :
    Except Fault (Psbt × MintTxAnalysis) := do
  let intent := params.intent
  let canonical ← applyMint intent.prevState intent.amountAtoms
  let curveContributionSats := canonical.curveContributionSats
  let platformFeeSats ← Protocol.computePlatformFee curveContributionSats primaryMintFeeBps
  let inputs ← addInputs [] (params.stateInput :: params.buyerInputs)
  let successorScript ← stateOutputScript C canonical.nextState params.internalKey
  let outs ← addOutput [] successorScript (params.stateInput.valueSats + curveContributionSats)
  let outs ← addOutput outs intent.recipientCommitment tokenCommitmentSats
  let outs ← addPositive outs intent.platformFeeScript platformFeeSats
  let changeValue := params.totalBuyerIn - curveContributionSats - tokenCommitmentSats -
    platformFeeSats - params.minerFeeSats
  ensure (0 ≤ changeValue) ⟨some "INSUFFICIENT_FUNDS", "buyer inputs do not cover the mint"⟩
  let outs ← addPositive outs params.buyerChangeScript changeValue
  let psbt : Psbt := { network := bitcoinNetworkFor params.network, inputs, txOutputs := outs }
  let analysis ← computeMintAnalysis C psbt params.internalKey intent
  return (psbt, analysis)

section

variable {C : Crypto} {params : BuildMintPsbtParams} {psbt : Psbt} {analysis : MintTxAnalysis}

theorem addInputs_eq_ok {inputs built : List PsbtInput} {l : List ResolvedInput}
    (h : addInputs inputs l = .ok built) :
    built = inputs ++ l.map ResolvedInput.psbtInput ∧ ∀ r ∈ l, 0 ≤ r.valueSats := by
  induction l generalizing inputs with
  | nil =>
    cases h
    simp
  | cons r l ih =>
    simp only [addInputs, addInput, bind_eq_ok, ensure_eq_ok, pure_eq_ok, exists_const] at h
    obtain ⟨-, ⟨hvalue, -, -, rfl⟩, hrest⟩ := h
    obtain ⟨hbuilt, hnonneg⟩ := ih hrest
    constructor
    · rw [hbuilt, List.append_assoc, List.map_cons]
      rfl
    · intro r' hr'
      rcases List.mem_cons.mp hr' with rfl | hr'
      · exact hvalue.1
      · exact hnonneg r' hr'

theorem resolveInputs_built (i : Nat) (l : List ResolvedInput) :
    resolveInputs i (l.map ResolvedInput.psbtInput) = .ok (l.map ResolvedInput.out) := by
  induction l generalizing i with
  | nil => rfl
  | cons r l ih =>
    rw [List.map_cons, resolveInputs, ih]
    rfl

theorem sats_built {l : List ResolvedInput} (h : ∀ r ∈ l, 0 ≤ r.valueSats) :
    sats (l.map ResolvedInput.out) = (l.map ResolvedInput.valueSats).sum := by
  induction l with
  | nil => rfl
  | cons r l ih =>
    have hhead := h r List.mem_cons_self
    have htail := ih fun r' hr' => h r' (List.mem_cons_of_mem _ hr')
    rw [List.map_cons, List.map_cons, sats_cons, htail, List.sum_cons, ResolvedInput.out]
    dsimp only
    omega

theorem addPositive_eq_ok {outs built : List TxOut} {script : Bytes} {value : Int} :
    addPositive outs script value = .ok built ↔
      (0 < value → value ≤ 2100000000000000) ∧ outs ++ platformOutputs value script = built := by
  unfold addPositive platformOutputs
  split
  · next hpos =>
    simp only [addOutput, bind_eq_ok, ensure_eq_ok, pure_eq_ok, exists_const]
    constructor
    · intro h
      exact ⟨fun _ => h.1.2, h.2⟩
    · intro h
      exact ⟨⟨hpos.le, h.1 hpos⟩, h.2⟩
  · next hpos =>
    rw [Except.ok.injEq, List.append_nil]
    constructor
    · intro h
      exact ⟨fun hvalue => absurd hvalue hpos, h⟩
    · intro h
      exact h.2

/-- The state's script is the first input's and no other's. -/
theorem stateIndices_first {stateScript : Bytes} {first : TxOut} {rest : List TxOut} {i : Nat}
    (hfirst : first.script = stateScript) :
    stateIndices stateScript (first :: rest) = [i] ↔
      i = 0 ∧ ∀ out ∈ rest, out.script ≠ stateScript := by
  have hzero : 0 ∈ stateIndices stateScript (first :: rest) :=
    mem_stateIndices.mpr ⟨Nat.succ_pos _, hfirst⟩
  constructor
  · intro h
    rw [h, List.mem_singleton] at hzero
    refine ⟨hzero.symm, ?_⟩
    intro out hout hscript
    obtain ⟨k, hk, rfl⟩ := List.mem_iff_getElem.mp hout
    have hlater : k + 1 ∈ stateIndices stateScript (first :: rest) := by
      refine mem_stateIndices.mpr ⟨Nat.succ_lt_succ hk, ?_⟩
      rw [List.getD_cons_succ, getD_of_lt hk]
      exact hscript
    rw [h, List.mem_singleton] at hlater
    omega
  · intro h
    obtain ⟨rfl, hothers⟩ := h
    have hnone : ∀ k, k + 1 ∉ stateIndices stateScript (first :: rest) := by
      intro k hmem
      obtain ⟨hk, hscript⟩ := mem_stateIndices.mp hmem
      have hk' : k < rest.length := Nat.lt_of_succ_lt_succ hk
      rw [List.getD_cons_succ, getD_of_lt hk'] at hscript
      exact hothers _ (List.getElem_mem hk') hscript
    have hnodup : (stateIndices stateScript (first :: rest)).Nodup :=
      List.nodup_range.filter _
    apply List.perm_singleton.mp
    apply (List.perm_ext_iff_of_nodup hnodup (List.nodup_singleton 0)).mpr
    intro k
    rw [List.mem_singleton]
    cases k with
    | zero => exact iff_of_true hzero rfl
    | succ k => exact iff_of_false (hnone k) (Nat.succ_ne_zero k)

/-- What a request must be for the Guardian to sign what is built from it. -/
structure Admissible (params : BuildMintPsbtParams) (platformFeeSats : Int) : Prop where
  network : params.network ≠ .mainnet
  invariants : validateStateInvariants params.intent.prevState true = .ok ()
  recipient : isWellFormedCommitment params.intent.recipientCommitment = true
  platform : 0 < platformFeeSats → isWellFormedCommitment params.intent.platformFeeScript = true
  reserve : params.stateInput.valueSats = params.intent.prevState.reserveSats + reserveAnchorSats
  buyers : ∀ r ∈ params.buyerInputs, r.script ≠ params.stateInput.script
  fee_nonneg : 0 ≤ params.minerFeeSats
  fee_le : params.minerFeeSats ≤ maxFeeSats

theorem length_platformOutputs (value : Int) (script : Bytes) :
    (platformOutputs value script).length ≤ 1 := by
  unfold platformOutputs
  split
  · exact le_refl 1
  · exact Nat.zero_le 1

/-- A transaction the builder made: the facts of its steps. -/
structure MintBuilt (C : Crypto) (params : BuildMintPsbtParams) (psbt : Psbt)
    (analysis : MintTxAnalysis) (canonical : MintResult) (platformFeeSats changeValue : Int) :
    Prop where
  minted : applyMint params.intent.prevState params.intent.amountAtoms = .ok canonical
  charged : Protocol.computePlatformFee canonical.curveContributionSats primaryMintFeeBps =
    .ok platformFeeSats
  network : psbt.network = bitcoinNetworkFor params.network
  resolves : resolveAllInputs psbt =
    .ok ((params.stateInput :: params.buyerInputs).map ResolvedInput.out)
  values : ∀ r ∈ params.stateInput :: params.buyerInputs, 0 ≤ r.valueSats
  pays : ∃ successor : TxOut,
    stateOutputScript C canonical.nextState params.internalKey = .ok successor.script ∧
      (successor.value : Int) = params.stateInput.valueSats + canonical.curveContributionSats ∧
      psbt.txOutputs =
        successor :: ⟨params.intent.recipientCommitment, tokenCommitmentSats.toNat⟩ ::
          (platformOutputs platformFeeSats params.intent.platformFeeScript ++
            platformOutputs changeValue params.buyerChangeScript)
  change : changeValue = params.totalBuyerIn - canonical.curveContributionSats -
    tokenCommitmentSats - platformFeeSats - params.minerFeeSats
  change_nonneg : 0 ≤ changeValue
  small : sats psbt.txOutputs ≤ 4 * 2100000000000000
  analyzed : computeMintAnalysis C psbt params.internalKey params.intent = .ok analysis

theorem buildMintPsbt_built (h : buildMintPsbt C params = .ok (psbt, analysis)) :
    ∃ canonical platformFeeSats changeValue,
      MintBuilt C params psbt analysis canonical platformFeeSats changeValue := by
  simp only [buildMintPsbt, addOutput, addPositive_eq_ok, bind_eq_ok, ensure_eq_ok, pure_eq_ok,
    exists_const] at h
  obtain ⟨canonical, hminted, platformFeeSats, hcharged, inputs, hinputs, successorScript, hnext,
    outs₁, ⟨hsuccessor, rfl⟩, outs₂, ⟨-, rfl⟩, outs₃, ⟨hplatform, rfl⟩, hchange, outs₄,
    ⟨hrest, rfl⟩, analysis', hanalyzed, heq⟩ := h
  obtain ⟨rfl, rfl⟩ := Prod.mk.inj heq
  obtain ⟨rfl, hvalues⟩ := addInputs_eq_ok hinputs
  obtain ⟨changeValue, hdef⟩ : ∃ c, c = params.totalBuyerIn - canonical.curveContributionSats -
    tokenCommitmentSats - platformFeeSats - params.minerFeeSats := ⟨_, rfl⟩
  rw [← hdef] at hchange hrest hanalyzed ⊢
  refine ⟨canonical, platformFeeSats, changeValue, ?_⟩
  exact {
    minted := hminted
    charged := hcharged
    network := rfl
    resolves := resolveInputs_built 0 _
    values := hvalues
    pays := ⟨⟨successorScript,
        (params.stateInput.valueSats + canonical.curveContributionSats).toNat⟩, hnext, by
          dsimp only
          omega, by simp⟩
    change := hdef
    change_nonneg := hchange
    small := by
      have hcommitment : ((tokenCommitmentSats.toNat : Nat) : Int) = 1000 := rfl
      have hnil : sats [] = 0 := rfl
      simp only [List.nil_append, sats_append, sats_cons, sats_platformOutputs, hnil, hcommitment]
      split_ifs <;> omega
    analyzed := hanalyzed }

section

variable {canonical : MintResult} {platformFeeSats changeValue : Int}

theorem MintBuilt.sats_in
    (h : MintBuilt C params psbt analysis canonical platformFeeSats changeValue) :
    sats ((params.stateInput :: params.buyerInputs).map ResolvedInput.out) =
      params.stateInput.valueSats + params.totalBuyerIn :=
  (sats_built h.values).trans (List.sum_cons)

/-- The fee asked for is the fee paid. -/
theorem MintBuilt.minerFee
    (h : MintBuilt C params psbt analysis canonical platformFeeSats changeValue) :
    sats ((params.stateInput :: params.buyerInputs).map ResolvedInput.out) -
      sats psbt.txOutputs = params.minerFeeSats := by
  obtain ⟨successor, -, hvalue, houts⟩ := h.pays
  have hcommitment : ((tokenCommitmentSats.toNat : Nat) : Int) = tokenCommitmentSats := rfl
  have hfee := platformFee_nonneg h.minted h.charged
  have hnonneg := h.change_nonneg
  have hchange := h.change
  rw [h.sats_in, houts, sats_cons, sats_cons, sats_append, sats_platformOutputs,
    sats_platformOutputs, hcommitment]
  split_ifs <;> omega

theorem MintBuilt.accepted
    (h : MintBuilt C params psbt analysis canonical platformFeeSats changeValue)
    (hstate : stateOutputScript C params.intent.prevState params.internalKey =
      .ok params.stateInput.script) (hadm : Admissible params platformFeeSats) :
    Accepted C params.internalKey psbt params.intent canonical platformFeeSats
      ((params.stateInput :: params.buyerInputs).map ResolvedInput.out) 0
      (platformOutputs changeValue params.buyerChangeScript) := by
  obtain ⟨successor, hnext, hvalue, houts⟩ := h.pays
  have hpos := applyMint_pos h.minted
  have hmoved := applyMint_reserve h.minted
  have hfee := platformFee_nonneg h.minted h.charged
  have hnonneg := h.change_nonneg
  have hchange := h.change
  have hreserve := hadm.reserve
  have hminer := hadm.fee_nonneg
  have hminer' := hadm.fee_le
  have hpaid := h.minerFee
  have hsmall := h.small
  have hfirst := h.values params.stateInput List.mem_cons_self
  have hbuyers := sats_built fun r hr => h.values r (List.mem_cons_of_mem _ hr)
  have hcommitment : tokenCommitmentSats = 1000 := rfl
  exact {
    invariants := hadm.invariants
    minted := h.minted
    charged := h.charged
    recipient := hadm.recipient
    platform := hadm.platform
    resolves := h.resolves
    spends := by
      refine ⟨params.stateInput.script, hstate, (stateIndices_first rfl).mpr ⟨rfl, ?_⟩⟩
      intro out hout
      obtain ⟨r, hr, rfl⟩ := List.mem_map.mp hout
      exact hadm.buyers r hr
    reserve := by
      rw [← hreserve]
      exact Int.toNat_of_nonneg hfirst
    funded := by
      have hrest : sats (params.buyerInputs.map ResolvedInput.out) = params.totalBuyerIn := hbuyers
      rw [List.map_cons, List.eraseIdx_cons_zero, hrest]
      omega
    pays := ⟨successor, hnext, by omega, houts⟩
    change_le := length_platformOutputs changeValue params.buyerChangeScript
    fee_nonneg := by omega
    fee_le := by omega
    fits := by
      have hmax : 4 * 2100000000000000 + maxFeeSats ≤ u64Max := by decide
      omega }

theorem MintBuilt.admissible
    (h : MintBuilt C params psbt analysis canonical platformFeeSats changeValue)
    (hstate : stateOutputScript C params.intent.prevState params.internalKey =
      .ok params.stateInput.script)
    (hsigned : signMintTx C params.internalKey params.network psbt params.intent = .ok analysis) :
    Admissible params platformFeeSats := by
  obtain ⟨hmain, -, canonical', platformFeeSats', resolved, i, change, haccepted, -⟩ :=
    signMintTx_eq_ok.mp hsigned
  have hcanonical := haccepted.minted
  rw [h.minted, Except.ok.injEq] at hcanonical
  subst hcanonical
  have hcharged := haccepted.charged
  rw [h.charged, Except.ok.injEq] at hcharged
  subst hcharged
  have hresolved := haccepted.resolves
  rw [h.resolves, Except.ok.injEq] at hresolved
  subst hresolved
  obtain ⟨stateScript, hscript, hsole⟩ := haccepted.spends
  rw [hstate, Except.ok.injEq] at hscript
  subst hscript
  obtain ⟨rfl, hothers⟩ := (stateIndices_first rfl).mp hsole
  have hreserve := haccepted.reserve
  have hfirst := h.values params.stateInput List.mem_cons_self
  have hvalue : ((params.stateInput.out.value : Nat) : Int) = params.stateInput.valueSats :=
    Int.toNat_of_nonneg hfirst
  have hpaid := h.minerFee
  have hminer := haccepted.fee_nonneg
  have hminer' := haccepted.fee_le
  exact {
    network := hmain
    invariants := haccepted.invariants
    recipient := haccepted.recipient
    platform := haccepted.platform
    reserve := by
      rw [← hvalue]
      exact hreserve
    buyers := fun r hr => hothers r.out (List.mem_map_of_mem hr)
    fee_nonneg := by omega
    fee_le := by omega }

end

/-- The Guardian signs what its builder made from a request that spends the state's own output
just when the request is admissible, and the fee it reports is the fee asked for. -/
theorem built_mint_signed
    (hstate : stateOutputScript C params.intent.prevState params.internalKey =
      .ok params.stateInput.script)
    (h : buildMintPsbt C params = .ok (psbt, analysis)) :
    (signMintTx C params.internalKey params.network psbt params.intent = .ok analysis ↔
        Admissible params analysis.platformFeeSats) ∧
      (Admissible params analysis.platformFeeSats →
        analysis.minerFeeSats = params.minerFeeSats) := by
  obtain ⟨canonical, platformFeeSats, changeValue, hbuilt⟩ := buildMintPsbt_built h
  have hfee : analysis.platformFeeSats = platformFeeSats := by
    have hanalyzed := hbuilt.analyzed
    simp only [computeMintAnalysis, bind_eq_ok, pure_eq_ok, hbuilt.minted, hbuilt.charged,
      Except.ok.injEq, exists_eq_left'] at hanalyzed
    obtain ⟨-, -, -, -, -, -, -, -, -, -, rfl⟩ := hanalyzed
    rfl
  have hreport : Admissible params platformFeeSats →
      analysisOf psbt canonical platformFeeSats
        ((params.stateInput :: params.buyerInputs).map ResolvedInput.out) 0
        (platformOutputs changeValue params.buyerChangeScript) = analysis := by
    intro hadm
    have hanalyzed := (hbuilt.accepted hstate hadm).analyzed
    rw [hbuilt.analyzed, Except.ok.injEq] at hanalyzed
    exact hanalyzed.symm
  rw [hfee]
  refine ⟨⟨hbuilt.admissible hstate, ?_⟩, ?_⟩
  · intro hadm
    exact signMintTx_eq_ok.mpr ⟨hadm.network, hbuilt.network, canonical, platformFeeSats, _, 0, _,
      hbuilt.accepted hstate hadm, hreport hadm⟩
  · intro hadm
    rw [← hreport hadm]
    exact hbuilt.minerFee

/-! The policy engine, which judges a summary of the transaction. -/

def coveStateBytes : Nat := 51

def byteToPhase (b : UInt8) : Except Fault CovePhase :=
  if b = 0x00 then .ok .publicMint
  else if b = 0x01 then .ok .graduated
  else if b = 0x02 then .ok .liquidity
  else .error ⟨none, s!"Unknown Cove phase byte {b}"⟩

def deserializeState (bytes : Bytes) : Except Fault CoveState := do
  ensure (bytes.length = coveStateBytes)
    ⟨none, s!"Expected {coveStateBytes} bytes, got {bytes.length}"⟩
  ensure ((bytes.getD 0 0).toNat = coveStateVersion)
    ⟨none, s!"Unsupported state version {bytes.getD 0 0} (expected {coveStateVersion})"⟩
  let phase ← byteToPhase (bytes.getD 33 0)
  return {
    version := (bytes.getD 0 0).toNat
    tokenId := bytes.slice 1 32
    phase
    publicSupplyAtoms := (bytes.slice 34 8).toNatBE
    reserveSats := (bytes.slice 42 8).toNatBE
    curveStage := (bytes.getD 50 0).toNat }

structure MintContext where
  prevState : CoveState
  nextState : CoveState
  amountAtoms : Int
  curveContributionSats : Int
  feeSats : Int
  recipientCommitment : Bytes
  network : GuardianNetwork
  deriving DecidableEq, Repr

/-- A throw counts as no. -/
def consistentState (s : CoveState) : Bool :=
  match (do serializeState (← deserializeState (← serializeState s)) : Except Fault Bytes) with
  | .ok bytes => 0 < bytes.length
  | .error _ => false

def validateMint (C : Crypto) (ctx : MintContext) : Except Rejection Unit := do
  ensure (consistentState ctx.prevState = true) (.refused "PREV_STATE_MALFORMED")
  ensure (consistentState ctx.nextState = true) (.refused "NEXT_STATE_MALFORMED")
  ensure (ctx.prevState.tokenId = ctx.nextState.tokenId) (.refused "TOKEN_ID_MISMATCH")
  ensure (0 < ctx.amountAtoms) (.refused "ZERO_AMOUNT")
  ensure (ctx.amountAtoms % atomsPerToken = 0) (.refused "SUBTOKEN_AMOUNT")
  ensure (ctx.nextState.publicSupplyAtoms = ctx.prevState.publicSupplyAtoms + ctx.amountAtoms)
    (.refused "SUPPLY_CONSERVATION")
  ensure (ctx.nextState.publicSupplyAtoms ≤ Cove.publicSupplyAtoms) (.refused "OVERMINT")
  let canonical ← (applyMint ctx.prevState ctx.amountAtoms).mapError
    fun _ => Rejection.refused "INVALID_TRANSITION"
  ensure (ctx.curveContributionSats = canonical.curveContributionSats)
    (.refused "PAYMENT_MISMATCH")
  ensure (ctx.nextState.reserveSats = ctx.prevState.reserveSats + ctx.curveContributionSats)
    (.refused "RESERVE_MOVEMENT")
  let next ← thrown (stateHash C ctx.nextState)
  let successor ← thrown (stateHash C canonical.nextState)
  ensure (next = successor) (.refused "SUCCESSOR_STATE_MISMATCH")
  ensure (isWellFormedCommitment ctx.recipientCommitment = true) (.refused "RECIPIENT_MALFORMED")
  ensure (0 ≤ ctx.feeSats ∧ ctx.feeSats ≤ maxFeeSats) (.refused "FEE_OUT_OF_RANGE")
  ensure (ctx.network ≠ .mainnet) (.refused "MAINNET_NOT_ACTIVATED")

theorem byteToPhase_phaseToByte (phase : CovePhase) : byteToPhase (phaseToByte phase) = .ok phase := by
  cases phase <;> rfl

/-- The fields a state's bytes are made of stand where they are read. -/
theorem deserializeState_serializeState {s : CoveState} {bytes : Bytes}
    (h : serializeState s = .ok bytes) : deserializeState bytes = .ok s := by
  obtain ⟨hversion, hlen, ⟨hsupply, hsupplyMax⟩, ⟨hreserve, hreserveMax⟩, -, hstage⟩ :=
    (serializes_iff s).mp ⟨bytes, h⟩
  have hbyte : s.curveStage < 256 := by
    unfold serializedStageMax at hstage
    omega
  simp only [serializeState, bind_eq_ok, ensure_eq_ok, pure_eq_ok, exists_const] at h
  obtain ⟨-, -, -, -, -, hbytes⟩ := h
  obtain ⟨supply, hsupplyBytes⟩ : ∃ b, b = Bytes.ofNatBE 8 s.publicSupplyAtoms.toNat := ⟨_, rfl⟩
  obtain ⟨reserve, hreserveBytes⟩ : ∃ b, b = Bytes.ofNatBE 8 s.reserveSats.toNat := ⟨_, rfl⟩
  have hsupplyLen : supply.length = 8 := by rw [hsupplyBytes, Bytes.length_ofNatBE]
  have hreserveLen : reserve.length = 8 := by rw [hreserveBytes, Bytes.length_ofNatBE]
  rw [← hsupplyBytes, ← hreserveBytes] at hbytes
  have h1 : bytes.drop 1 = s.tokenId ++ (phaseToByte s.phase :: (supply ++ (reserve ++
      [UInt8.ofNat s.curveStage]))) := by
    rw [← hbytes]
    simp
  have h33 := Bytes.drop_of_drop h1
  rw [hlen] at h33
  have h34 := Bytes.drop_succ_of_drop h33
  have h42 := Bytes.drop_of_drop h34
  rw [hsupplyLen] at h42
  have h50 := Bytes.drop_of_drop h42
  rw [hreserveLen] at h50
  have hid := Bytes.slice_of_drop h1
  rw [hlen] at hid
  have hsupplyField := Bytes.slice_of_drop h34
  rw [hsupplyLen, hsupplyBytes] at hsupplyField
  have hreserveField := Bytes.slice_of_drop h42
  rw [hreserveLen, hreserveBytes] at hreserveField
  have hphaseField : bytes.getD 33 0 = phaseToByte s.phase := Bytes.getD_of_drop h33
  have hstageField : bytes.getD 50 0 = UInt8.ofNat s.curveStage := Bytes.getD_of_drop h50
  have hlength : bytes.length = coveStateBytes := by
    rw [← hbytes]
    simp [hlen, hsupplyLen, hreserveLen, coveStateBytes]
  have hversionField : (bytes.getD 0 0).toNat = s.version := by
    rw [← hbytes, hversion]
    rfl
  simp only [deserializeState, bind_eq_ok, ensure_eq_ok, pure_eq_ok, exists_const]
  refine ⟨hlength, hversionField.trans hversion, s.phase, ?_, ?_⟩
  · rw [hphaseField]
    exact byteToPhase_phaseToByte s.phase
  · have hsupplyRead : (((bytes.slice 34 8).toNatBE : Nat) : Int) = s.publicSupplyAtoms :=
      (congrArg (fun b : Bytes => (b.toNatBE : Int)) hsupplyField).trans
        (toNatBE_amount hsupply hsupplyMax)
    have hreserveRead : (((bytes.slice 42 8).toNatBE : Nat) : Int) = s.reserveSats :=
      (congrArg (fun b : Bytes => (b.toNatBE : Int)) hreserveField).trans
        (toNatBE_amount hreserve hreserveMax)
    rw [hversionField, hsupplyRead, hreserveRead, hstageField, toNat_byte hbyte]
    cases s
    dsimp only at hid ⊢
    rw [← hid]

/-- A state that serializes is consistent. -/
theorem consistentState_of_serializes {s : CoveState} (h : Serializes s) :
    consistentState s = true := by
  obtain ⟨bytes, hbytes⟩ := h
  have hread := deserializeState_serializeState hbytes
  have hlength : bytes.length = coveStateBytes := by
    simp only [deserializeState, bind_eq_ok, ensure_eq_ok, exists_const] at hread
    exact hread.1
  simp only [consistentState, hbytes, hread, bind, Except.bind, hlength]
  rfl

/-- A state with an output serializes. -/
theorem serializes_of_output {s : CoveState} {internalKey script : Bytes}
    (h : stateOutputScript C s internalKey = .ok script) :
    Serializes s ∧ ∃ hash, stateHash C s = .ok hash := by
  simp only [stateOutputScript, stateTweak, stateCommitment, bind_eq_ok, pure_eq_ok] at h
  obtain ⟨-, -, -, ⟨-, -, -, ⟨hash, hhash, -⟩, -⟩, -⟩ := h
  have hbytes := hhash
  simp only [stateHash, bind_eq_ok] at hbytes
  obtain ⟨bytes, hbytes, -⟩ := hbytes
  exact ⟨⟨bytes, hbytes⟩, hash, hhash⟩

/-- What the analysis of a mint tells the policy engine. -/
def contextOf (intent : MintIntent) (analysis : MintTxAnalysis) (network : GuardianNetwork) :
    MintContext where
  prevState := intent.prevState
  nextState := analysis.nextState
  amountAtoms := intent.amountAtoms
  curveContributionSats := analysis.curveContributionSats
  feeSats := analysis.minerFeeSats
  recipientCommitment := intent.recipientCommitment
  network

/-- The two layers of the Guardian agree: the policy engine allows every mint the transaction layer
signs, on the numbers it reports. -/
theorem signed_mint_allowed {internalKey : Bytes} {network : GuardianNetwork} {intent : MintIntent}
    (h : signMintTx C internalKey network psbt intent = .ok analysis) :
    validateMint C (contextOf intent analysis network) = .ok () := by
  obtain ⟨hmain, -, canonical, platformFeeSats, resolved, i, change, haccepted, rfl⟩ :=
    signMintTx_eq_ok.mp h
  obtain ⟨stateScript, hscript, -⟩ := haccepted.spends
  obtain ⟨successor, hnext, -, -⟩ := haccepted.pays
  obtain ⟨hprev, -⟩ := serializes_of_output hscript
  obtain ⟨hsuccessor, hash, hhash⟩ := serializes_of_output hnext
  have hmoved := applyMint_reserve haccepted.minted
  have hminted := haccepted.minted
  simp only [applyMint, bind_eq_ok, ensure_eq_ok, pure_eq_ok, exists_const] at hminted
  obtain ⟨hpos, hwhole, hcap, gross, -, stage, -, hcanonical⟩ := hminted
  have htoken : intent.prevState.tokenId = canonical.nextState.tokenId := by
    rw [← hcanonical]
  have hsupply : canonical.nextState.publicSupplyAtoms =
      intent.prevState.publicSupplyAtoms + intent.amountAtoms := by
    rw [← hcanonical]
  simp only [validateMint, thrown, bind_eq_ok, ensure_eq_ok, mapError_eq_ok, exists_const]
  exact ⟨consistentState_of_serializes hprev, consistentState_of_serializes hsuccessor, htoken,
    hpos, hwhole, hsupply, by rw [← hsupply] at hcap; exact hcap, canonical, haccepted.minted, rfl,
    hmoved, hash, hhash, hash, hhash, rfl, haccepted.recipient,
    ⟨haccepted.fee_nonneg, haccepted.fee_le⟩, hmain⟩

end
/-! A stair of a new token is minted. -/

def guardianKey : Bytes :=
  Bytes.ofNatBE 32 0x79be667ef9dcbbac55a06295ce870b07029bfcdb2dce28d959f2815b16f81798

/-- SHA-256 itself, and the output keys of the token's first two states. -/
def stairCrypto : Crypto where
  sha256 := Sha256.sha256
  isXOnlyPoint key := key = guardianKey
  xOnlyPointAddTweak key tweak := if key = guardianKey then [
    (Bytes.ofNatBE 32 0xcd9dede5f497f7b93b84949a5b63c9a4a3a924b84b74ebb153b6b164cb825d75,
      Bytes.ofNatBE 32 0x7bc7d41a22f6084bce7b6cd7152624165beef2456791927b70a4387f7ebd01ad, 0),
    (Bytes.ofNatBE 32 0xe42c3a38a7c66dd7a591e518541722994ed8c9bb4cb7282e75458c55d451928a,
      Bytes.ofNatBE 32 0xda5fca354d620afdadd1bb03e53ead7cc6360104aac904314e7515f53235b9b3,
      1)].lookup tweak else none

def freshScript : Bytes := 0x51 :: 0x20 ::
  Bytes.ofNatBE 32 0x7bc7d41a22f6084bce7b6cd7152624165beef2456791927b70a4387f7ebd01ad

def stairScript : Bytes := 0x51 :: 0x20 ::
  Bytes.ofNatBE 32 0xda5fca354d620afdadd1bb03e53ead7cc6360104aac904314e7515f53235b9b3

def stairState : CoveState := ⟨1, List.replicate 32 0xab, .publicMint, 10000000000000, 2700, 2⟩

def walletScript : Bytes := 0x00 :: 0x14 :: List.replicate 20 0xee

def stairIntent : MintIntent where
  prevState := freshState
  amountAtoms := 10000000000000
  recipientCommitment := 0x51 :: 0x20 :: List.replicate 32 0xcc
  platformFeeScript := 0x00 :: 0x14 :: List.replicate 20 0xdd

def stairParams : BuildMintPsbtParams where
  internalKey := guardianKey
  intent := stairIntent
  stateInput := ⟨List.replicate 32 0xaa, 0, freshScript, 10000⟩
  buyerInputs := [⟨List.replicate 32 0xbb, 0, walletScript, 2000000⟩]
  buyerChangeScript := walletScript
  minerFeeSats := 1000
  network := .regtest

def stairAnalysis : MintTxAnalysis := ⟨some 0, stairState, 2700, 27, 1000, 2000000, 1995273⟩

def stairPsbt : Psbt where
  network := .regtest
  inputs := (stairParams.stateInput :: stairParams.buyerInputs).map ResolvedInput.psbtInput
  txOutputs := [⟨stairScript, 12700⟩, ⟨stairIntent.recipientCommitment, 1000⟩,
    ⟨stairIntent.platformFeeScript, 27⟩, ⟨walletScript, 1995273⟩]

theorem freshState_output :
    stateOutputScript stairCrypto freshState guardianKey = .ok freshScript := by decide +kernel

theorem stairState_output :
    stateOutputScript stairCrypto stairState guardianKey = .ok stairScript := by decide +kernel

theorem stairPsbt_built :
    buildMintPsbt stairCrypto stairParams = .ok (stairPsbt, stairAnalysis) := by decide +kernel

theorem stairPsbt_signed :
    signMintTx stairCrypto guardianKey .regtest stairPsbt stairIntent = .ok stairAnalysis := by
  decide +kernel

theorem built_mint_signed_stair :
    (signMintTx stairCrypto stairParams.internalKey stairParams.network stairPsbt
          stairParams.intent = .ok stairAnalysis ↔
        Admissible stairParams stairAnalysis.platformFeeSats) ∧
      (Admissible stairParams stairAnalysis.platformFeeSats →
        stairAnalysis.minerFeeSats = stairParams.minerFeeSats) :=
  built_mint_signed freshState_output stairPsbt_built

theorem signed_mint_allowed_stair :
    validateMint stairCrypto (contextOf stairIntent stairAnalysis .regtest) = .ok () :=
  signed_mint_allowed stairPsbt_signed

def stairMint : SignedMint := ⟨List.replicate 32 0x0c, stairPsbt, stairIntent, stairAnalysis⟩

theorem mint_chain_backed_stair : ∃ s ∈ committedStates freshState [stairMint],
    Backed stairCrypto guardianKey freshState 0 [stairMint] stairMint.successor s := by
  have hspends : stairMint.Spends ⟨⟨List.replicate 32 0xaa, 0⟩, ⟨freshScript, 10000⟩⟩ := by
    refine ⟨by decide +kernel, ?_⟩
    exact ⟨[⟨freshScript, 10000⟩, ⟨walletScript, 2000000⟩], by decide +kernel, by decide +kernel⟩
  have hdistinct : DistinctOutputs stairCrypto guardianKey
      (committedStates freshState [stairMint]) := by
    have hstates : ∀ s ∈ committedStates freshState [stairMint],
        s = freshState ∨ s = stairState := by
      intro s hs
      simpa [committedStates, stairMint, stairIntent, stairAnalysis] using hs
    have hne : freshScript ≠ stairScript := by decide
    intro s hs s' hs' script h h'
    rcases hstates s hs with rfl | rfl <;> rcases hstates s' hs' with rfl | rfl
    · rfl
    · rw [freshState_output, Except.ok.injEq] at h
      rw [stairState_output, Except.ok.injEq] at h'
      exact absurd (h.trans h'.symm) hne
    · rw [stairState_output, Except.ok.injEq] at h
      rw [freshState_output, Except.ok.injEq] at h'
      exact absurd (h'.trans h.symm) hne
    · rfl
  exact mint_chain_backed freshState_output (by decide) (by decide +kernel)
    (.mint .start stairPsbt_signed hspends) hdistinct

end V1

end Cove
