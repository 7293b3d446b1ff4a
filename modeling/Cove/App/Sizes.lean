import Cove.App.Funding
import Cove.Guardian.SignedSize

/-! Whether `estimateOperationVsize` covers what a build weighs once it is signed. -/

namespace Cove

open Checked Transaction

/-! What a build is priced at: its shape is that of the parameters it is built from. -/

structure DeployShape (shape : OperationShape) (params : DeployParams) : Prop where
  funding : ∀ i ∈ params.deployerInputs, spendKindOf i.script = some shape.fundingKind
  tokenInputs : shape.tokenInputs = 0
  wallet : shape.walletScriptBytes = params.deployerChangeScript.length

structure MintShape (shape : OperationShape) (params : MintParams) : Prop where
  funding : ∀ i ∈ params.buyerInputs, spendKindOf i.script = some shape.fundingKind
  tokenInputs : shape.tokenInputs = 0
  wallet : shape.walletScriptBytes = params.buyerChangeScript.length
  ordinals : shape.ordinalsScriptBytes = params.buyerCarrierScript.length
  fee : shape.feeScriptBytes = params.feeScript.length
  discovery : shape.discovery = params.discoveryEnvelope.isSome

structure RedeemShape (shape : OperationShape) (params : RedeemParams) : Prop where
  funding : ∀ i ∈ params.funderInputs, spendKindOf i.script = some shape.fundingKind
  tokens : ∀ i ∈ params.tokenInputs, spendKindOf i.script = some shape.tokenKind
  tokenInputs : shape.tokenInputs = params.tokenInputs.length
  payout : shape.walletScriptBytes = params.sellerPayoutScript.length
  change : shape.walletScriptBytes =
    (params.funderChangeScript.getD params.sellerChangeScript).length
  ordinals : shape.ordinalsScriptBytes = params.sellerChangeScript.length
  fee : shape.feeScriptBytes = params.feeScript.length

structure TransferShape (shape : OperationShape) (params : TransferParams) : Prop where
  funding : ∀ i ∈ params.funderInputs, spendKindOf i.script = some shape.fundingKind
  tokens : ∀ i ∈ params.tokenInputs, spendKindOf i.script = some shape.tokenKind
  tokenInputs : shape.tokenInputs = params.tokenInputs.length
  wallet : shape.walletScriptBytes = params.funderChangeScript.length
  recipients : shape.recipientCarriers = params.tokenOutputs.length

/-- The estimate is no less than the virtual size, and a fee at a rate pays that rate. -/
structure SizeSafe (op : CoveOperation) (shape : OperationShape) (fundingInputs : Nat)
    (tx : Transaction) : Prop where
  size : tx.virtualSize ≤ estimateOperationVsize op shape fundingInputs
  rate : ∀ rate rates maxMinerFeeSats priced,
    resolveMinerFee (some rate) none (estimateOperationVsize op shape fundingInputs) rates
      maxMinerFeeSats = .ok priced → rate * tx.virtualSize ≤ priced.minerFeeSats

/-- A Taproot input weighs one less than it is priced at. -/
def SpendKind.spare : SpendKind → Nat
  | .p2tr => 1
  | _ => 0

theorem SpendKind.inputVbytes_eq (kind : SpendKind) :
    4 * kind.inputVbytes = kind.signedWeight + kind.spare := by
  cases kind with
  | p2wpkh => rfl
  | p2shP2wpkh => rfl
  | p2tr => rfl

theorem inputs_priced {rs : List ResolvedInput} {kind : SpendKind}
    (h : ∀ r ∈ rs, spendKindOf r.script = some kind) :
    4 * (rs.length * kind.inputVbytes) =
      (rs.map ResolvedInput.signedWeight).sum + rs.length * kind.spare := by
  rw [signedWeight_of_kind h, ← Nat.mul_add, ← kind.inputVbytes_eq]
  ring

theorem resolveMinerFee_rate {rate : Int} {explicitSats : Option Int} {size : Nat} {rates : FeeRates}
    {maxMinerFeeSats : Int} {priced : ResolvedMinerFee}
    (h : resolveMinerFee (some rate) explicitSats size rates maxMinerFeeSats = .ok priced) :
    0 < rate ∧ priced.minerFeeSats = rate * (max 1 size : Nat) := by
  simp only [resolveMinerFee, bind_eq_ok, ensure_eq_ok, pure_eq_ok] at h
  obtain ⟨_, hpos, _, rfl, _, -, _, -, _, -, rfl⟩ := h
  exact ⟨hpos, rfl⟩

theorem sizeSafe_iff {op : CoveOperation} {shape : OperationShape} {fundingInputs : Nat}
    {tx : Transaction} : SizeSafe op shape fundingInputs tx ↔
      tx.weight ≤ 4 * estimateOperationVsize op shape fundingInputs := by
  rw [← virtualSize_le_iff]
  constructor
  · intro h
    exact h.size
  · intro h
    refine ⟨h, ?_⟩
    intro rate rates maxMinerFeeSats priced hpriced
    obtain ⟨hpos, hfee⟩ := resolveMinerFee_rate hpriced
    rw [hfee]
    apply Int.mul_le_mul_of_nonneg_left _ hpos.le
    exact_mod_cast h.trans (le_max_right 1 _)

/-! What each build has to keep within. Both sides are in quarters of a virtual byte: what of the
build varies, and what the estimate has for it. -/

def DeployParams.Fits (params : DeployParams) (shape : OperationShape) : Prop :=
  countWeight params.deployerInputs.length + 4 * params.identity.ticker.length +
      outputWeight (params.creatorScript.getD params.deployerChangeScript) +
      (params.changeOutput.map outputWeight).sum ≤
    8 + params.deployerInputs.length * shape.fundingKind.spare + 40 +
      2 * pricedOutput params.deployerChangeScript.length

def MintParams.Fits (params : MintParams) (shape : OperationShape) (controlBlock : Bytes) : Prop :=
  countWeight (params.buyerInputs.length + 1) + (varSlice controlBlock).length +
      4 * lengthExcess params.buyerCarrierScript.length + 4 * lengthExcess params.feeScript.length +
      outputWeight params.creatorScript + (params.changeOutput.map outputWeight).sum +
      params.discoveryLength.elim 0 pricedOutput ≤
    8 + 68 + params.buyerInputs.length * shape.fundingKind.spare + pricedOutput 34 +
      pricedOutput params.buyerChangeScript.length +
      params.discoveryLength.elim 0 fun _ => pricedOutput 75

def RedeemParams.Fits (params : RedeemParams) (shape : OperationShape) (controlBlock : Bytes) :
    Prop :=
  countWeight (params.tokenInputs.length + params.funderInputs.length + 1) +
      (varSlice controlBlock).length + 4 * lengthExcess params.sellerPayoutScript.length +
      4 * lengthExcess params.feeScript.length + 36 * params.tokenChange.length +
      (params.tokenChange.map outputWeight).sum + (params.changeOutput.map outputWeight).sum ≤
    8 + 68 + params.tokenInputs.length * shape.tokenKind.spare +
      params.funderInputs.length * shape.fundingKind.spare + 36 +
      pricedOutput params.sellerChangeScript.length +
      pricedOutput (params.funderChangeScript.getD params.sellerChangeScript).length

def TransferParams.Fits (params : TransferParams) (shape : OperationShape) : Prop :=
  countWeight (params.tokenInputs.length + params.funderInputs.length) +
      4 * lengthExcess (params.tokenOutputs.length + params.btcOutputs.length +
        params.changeOutput.length + 1) +
      36 * params.tokenOutputs.length +
      (params.tokenOutputs.map fun o => outputWeight o.script).sum +
      (params.btcOutputs.map fun p => outputWeight p.script).sum +
      (params.changeOutput.map outputWeight).sum ≤
    8 + params.tokenInputs.length * shape.tokenKind.spare +
      params.funderInputs.length * shape.fundingKind.spare + 144 +
      (params.tokenOutputs.length + 1) * pricedOutput shape.ordinalsScriptBytes +
      pricedOutput params.funderChangeScript.length

section

variable {C : Crypto} {scriptForKind : ScriptForKind} {shape : OperationShape} {tx : Transaction}

theorem deploy_safe_iff {params : DeployParams} {r : DeployResult}
    (hkeys : XOnlyKeys C)
    (h : buildDeployPsbtV3 C scriptForKind params = .ok r) (hshape : DeployShape shape params)
    (hsigned : r.psbt.SignedAs tx) :
    SizeSafe .deploy shape params.deployerInputs.length tx ↔ params.Fits shape := by
  have hinputs := inputs_priced hshape.funding
  rw [sizeSafe_iff, deploy_weight hkeys h hsigned, estimateOperationVsize, DeployParams.Fits,
    hshape.tokenInputs, OperationShape.outputScriptBytes, hshape.wallet]
  simp only [CoveOperation.spendsVault, CoveOperation.opReturnScriptBytes, Bool.false_eq_true,
    if_false, List.map_cons, List.map_nil, List.sum_cons, List.sum_nil, pricedOutput]
  omega

theorem mint_safe_iff {params : MintParams} {r : MintResult}
    (hkeys : XOnlyKeys C)
    (h : buildMintPsbtV3 C scriptForKind params = .ok r) (hshape : MintShape shape params)
    (hsigned : r.psbt.SignedAs tx) :
    SizeSafe .backingBuy shape params.buyerInputs.length tx ↔
      params.Fits shape r.prevVault.mintControlBlock := by
  have hinputs := inputs_priced hshape.funding
  rw [sizeSafe_iff, mint_weight hkeys h hsigned, estimateOperationVsize, MintParams.Fits,
    hshape.tokenInputs, OperationShape.outputScriptBytes, hshape.wallet, hshape.ordinals, hshape.fee,
    hshape.discovery, outputWeight_eq params.buyerCarrierScript, outputWeight_eq params.feeScript,
    MintParams.discoveryLength]
  cases params.discoveryEnvelope with
  | none =>
    simp only [CoveOperation.spendsVault, CoveOperation.opReturnScriptBytes, Option.isSome_none,
      Option.map_none, Option.elim_none, Bool.false_eq_true, if_true, if_false, List.append_nil,
      List.map_cons, List.map_nil, List.sum_cons, List.sum_nil, pricedOutput]
    omega
  | some ticker =>
    simp only [CoveOperation.spendsVault, CoveOperation.opReturnScriptBytes, Option.isSome_some,
      Option.map_some, Option.elim_some, if_true, List.cons_append, List.nil_append,
      List.map_cons, List.map_nil, List.sum_cons, List.sum_nil, pricedOutput]
    omega

theorem redeem_safe_iff {params : RedeemParams} {r : RedeemResult}
    (hkeys : XOnlyKeys C)
    (h : buildRedeemPsbtV3 C scriptForKind params = .ok r) (hshape : RedeemShape shape params)
    (hsigned : r.psbt.SignedAs tx) :
    SizeSafe .redeem shape params.funderInputs.length tx ↔
      params.Fits shape r.prevVault.redeemControlBlock := by
  have hinputs := inputs_priced hshape.funding
  have htokens := inputs_priced hshape.tokens
  have hpayout := hshape.payout
  have hchange := hshape.change
  rw [sizeSafe_iff, redeem_weight hkeys h hsigned, estimateOperationVsize, RedeemParams.Fits,
    hshape.tokenInputs, OperationShape.outputScriptBytes, hshape.ordinals, hshape.fee,
    outputWeight_eq params.sellerPayoutScript, outputWeight_eq params.feeScript]
  simp only [CoveOperation.spendsVault, CoveOperation.opReturnScriptBytes, if_true, List.map_cons,
    List.map_nil, List.sum_cons, List.sum_nil, pricedOutput]
  omega

theorem transfer_safe_iff {params : TransferParams} {r : TransferResult}
    (h : buildTransferPsbtV2 scriptForKind params = .ok r) (hshape : TransferShape shape params)
    (hsigned : r.psbt.SignedAs tx) :
    SizeSafe .transfer shape params.funderInputs.length tx ↔ params.Fits shape := by
  have hinputs := inputs_priced hshape.funding
  have htokens := inputs_priced hshape.tokens
  have hcarriers : (params.tokenOutputs.length + 1) * pricedOutput shape.ordinalsScriptBytes =
      4 * (params.tokenOutputs.length * (9 + shape.ordinalsScriptBytes)) +
        pricedOutput shape.ordinalsScriptBytes := by
    rw [pricedOutput]
    ring
  rw [sizeSafe_iff, transfer_weight h hsigned, estimateOperationVsize, TransferParams.Fits,
    hshape.tokenInputs, OperationShape.outputScriptBytes, hshape.wallet, hshape.recipients,
    hcarriers]
  simp only [CoveOperation.spendsVault, CoveOperation.opReturnScriptBytes, Bool.false_eq_true,
    if_false, List.map_append, List.map_cons, List.map_nil, List.map_replicate, List.sum_append,
    List.sum_cons, List.sum_nil, List.sum_replicate_nat, pricedOutput]
  omega

end

instance (params : DeployParams) (shape : OperationShape) : Decidable (params.Fits shape) :=
  inferInstanceAs (Decidable (_ ≤ _))

instance (params : MintParams) (shape : OperationShape) (controlBlock : Bytes) :
    Decidable (params.Fits shape controlBlock) :=
  inferInstanceAs (Decidable (_ ≤ _))

/-- The estimate covers a signed build exactly where the build keeps within what the fixed prices
leave for the parts of it that vary. -/
theorem estimateOperationVsize_safe_iff (C : Crypto) (scriptForKind : ScriptForKind)
    (hkeys : XOnlyKeys C) :
    (∀ (params : DeployParams) (r : DeployResult) (shape : OperationShape) (tx : Transaction),
      buildDeployPsbtV3 C scriptForKind params = .ok r → DeployShape shape params →
      r.psbt.SignedAs tx →
        (SizeSafe .deploy shape params.deployerInputs.length tx ↔ params.Fits shape)) ∧
    (∀ (params : MintParams) (r : MintResult) (shape : OperationShape) (tx : Transaction)
      (vault : CoveVaultV3), buildBackingVaultV3 C params.prevState params.keys = .ok vault →
      buildMintPsbtV3 C scriptForKind params = .ok r → MintShape shape params →
      r.psbt.SignedAs tx →
        (SizeSafe .backingBuy shape params.buyerInputs.length tx ↔
          params.Fits shape vault.mintControlBlock)) ∧
    (∀ (params : RedeemParams) (r : RedeemResult) (shape : OperationShape) (tx : Transaction)
      (vault : CoveVaultV3), buildBackingVaultV3 C params.prevState params.keys = .ok vault →
      buildRedeemPsbtV3 C scriptForKind params = .ok r → RedeemShape shape params →
      r.psbt.SignedAs tx →
        (SizeSafe .redeem shape params.funderInputs.length tx ↔
          params.Fits shape vault.redeemControlBlock)) ∧
    (∀ (params : TransferParams) (r : TransferResult) (shape : OperationShape) (tx : Transaction),
      buildTransferPsbtV2 scriptForKind params = .ok r → TransferShape shape params →
      r.psbt.SignedAs tx →
        (SizeSafe .transfer shape params.funderInputs.length tx ↔ params.Fits shape)) := by
  refine ⟨?_, ?_, ?_, ?_⟩
  · intro params r shape tx h hshape hsigned
    exact deploy_safe_iff hkeys h hshape hsigned
  · intro params r shape tx vault hvault h hshape hsigned
    obtain rfl := Except.ok.inj (hvault.symm.trans (buildMintPsbtV3_ok h).prevVault)
    exact mint_safe_iff hkeys h hshape hsigned
  · intro params r shape tx vault hvault h hshape hsigned
    obtain rfl := Except.ok.inj (hvault.symm.trans (buildRedeemPsbtV3_ok h).prevVault)
    exact redeem_safe_iff hkeys h hshape hsigned
  · intro params r shape tx h hshape hsigned
    exact transfer_safe_iff h hshape hsigned

/-! Two ordinary cases: fewer than 253 inputs and no Taproot coins, and change to a short script. -/

theorem spare_of_ne {kind : SpendKind} (h : kind ≠ .p2tr) : kind.spare = 0 := by
  cases kind with
  | p2wpkh => rfl
  | p2shP2wpkh => rfl
  | p2tr => exact absurd rfl h

/-- A launch paid to its own script keeps within the estimate up to a name of ten letters. -/
theorem deploy_fits_iff_ticker {params : DeployParams} {shape : OperationShape}
    (hcreator : params.creatorScript.getD params.deployerChangeScript = params.deployerChangeScript)
    (hchange : params.changeOutput = [params.deployerChangeScript])
    (hscript : params.deployerChangeScript.length < 253) (hpos : 0 < params.deployerInputs.length)
    (hinputs : params.deployerInputs.length < 253) (hkind : shape.fundingKind ≠ .p2tr) :
    params.Fits shape ↔ params.identity.ticker.length ≤ 10 := by
  have hweight := outputWeight_of_short hscript
  rw [DeployParams.Fits, countWeight_of_short hpos hinputs, hcreator, hchange, spare_of_ne hkind,
    List.map_singleton, List.sum_singleton, hweight]
  omega

/-- A mint that pays a Taproot creator keeps within it only where its leaf sorts last. -/
theorem mint_fits_iff_leaf {C : Crypto} {params : MintParams} {shape : OperationShape}
    {vault : CoveVaultV3} (hwidth : ∀ m, (C.sha256 m).length = 32)
    (hvault : buildBackingVaultV3 C params.prevState params.keys = .ok vault)
    (hnodup : [vault.mintLeaf.tapleafHash, vault.redeemLeaf.tapleafHash,
      vault.recoveryLeaf.tapleafHash].Nodup) (hcreator : params.creatorScript.length = 34)
    (hdiscovery : params.discoveryEnvelope = none)
    (hchange : params.changeOutput = [params.buyerChangeScript])
    (hscript : params.buyerChangeScript.length < 253)
    (hcarrier : params.buyerCarrierScript.length < 253) (hfee : params.feeScript.length < 253)
    (hinputs : params.buyerInputs.length < 252) (hkind : shape.fundingKind ≠ .p2tr) :
    params.Fits shape vault.mintControlBlock ↔ vault.SortsLast vault.mintLeaf := by
  have hblock := (controlBlock_length hwidth hvault hnodup).1
  have hshort : vault.mintControlBlock.length < 253 := by
    rw [hblock]
    split
    · omega
    · omega
  rw [MintParams.Fits, countWeight_of_short (by omega) (by omega), length_varSlice,
    lengthExcess_eq_zero hshort, lengthExcess_eq_zero hcarrier, lengthExcess_eq_zero hfee,
    outputWeight_of_length hcreator (by omega), hchange, MintParams.discoveryLength, hdiscovery,
    spare_of_ne hkind, List.map_singleton, List.sum_singleton, outputWeight_of_short hscript, hblock]
  simp only [Option.map_none, Option.elim_none]
  split
  · rename_i hlast
    exact iff_of_true (by omega) hlast
  · rename_i hnot
    exact iff_of_false (by omega) hnot

/-! Builds from native coins, signed by fillers of the full length. -/

/-- The vault's input, or one of a witness public key. -/
def fillable (i : PsbtInput) : Bool :=
  match i.tapLeafScript, i.witnessUtxo with
  | [_], _ => true
  | [], some prevout => spendKindOf prevout.script = some .p2wpkh
  | _, _ => false

def fillInput (i : PsbtInput) : TxIn where
  hash := i.hash
  index := i.index
  sequence := i.sequence
  witness := match i.tapLeafScript with
    | leaf :: _ =>
      [List.replicate 64 0, policyReveal leaf.script, leaf.script, leaf.controlBlock]
    | [] => [List.replicate 72 0, List.replicate 33 0]

def fillSigned (psbt : Psbt) : Transaction where
  version := psbt.version
  ins := psbt.inputs.map fillInput
  outs := psbt.txOutputs
  locktime := psbt.locktime

theorem fillSigned_signedAs {psbt : Psbt} (h : psbt.inputs.all fillable = true) :
    psbt.SignedAs (fillSigned psbt) := by
  refine ⟨rfl, ?_, rfl, rfl⟩
  rw [fillSigned, List.forall₂_map_right_iff, List.forall₂_same]
  intro i hi
  have hfill := List.all_eq_true.mp h i hi
  rw [fillable] at hfill
  cases hleaf : i.tapLeafScript with
  | nil =>
    cases hprevout : i.witnessUtxo with
    | none => simp [hleaf, hprevout] at hfill
    | some prevout =>
      simp only [hleaf, hprevout, decide_eq_true_eq] at hfill
      simp only [fillInput, hleaf]
      exact .p2wpkh hleaf hprevout hfill List.length_replicate List.length_replicate
  | cons leaf rest =>
    cases rest with
    | nil =>
      simp only [fillInput, hleaf]
      exact .vault hleaf List.length_replicate
    | cons other rest => simp [hleaf] at hfill

/-- Two launches that differ in the length of the name. -/
def launch (ticker : String) : DeployParams where
  identity := ⟨Bytes.ascii "bitcoin-mainnet", 3, Bytes.ascii ticker, List.replicate 32 7⟩
  keys := millionKeys
  deployerInputs := [⟨List.replicate 32 2, 0, millionScript 2, 100000, none⟩]
  deployerChangeScript := millionScript 2
  minerFeeSats := 1000

/-- SHA-256, and the curve points of the two launches' vaults. -/
def launchCrypto : Crypto where
  sha256 := Sha256.sha256
  isXOnlyPoint key := key = millionKeys.guardianXOnly
  xOnlyPointAddTweak key tweak := if key = coveNumsXOnly then [
    (Bytes.ofNatBE 32 0xd297ca9bf954ef44f898305dd4d79fa572e917567d114f5c2aa9bdc0b020e5d2,
      Bytes.ofNatBE 32 0x7115c20538c21e2da5f923dcf0f86ab9536ee15c5110d84953475f683cc429ff, 0),
    (Bytes.ofNatBE 32 0xdc6b47066e2aeb8e80474bd49e01c7c11bb873b3a1e001b60ad9911fc9301f12,
      Bytes.ofNatBE 32 0x04285de18f7e3f19603d9b86ad27eb2522c914bc98ff427c3c54344f78d83fce, 0)].lookup
      tweak else none

def nativeShape : OperationShape where
  fundingKind := .p2wpkh
  tokenKind := .p2wpkh
  walletScriptBytes := 22
  ordinalsScriptBytes := 22
  feeScriptBytes := 22

/-- The points of a table are x-only where those it lists are. -/
theorem xOnlyKeys_of_table {C : Crypto} {table : List (Bytes × Bytes × Nat)}
    (h : ∀ key tweak, C.xOnlyPointAddTweak key tweak =
      if key = coveNumsXOnly then table.lookup tweak else none)
    (htable : ∀ e ∈ table, e.2.1.length = 32) : XOnlyKeys C := by
  intro key tweak r hr
  rw [h] at hr
  split at hr
  · obtain ⟨l, m, htab, -⟩ := List.lookup_eq_some_iff.mp hr
    exact htable (tweak, r) (by rw [htab]; simp)
  · cases hr

theorem launchCrypto_keys : XOnlyKeys launchCrypto :=
  xOnlyKeys_of_table (fun _ _ => rfl) (by decide)

theorem millionCrypto_keys : XOnlyKeys millionCrypto :=
  xOnlyKeys_of_table (fun _ _ => rfl) (by decide)

/-- The creator of the million is paid to a Taproot script. -/
def taprootMint : MintParams :=
  { millionMint [] with
    creatorScript := millionFreshScript
    discoveryEnvelope := none }

/-- A name of eleven letters is one too long, and so is the control block of a leaf that does not
sort last. -/
theorem estimateOperationVsize_short :
    (¬ ∀ (C : Crypto) (scriptForKind : ScriptForKind) (params : DeployParams) (r : DeployResult)
      (shape : OperationShape) (tx : Transaction), XOnlyKeys C →
      buildDeployPsbtV3 C scriptForKind params = .ok r → DeployShape shape params →
      r.psbt.SignedAs tx → SizeSafe .deploy shape params.deployerInputs.length tx) ∧
    ¬ ∀ (C : Crypto) (scriptForKind : ScriptForKind) (params : MintParams) (r : MintResult)
      (shape : OperationShape) (tx : Transaction), XOnlyKeys C →
      buildMintPsbtV3 C scriptForKind params = .ok r → MintShape shape params →
      r.psbt.SignedAs tx → SizeSafe .backingBuy shape params.buyerInputs.length tx := by
  constructor
  · intro h
    have hbuilt : ((buildDeployPsbtV3 launchCrypto noKeys (launch "ABCDEFGHIJK")).toOption.any
        fun r => r.psbt.inputs.all fillable) = true := by
      decide +kernel
    obtain ⟨r, hr, hfill⟩ := (Option.any_eq_true _ _).mp hbuilt
    rw [toOption_eq_some] at hr
    have hshape : DeployShape nativeShape (launch "ABCDEFGHIJK") := ⟨by decide, rfl, rfl⟩
    have hsigned := fillSigned_signedAs hfill
    have hsafe := h _ _ _ _ _ _ launchCrypto_keys hr hshape hsigned
    rw [deploy_safe_iff launchCrypto_keys hr hshape hsigned] at hsafe
    exact absurd hsafe (by decide +kernel)
  · intro h
    have hbuilt : ((buildMintPsbtV3 millionCrypto noKeys taprootMint).toOption.any fun r =>
        r.psbt.inputs.all fillable &&
          !decide (taprootMint.Fits nativeShape r.prevVault.mintControlBlock)) = true := by
      decide +kernel
    obtain ⟨r, hr, hcheck⟩ := (Option.any_eq_true _ _).mp hbuilt
    rw [toOption_eq_some] at hr
    simp only [Bool.and_eq_true, Bool.not_eq_true', decide_eq_false_iff_not] at hcheck
    have hshape : MintShape nativeShape taprootMint := ⟨by decide, rfl, rfl, rfl, rfl, rfl⟩
    have hsigned := fillSigned_signedAs hcheck.1
    have hsafe := h _ _ _ _ _ _ millionCrypto_keys hr hshape hsigned
    rw [mint_safe_iff millionCrypto_keys hr hshape hsigned] at hsafe
    exact hcheck.2 hsafe

/-- With ten letters the launch is safe, and with a native creator the mint. -/
theorem estimateOperationVsize_safe_samples :
    (∃ r tx, buildDeployPsbtV3 launchCrypto noKeys (launch "ABCDEFGHIJ") = .ok r ∧
      r.psbt.SignedAs tx ∧ SizeSafe .deploy nativeShape 1 tx) ∧
    ∃ r tx, buildMintPsbtV3 millionCrypto noKeys (millionMint (Bytes.ascii "ALPHA")) = .ok r ∧
      r.psbt.SignedAs tx ∧ SizeSafe .backingBuy { nativeShape with discovery := true } 1 tx := by
  constructor
  · have hbuilt : ((buildDeployPsbtV3 launchCrypto noKeys (launch "ABCDEFGHIJ")).toOption.any
        fun r => r.psbt.inputs.all fillable) = true := by
      decide +kernel
    obtain ⟨r, hr, hfill⟩ := (Option.any_eq_true _ _).mp hbuilt
    rw [toOption_eq_some] at hr
    have hsigned := fillSigned_signedAs hfill
    have hsafe := (estimateOperationVsize_safe_iff launchCrypto noKeys launchCrypto_keys).1 _ r
      nativeShape _ hr ⟨by decide, rfl, rfl⟩ hsigned
    exact ⟨r, _, hr, hsigned, hsafe.mpr (by decide +kernel)⟩
  · have hbuilt : ((buildMintPsbtV3 millionCrypto noKeys
        (millionMint (Bytes.ascii "ALPHA"))).toOption.any fun r => r.psbt.inputs.all fillable &&
          decide ((millionMint (Bytes.ascii "ALPHA")).Fits { nativeShape with discovery := true }
            r.prevVault.mintControlBlock)) = true := by
      decide +kernel
    obtain ⟨r, hr, hcheck⟩ := (Option.any_eq_true _ _).mp hbuilt
    rw [toOption_eq_some] at hr
    simp only [Bool.and_eq_true, decide_eq_true_eq] at hcheck
    have hsigned := fillSigned_signedAs hcheck.1
    have hsafe := (estimateOperationVsize_safe_iff millionCrypto noKeys millionCrypto_keys).2.1 _ r
      { nativeShape with discovery := true } _ r.prevVault (buildMintPsbtV3_ok hr).prevVault hr
      ⟨by decide, rfl, rfl, rfl, rfl, rfl⟩ hsigned
    exact ⟨r, _, hr, hsigned, hsafe.mpr hcheck.2⟩

end Cove
