import Cove.App.Build
import Cove.App.Selection
import Cove.Guardian.Built
import Cove.Wallet.Loss

/-! The app's own builds against the browser's check. -/

namespace Cove

open Checked

/-- A script the client named as its own. -/
def WalletFields.Owns (fields : WalletFields) (script : Bytes) : Prop :=
  script = fields.walletScript ∨ truthy fields.ordinalsScript = some script

instance (fields : WalletFields) (script : Bytes) : Decidable (fields.Owns script) :=
  inferInstanceAs (Decidable (_ ∨ _))

/-- The scripts of the fee, of the token's creator and of its vaults are not the wallet's. -/
structure ScriptsApart (C : Crypto) (app : V3AppService) (tokenId : Bytes) (fields : WalletFields) :
    Prop where
  fee : ¬ fields.Owns app.config.feeScript
  creator : ∀ row, app.db.tokens.get tokenId = some row → ¬ fields.Owns row.creatorScript
  backing : ∀ tip, app.loadBacking C tokenId = .ok tip → ¬ fields.Owns tip.script
  vaults : ∀ state vault, buildBackingVaultV3 C state app.config.vaultKeys = .ok vault →
    ¬ fields.Owns vault.scriptPubKey

/-- Something of what a transfer spends comes back: the carriers hold more atoms than are sent, or
the coins leave change that is worth an output. -/
def V3AppService.ComesBack (app : V3AppService) (ctx : BuildContext) (req : TransferRequest) :
    Prop :=
  ∃ wallet selected funderInputs minerFeeSats,
    resolveWalletIdentity (walletIdentityFrom req.wallet) = .ok wallet ∧
    app.selectCarriers ctx wallet req.tokenId req.amountAtoms maxTransferTokenInputs
      "send a smaller amount." = .ok selected ∧
    app.resolveFundingAndFee ctx (V3AppService.transferFunding req wallet selected) =
      .ok (funderInputs, minerFeeSats) ∧
    (req.amountAtoms < carrierAtoms selected ∨ WorthOutput wallet.payments.script
      (V3AppService.transferParams req wallet selected funderInputs minerFeeSats).leftover)

/-! The wallet's scripts. -/

theorem spendKindOf_first {script : Bytes} {kind : SpendKind} (h : spendKindOf script = some kind) :
    script ≠ [] ∧ script.getD 0 0 ≠ 0x6a := by
  rw [spendKindOf] at h
  cases script with
  | nil => simp [isP2WPKH, isP2TR, isP2SH] at h
  | cons first rest =>
    refine ⟨List.cons_ne_nil first rest, ?_⟩
    intro hop
    have hfirst : first = 0x6a := hop
    subst hfirst
    simp [isP2WPKH, isP2TR, isP2SH] at h

theorem resolveWalletIdentity_owns {fields : WalletFields} {wallet : ResolvedWalletIdentity}
    (h : resolveWalletIdentity (walletIdentityFrom fields) = .ok wallet) (script : Bytes) :
    script ∈ wallet.scripts ↔ fields.Owns script := by
  have hscripts := (resolveWalletIdentity_ok h).scripts script
  simp only [resolveWalletIdentity, bind_eq_ok, pure_eq_ok] at h
  obtain ⟨payments, hpayments, ordinals, hordinals, rfl⟩ := h
  have hp : payments.script = fields.walletScript := (resolveRole_ok hpayments).1
  have ho : ordinals.script = (walletIdentityFrom fields).2.script := by
    split at hordinals
    · rename_i heq
      rw [← Except.ok.inj hordinals, (resolveRole_ok hpayments).1, heq]
    · exact (resolveRole_ok hordinals).1
  rw [hscripts, WalletFields.Owns]
  dsimp only
  rw [hp, ho, walletIdentityFrom]
  cases truthy fields.ordinalsScript with
  | none => simp
  | some ordinal => simp [eq_comm]

section

variable {wallet : ResolvedWalletIdentity} {intent : ClientIntent} {psbt : Psbt}

/-- The intent names the wallet's scripts. -/
structure IntentOf (wallet : ResolvedWalletIdentity) (intent : ClientIntent) : Prop where
  walletScript : intent.walletScript = wallet.payments.script
  ordinalsScript : intent.ordinalsScript = some wallet.ordinals.script

theorem isMine_iff (hw : WalletResolved wallet) (hi : IntentOf wallet intent) (script : Bytes) :
    intent.IsMine script ↔ script ∈ wallet.scripts := by
  rw [ClientIntent.IsMine, hi.walletScript, hi.ordinalsScript, hw.scripts script,
    Option.some.injEq, eq_comm (a := wallet.ordinals.script)]
  constructor
  · intro h
    exact h.2
  · intro h
    refine ⟨?_, h⟩
    rcases h with rfl | rfl
    · exact (spendKindOf_first hw.payments).1
    · exact (spendKindOf_first hw.ordinals).1

theorem opReturn_apart (hw : WalletResolved wallet) (payload : Bytes) :
    opReturnScript payload ∉ wallet.scripts := by
  intro h
  have hop : (opReturnScript payload).getD 0 0 = 0x6a := rfl
  rcases (hw.scripts _).mp h with heq | heq
  · rw [heq] at hop
    exact (spendKindOf_first hw.payments).2 hop
  · rw [heq] at hop
    exact (spendKindOf_first hw.ordinals).2 hop

theorem payments_mine (hw : WalletResolved wallet) (hi : IntentOf wallet intent) :
    intent.IsMine wallet.payments.script := by
  rw [isMine_iff hw hi, hw.scripts]
  exact Or.inl rfl

theorem ordinals_mine (hw : WalletResolved wallet) (hi : IntentOf wallet intent) :
    intent.IsMine wallet.ordinals.script := by
  rw [isMine_iff hw hi, hw.scripts]
  exact Or.inr rfl

theorem opReturn_not_mine (hw : WalletResolved wallet) (hi : IntentOf wallet intent)
    (payload : Bytes) : ¬ intent.IsMine (opReturnScript payload) := by
  rw [isMine_iff hw hi]
  exact opReturn_apart hw payload

/-- The service and the browser measure the same balance. -/
theorem walletDelta_eq (hw : WalletResolved wallet) (hi : IntentOf wallet intent) (psbt : Psbt) :
    intent.walletDelta psbt = walletDeltaSats psbt wallet.scripts := by
  have hout : (psbt.txOutputs.filter fun o => intent.OwnOutput o) =
      psbt.txOutputs.filter fun o => o.script ∈ wallet.scripts := by
    apply List.filter_congr
    intro o _
    rw [decide_eq_decide]
    exact isMine_iff hw hi o.script
  have hin : (psbt.inputs.filter fun i => intent.OwnInput i) =
      psbt.inputs.filter fun i => i.witnessUtxo.any fun wu => wu.script ∈ wallet.scripts := by
    apply List.filter_congr
    intro i _
    rw [Bool.eq_iff_iff, decide_eq_true_eq, ClientIntent.OwnInput]
    cases i.witnessUtxo with
    | none => simp
    | some wu => simp [isMine_iff hw hi]
  rw [ClientIntent.walletDelta, ClientIntent.walletOut, ClientIntent.walletIn, hout, hin]
  rfl

theorem ownInput_iff {r : ResolvedInput} {i : PsbtInput} (h : InputFor r i) :
    intent.OwnInput i ↔ intent.IsMine r.script := by
  obtain ⟨v, hv, -⟩ := h.prevout
  rw [ClientIntent.OwnInput, hv]
  simp

/-- Only the vault's input is somebody else's. -/
theorem othersIn_vault {r : ResolvedInput} {rs : List ResolvedInput}
    (h : List.Forall₂ InputFor (r :: rs) psbt.inputs) (hr : ¬ intent.IsMine r.script)
    (hrs : ∀ i ∈ rs, intent.IsMine i.script) : intent.othersIn psbt = r.valueSats := by
  obtain ⟨i0, rest, h0, hrest, hinputs⟩ := List.forall₂_cons_left_iff.mp h
  have hown : ∀ i ∈ rest, intent.OwnInput i := by
    intro i hi
    obtain ⟨j, hj, rfl⟩ := List.mem_iff_getElem.mp hi
    obtain ⟨hlen, hget⟩ := List.forall₂_iff_get.mp hrest
    have hj' : j < rs.length := by omega
    exact (ownInput_iff (hget j hj' hj)).mpr (hrs _ (List.getElem_mem hj'))
  have hnone : (rest.filter fun i => ¬ intent.OwnInput i) = [] := by
    apply List.filter_eq_nil_iff.mpr
    intro i hi
    simpa using hown i hi
  obtain ⟨v, hv, hvalue⟩ := h0.prevout
  rw [ClientIntent.othersIn, hinputs,
    List.filter_cons_of_pos (by simpa using fun hi => hr ((ownInput_iff h0).mp hi)), hnone]
  simp only [List.map_cons, List.map_nil, List.sum_cons, List.sum_nil, PsbtInput.valueSats, hv,
    Option.elim_some]
  omega

def sumOthers (intent : ClientIntent) (outs : List TxOut) : Int :=
  ((outs.filter fun o => ¬ intent.OwnOutput o).map fun o => (o.value : Int)).sum

theorem sumOthers_append (a b : List TxOut) :
    sumOthers intent (a ++ b) = sumOthers intent a + sumOthers intent b := by
  simp only [sumOthers, List.filter_append, List.map_append, List.sum_append]

theorem sumOthers_zero {outs : List TxOut} (h : ∀ o ∈ outs, intent.OwnOutput o ∨ o.value = 0) :
    sumOthers intent outs = 0 := by
  rw [sumOthers]
  apply List.sum_eq_zero
  intro x hx
  obtain ⟨o, ho, rfl⟩ := List.mem_map.mp hx
  obtain ⟨hmem, hnot⟩ := List.mem_filter.mp ho
  rcases h o hmem with hown | hvalue
  · exact absurd hown (by simpa using hnot)
  · rw [hvalue]
    rfl

theorem sumOthers_payments {payments : List Payment} {paid : List TxOut}
    (h : List.Forall₂ OutputFor payments paid) : sumOthers intent paid =
      ((payments.filter fun p => ¬ intent.IsMine p.script).map Payment.valueSats).sum := by
  induction h with
  | nil => rfl
  | @cons p o ps os ho _ ih =>
    have hown : intent.OwnOutput o ↔ intent.IsMine p.script := by
      rw [ClientIntent.OwnOutput, ho.script]
    rw [sumOthers] at ih ⊢
    by_cases hmine : intent.IsMine p.script
    · rw [List.filter_cons_of_neg (by simpa using hown.mpr hmine),
        List.filter_cons_of_neg (by simpa using hmine), ih]
    · rw [List.filter_cons_of_pos (by simpa using fun h => hmine (hown.mp h)),
        List.filter_cons_of_pos (by simpa using hmine), List.map_cons, List.map_cons,
        List.sum_cons, List.sum_cons, ih, ho.value]

/-- An output is the wallet's where the payment behind it is. -/
theorem ownOutput_payments {payments : List Payment} {paid : List TxOut}
    (h : List.Forall₂ OutputFor payments paid) :
    (∃ o ∈ paid, intent.IsMine o.script) ↔ ∃ p ∈ payments, intent.IsMine p.script := by
  induction h with
  | nil => simp
  | cons ho _ ih => rw [List.exists_mem_cons_iff, List.exists_mem_cons_iff, ih, ho.script]

/-- Others are paid what is listed for them. -/
theorem othersOut_paid {payments : List Payment} {changeScript : Bytes}
    (h : PaidOut payments changeScript psbt.txOutputs) (hchange : intent.IsMine changeScript) :
    intent.othersOut psbt =
      ((payments.filter fun p => ¬ intent.IsMine p.script).map Payment.valueSats).sum := by
  obtain ⟨paid, change, rest, houts, hpaid, hmine, hzero⟩ := h
  have hfirst : sumOthers intent paid = _ := sumOthers_payments hpaid
  have hsecond : sumOthers intent change = 0 := by
    apply sumOthers_zero
    intro o ho
    left
    rwa [ClientIntent.OwnOutput, hmine o ho]
  have hthird : sumOthers intent rest = 0 :=
    sumOthers_zero fun o ho => .inr (hzero o ho)
  have hall : intent.othersOut psbt = sumOthers intent psbt.txOutputs := rfl
  rw [hall, houts, sumOthers_append, sumOthers_append, hsecond, hthird, hfirst]
  omega

/-- The first output is read where it holds the envelope. -/
theorem coveEnvelope_front {payload : Bytes} {e : ParsedEnvelopeV2} {out : TxOut} {rest : List TxOut}
    (hscript : out.script = opReturnScript payload) (h : decodeV2 payload = .ok e) :
    coveEnvelope (out :: rest) = .ok (some e) := by
  have hle := (length_of_decodeV2 h).2
  have hpush : (opReturnScript payload).length =
      2 + ((opReturnScript payload).getD 1 0).toNat := by
    rw [length_opReturnScript, opReturnScript_push (by omega)]
  have hdrop : (opReturnScript payload).drop 2 = payload := rfl
  have hcand : EnvelopeCandidate out.script := by
    rw [hscript]
    exact candidate_of_decode rfl hpush h
  rw [coveEnvelope, if_pos hcand, hscript, hdrop, h]
  rfl

theorem coveEnvelope_get {payload : Bytes} {e : ParsedEnvelopeV2} {out : TxOut} {outs : List TxOut}
    (hout : outs[0]? = some out) (hscript : out.script = opReturnScript payload)
    (h : decodeV2 payload = .ok e) : coveEnvelope outs = .ok (some e) := by
  cases outs with
  | nil => cases hout
  | cons first rest =>
    obtain rfl := Option.some.inj hout
    exact coveEnvelope_front hscript h

theorem pays_of_get {k : Nat} {o : TxOut} {p : Payment} (hget : psbt.txOutputs[k]? = some o)
    (ho : OutputFor p o) : ClientIntent.Pays psbt p.script p.valueSats :=
  ⟨o, List.mem_of_getElem? hget, ho.script, ho.value⟩

theorem ownVout_of_get {k : Nat} {o : TxOut} {p : Payment} (hget : psbt.txOutputs[k]? = some o)
    (ho : OutputFor p o) (hmine : intent.IsMine p.script) : intent.OwnVout psbt k := by
  refine ⟨o, hget, ?_⟩
  rwa [ho.script]

/-- The balance is what others put in, less what they are paid and the miner is. -/
theorem walletDelta_of_fee (intent : ClientIntent) {fee : Int}
    (hfee : psbt.totalIn - psbt.totalOut = fee) :
    intent.walletDelta psbt = intent.othersIn psbt - intent.othersOut psbt - fee := by
  have hin := totalIn_eq_walletIn_add intent psbt
  have hout := totalOut_eq_walletOut_add intent psbt
  rw [ClientIntent.walletDelta]
  omega

end

/-! What the browser asks of each operation. -/

section

variable {intent : ClientIntent} {psbt : Psbt} {tokenId : Bytes} {amount : Int}

theorem verifyBackingBuy_ok {gross protocolFee : Int} (hgross : intent.grossSats = some gross)
    (hprotocol : intent.protocolFeeSats = some protocolFee)
    (hcreator : 0 < intent.creatorFee →
      ∃ s ∈ intent.creatorScript, s ≠ [] ∧ ClientIntent.Pays psbt s intent.creatorFee)
    (hdelta : intent.walletDelta psbt =
      -(gross + protocolFee + intent.creatorLeaves + intent.minerFeeSats)) :
    intent.verifyBackingBuy psbt = .ok () := by
  simp only [ClientIntent.verifyBackingBuy, bind_eq_ok, demand_eq_ok, ensure_eq_ok]
  exact ⟨gross, hgross, protocolFee, hprotocol, (), hcreator, hdelta⟩

theorem verifyRedeem_ok {net : Int} (hnet : intent.netSats = some net)
    (hdelta : intent.walletDelta psbt = net - intent.minerFeeSats) :
    intent.verifyRedeem psbt = .ok () := by
  simp only [ClientIntent.verifyRedeem, bind_eq_ok, demand_eq_ok, ensure_eq_ok]
  exact ⟨net, hnet, hdelta⟩

theorem verifyTokenId_ok {e : ParsedEnvelopeV2} (htoken : intent.tokenId = some tokenId)
    (he : e.tokenIdOf = some tokenId) : intent.verifyTokenId e = .ok () := by
  have hcheck : ∀ t ∈ intent.tokenId, t ≠ [] → tokenId = t := by
    intro t ht _
    rw [htoken] at ht
    exact Option.some.inj ht
  cases e with
  | deploy policyVersion ticker tokenNonce => cases he
  | mint t a v =>
    obtain rfl := Option.some.inj he
    exact (ensure_eq_ok _ _ _).mpr hcheck
  | transfer t l =>
    obtain rfl := Option.some.inj he
    exact (ensure_eq_ok _ _ _).mpr hcheck
  | redeem t a l =>
    obtain rfl := Option.some.inj he
    exact (ensure_eq_ok _ _ _).mpr hcheck

theorem verifyTokenEnvelope_mint {vout : Nat}
    (hread : coveEnvelope psbt.txOutputs = .ok (some (.mint tokenId amount vout)))
    (htoken : intent.tokenId = some tokenId) (hamount : intent.tokenAmountAtoms = some amount)
    (hown : intent.OwnVout psbt vout) : intent.verifyTokenEnvelope psbt = .ok () := by
  simp only [ClientIntent.verifyTokenEnvelope, hread, bind_eq_ok]
  refine ⟨_, rfl, bind_eq_ok.mpr ⟨(), verifyTokenId_ok htoken rfl, ?_⟩⟩
  simp only [ClientIntent.verifyMintEnvelope, bind_eq_ok, demand_eq_ok, ensure_eq_ok]
  exact ⟨amount, hamount, (), rfl, hown⟩

theorem verifyChangeAllocations_ok {changes : List TokenAllocation}
    (h : ∀ a ∈ changes, intent.OwnVout psbt a.vout) :
    intent.verifyChangeAllocations psbt changes = .ok () := by
  induction changes with
  | nil => rfl
  | cons a changes ih =>
    simp only [ClientIntent.verifyChangeAllocations, bind_eq_ok, ensure_eq_ok]
    exact ⟨(), h a List.mem_cons_self, ih fun b hb => h b (List.mem_cons_of_mem a hb)⟩

theorem verifyTokenEnvelope_redeem {changes : List TokenAllocation}
    (hread : coveEnvelope psbt.txOutputs = .ok (some (.redeem tokenId amount changes)))
    (htoken : intent.tokenId = some tokenId) (hamount : intent.tokenAmountAtoms = some amount)
    (hown : ∀ a ∈ changes, intent.OwnVout psbt a.vout) :
    intent.verifyTokenEnvelope psbt = .ok () := by
  simp only [ClientIntent.verifyTokenEnvelope, hread, bind_eq_ok]
  refine ⟨_, rfl, bind_eq_ok.mpr ⟨(), verifyTokenId_ok htoken rfl, ?_⟩⟩
  simp only [ClientIntent.verifyRedeemEnvelope, bind_eq_ok, demand_eq_ok, ensure_eq_ok]
  exact ⟨amount, hamount, (), rfl, verifyChangeAllocations_ok hown⟩

/-- A transfer out of the wallet is let through when just the stated atoms leave. -/
theorem verifyTokenEnvelope_transfer_iff {allocations : List TokenAllocation}
    (hread : coveEnvelope psbt.txOutputs = .ok (some (.transfer tokenId allocations)))
    (htoken : intent.tokenId = some tokenId) (hamount : intent.tokenAmountAtoms = some amount)
    (hdirection : intent.tokenDirection.or intent.operation.tokenDirection = some .outward) :
    intent.verifyTokenEnvelope psbt = .ok () ↔ intent.leaving psbt allocations = amount := by
  simp only [ClientIntent.verifyTokenEnvelope, hread, bind_eq_ok]
  constructor
  · intro h
    obtain ⟨_, heq, h⟩ := h
    obtain rfl := Except.ok.inj heq
    obtain ⟨_, -, h⟩ := bind_eq_ok.mp h
    simp only [ClientIntent.verifyTransferEnvelope, hamount, hdirection, bind_eq_ok, demand_eq_ok,
      ensure_eq_ok] at h
    obtain ⟨_, heq, _, hdir, _, -, hleaves⟩ := h
    rw [Option.some.inj heq]
    exact hleaves (Option.some.inj hdir).symm
  · intro h
    refine ⟨_, rfl, bind_eq_ok.mpr ⟨(), verifyTokenId_ok htoken rfl, ?_⟩⟩
    simp only [ClientIntent.verifyTransferEnvelope, bind_eq_ok, demand_eq_ok, ensure_eq_ok]
    refine ⟨amount, hamount, .outward, hdirection, (), ?_, ?_⟩
    · intro hin
      cases hin
    · intro _
      exact h

end

/-! The three builds. -/

section

variable {C : Crypto} {X : SimplicityExecutor} {app : V3AppService} {ctx : BuildContext}
  {wallet : ResolvedWalletIdentity} {backing : AppBacking}

theorem buy_verified {req : BackingBuyRequest} {creatorScript : Bytes}
    {buyerInputs : List ResolvedInput} {minerFeeSats : Int} {result : MintResult}
    (hw : WalletResolved wallet)
    (hb : MintBuilt C (app.mintParams req wallet backing creatorScript buyerInputs minerFeeSats)
      result)
    (hvalue : backing.valueSats = reserveAnchorSats + backing.state.backingSats)
    (hprev : backing.script ∉ wallet.scripts) (hnext : result.nextVault.scriptPubKey ∉ wallet.scripts)
    (hfee : app.config.feeScript ∉ wallet.scripts) (hcreator : creatorScript ∉ wallet.scripts)
    (hne : creatorScript ≠ []) (hcoins : ∀ i ∈ buyerInputs, i.script = wallet.payments.script) :
    IntentVerified C result.psbt (V3AppService.buyIntent C req wallet creatorScript result) := by
  have hi : IntentOf wallet (V3AppService.buyIntent C req wallet creatorScript result) := ⟨rfl, rfl⟩
  have hmine := isMine_iff hw hi
  have hpayments := payments_mine hw hi
  have hordinals := ordinals_mine hw hi
  have hop := opReturn_not_mine hw hi result.wire
  have hnotPrev := mt (hmine _).mp hprev
  have hnotNext := mt (hmine _).mp hnext
  have hnotFee := mt (hmine _).mp hfee
  have hnotCreator := mt (hmine _).mp hcreator
  have hminer := minerFee_of_built hb.inputs hb.fee
  have hgross := applyMintV2_gross hb.canonical
  have hin := othersIn_vault hb.inputs hnotPrev fun i hi => by
    rw [hcoins i hi]
    exact hpayments
  have hout := othersOut_paid hb.outputs hpayments
  simp only [MintParams.payments, V3AppService.mintParams, List.filter_cons, List.filter_nil, hop,
    hnotNext, hnotFee, hnotCreator, hordinals, not_false_eq_true, not_true_eq_false, decide_true,
    decide_false, if_true, Bool.false_eq_true, if_false, List.map_cons, List.map_nil,
    List.sum_cons, List.sum_nil] at hout
  have hdelta := walletDelta_of_fee (V3AppService.buyIntent C req wallet creatorScript result) hminer
  obtain ⟨o0, hget0, ho0⟩ := hb.outputs.get (k := 0) rfl
  obtain ⟨o2, hget2, ho2⟩ := hb.outputs.get (k := 2) rfl
  obtain ⟨o3, hget3, ho3⟩ := hb.outputs.get (k := 3) rfl
  obtain ⟨o4, hget4, ho4⟩ := hb.outputs.get (k := 4) rfl
  have hown := ownVout_of_get hget2 ho2 hordinals
  constructor
  case digest => rfl
  case minerFee => exact hminer
  case stated =>
    intro stated hstated
    rw [← Option.some.inj hstated]
    exact (walletDelta_eq hw hi _).symm
  case protocolFee =>
    intro protocolFee hprotocol _
    rw [← Option.some.inj hprotocol]
    exact ⟨o3, List.mem_of_getElem? hget3, ho3.value⟩
  case balance =>
    have hleaves : (V3AppService.buyIntent C req wallet creatorScript result).creatorLeaves =
        result.creatorFeeSats := if_pos ⟨creatorScript, rfl, hnotCreator⟩
    have hprice : (V3AppService.buyIntent C req wallet creatorScript result).walletDelta result.psbt =
        -(result.grossSats + result.buyFeeSats + result.creatorFeeSats + result.minerFeeSats) := by
      have hbefore : (app.mintParams req wallet backing creatorScript buyerInputs
        minerFeeSats).prevBacking.valueSats = backing.valueSats := rfl
      have hstate : (app.mintParams req wallet backing creatorScript buyerInputs
        minerFeeSats).prevState = backing.state := rfl
      rw [hstate] at hgross
      dsimp only at hgross
      omega
    rw [← hleaves] at hprice
    refine verifyBackingBuy_ok rfl rfl ?_ hprice
    intro _
    exact ⟨creatorScript, rfl, hne, pays_of_get hget4 ho4⟩
  case payout =>
    refine (ensure_eq_ok _ _ _).mpr ⟨o2, List.mem_of_getElem? hget2, ?_⟩
    rw [ho2.script]
    exact hordinals
  case envelope =>
    have hread := coveEnvelope_get hget0 ho0.script (decode_encodeMintV2 hb.wire)
    exact verifyTokenEnvelope_mint hread rfl rfl hown

theorem redeem_verified {req : BuildRequest} {selected : List TokenCarrier}
    {funderInputs : List ResolvedInput} {minerFeeSats : Int} {result : RedeemResult}
    (hw : WalletResolved wallet)
    (hb : RedeemBuilt C (app.redeemParams req wallet backing selected funderInputs minerFeeSats)
      result)
    (hvalue : backing.valueSats = reserveAnchorSats + backing.state.backingSats)
    (hprev : backing.script ∉ wallet.scripts) (hnext : result.nextVault.scriptPubKey ∉ wallet.scripts)
    (hfee : app.config.feeScript ∉ wallet.scripts)
    (hcarriers : ∀ u ∈ selected, u.scriptPubKey = wallet.ordinals.script)
    (hcoins : ∀ i ∈ funderInputs, i.script = wallet.payments.script) :
    IntentVerified C result.psbt (V3AppService.redeemIntent C req wallet result) := by
  have hi : IntentOf wallet (V3AppService.redeemIntent C req wallet result) := ⟨rfl, rfl⟩
  have hmine := isMine_iff hw hi
  have hpayments := payments_mine hw hi
  have hordinals := ordinals_mine hw hi
  have hop := opReturn_not_mine hw hi result.wire
  have hnotPrev := mt (hmine _).mp hprev
  have hnotNext := mt (hmine _).mp hnext
  have hnotFee := mt (hmine _).mp hfee
  have hminer := minerFee_of_built hb.inputs hb.fee
  have hgross := applyRedeemV2_gross hb.canonical
  have hnet := hb.net
  have hown : ∀ i ∈ selected.map (TokenCarrier.input wallet) ++ funderInputs,
      (V3AppService.redeemIntent C req wallet result).IsMine i.script := by
    intro i hi
    rcases List.mem_append.mp hi with hi | hi
    · obtain ⟨u, hu, rfl⟩ := List.mem_map.mp hi
      have hscript : (u.input wallet).script = wallet.ordinals.script := hcarriers u hu
      rw [hscript]
      exact hordinals
    · rw [hcoins i hi]
      exact hpayments
  have hin := othersIn_vault hb.inputs hnotPrev hown
  have hout := othersOut_paid hb.outputs hpayments
  have hchange : ((if 0 < result.changeAtoms then
      [(⟨wallet.ordinals.script, tokenCarrierSats⟩ : Payment)] else []).filter fun p =>
        ¬ (V3AppService.redeemIntent C req wallet result).IsMine p.script) = [] := by
    split
    · simp [hordinals]
    · rfl
  simp only [RedeemParams.payments, V3AppService.redeemParams, List.filter_append, List.filter_cons,
    List.filter_nil, hchange, hop, hnotNext, hnotFee, hpayments, not_false_eq_true,
    not_true_eq_false, decide_true, decide_false, if_true, Bool.false_eq_true, if_false,
    List.map_cons, List.map_nil, List.append_nil, List.sum_cons, List.sum_nil] at hout
  have hdelta := walletDelta_of_fee (V3AppService.redeemIntent C req wallet result) hminer
  obtain ⟨o0, hget0, ho0⟩ := hb.outputs.get (k := 0) rfl
  obtain ⟨o2, hget2, ho2⟩ := hb.outputs.get (k := 2) rfl
  obtain ⟨o3, hget3, ho3⟩ := hb.outputs.get (k := 3) rfl
  constructor
  case digest => rfl
  case minerFee => exact hminer
  case stated =>
    intro stated hstated
    rw [← Option.some.inj hstated]
    exact (walletDelta_eq hw hi _).symm
  case protocolFee =>
    intro protocolFee hprotocol _
    rw [← Option.some.inj hprotocol]
    exact ⟨o3, List.mem_of_getElem? hget3, ho3.value⟩
  case balance =>
    have hpays : (V3AppService.redeemIntent C req wallet result).walletDelta result.psbt =
        result.netSats - result.minerFeeSats := by
      have hbefore : (app.redeemParams req wallet backing selected funderInputs
        minerFeeSats).prevBacking.valueSats = backing.valueSats := rfl
      have hstate : (app.redeemParams req wallet backing selected funderInputs
        minerFeeSats).prevState = backing.state := rfl
      rw [hstate] at hgross
      dsimp only at hgross
      omega
    exact verifyRedeem_ok rfl hpays
  case payout => exact (ensure_eq_ok _ _ _).mpr (pays_of_get hget2 ho2)
  case envelope =>
    have hread := coveEnvelope_get hget0 ho0.script (decode_encodeRedeemV2 hb.wire)
    refine verifyTokenEnvelope_redeem hread rfl rfl ?_
    intro a ha
    split at ha
    · rename_i hpos
      obtain rfl := List.mem_singleton.mp ha
      have hget : ((app.redeemParams req wallet backing selected funderInputs
          minerFeeSats).payments result)[4]? = some ⟨wallet.ordinals.script, tokenCarrierSats⟩ := by
        rw [RedeemParams.payments, if_pos hpos]
        rfl
      obtain ⟨o4, hget4, ho4⟩ := hb.outputs.get hget
      exact ownVout_of_get hget4 ho4 hordinals
    · cases ha

theorem transferParams_payments {req : TransferRequest} {selected : List TokenCarrier}
    {funderInputs : List ResolvedInput} {minerFeeSats : Int} (wire : Bytes) :
    (V3AppService.transferParams req wallet selected funderInputs minerFeeSats).payments wire =
      [⟨opReturnScript wire, 0⟩, ⟨req.recipientScript, tokenCarrierSats⟩] ++
        if req.amountAtoms < carrierAtoms selected
          then [⟨wallet.ordinals.script, tokenCarrierSats⟩] else [] := by
  have hiff : 0 < carrierAtoms selected - req.amountAtoms ↔
      req.amountAtoms < carrierAtoms selected := by omega
  simp only [TransferParams.payments, V3AppService.transferParams, V3AppService.transferOutputs, hiff]
  split
  · rfl
  · rfl

theorem transferParams_allocations {req : TransferRequest} {selected : List TokenCarrier}
    {funderInputs : List ResolvedInput} {minerFeeSats : Int} :
    (V3AppService.transferParams req wallet selected funderInputs minerFeeSats).allocations =
      ⟨1, req.amountAtoms⟩ :: if req.amountAtoms < carrierAtoms selected
        then [⟨2, carrierAtoms selected - req.amountAtoms⟩] else [] := by
  have hiff : 0 < carrierAtoms selected - req.amountAtoms ↔
      req.amountAtoms < carrierAtoms selected := by omega
  simp only [TransferParams.allocations, V3AppService.transferParams, V3AppService.transferOutputs,
    hiff]
  split
  · rfl
  · rfl

/-- What leaves the wallet is what the recipient gets, unless that is the wallet. -/
theorem transfer_leaving {intent : ClientIntent} {psbt : Psbt} {amount change : Int} {changes : Prop}
    [Decidable changes] (hchange : changes → intent.OwnVout psbt 2) :
    intent.leaving psbt (⟨1, amount⟩ :: if changes then [⟨2, change⟩] else []) =
      if intent.OwnVout psbt 1 then 0 else amount := by
  have hrest : ((if changes then [(⟨2, change⟩ : TokenAllocation)] else []).filter fun a =>
      ¬ intent.OwnVout psbt a.vout) = [] := by
    split
    · rename_i hpos
      simp [hchange hpos]
    · rfl
  rw [ClientIntent.leaving, List.filter_cons, hrest]
  by_cases hown : intent.OwnVout psbt 1
  · simp [hown]
  · simp [hown]

/-- The browser lets a transfer through when it goes to somebody else and an output comes back. -/
theorem transfer_verified_iff {req : TransferRequest} {selected : List TokenCarrier}
    {funderInputs : List ResolvedInput} {minerFeeSats : Int} {result : TransferResult}
    (hw : WalletResolved wallet)
    (hb : buildTransferPsbtV2 ctx.scriptForKind
      (V3AppService.transferParams req wallet selected funderInputs minerFeeSats) = .ok result) :
    IntentVerified C result.psbt (V3AppService.transferIntent C req wallet result) ↔
      req.recipientScript ∉ wallet.scripts ∧ (req.amountAtoms < carrierAtoms selected ∨
        WorthOutput wallet.payments.script
          (V3AppService.transferParams req wallet selected funderInputs minerFeeSats).leftover) := by
  have hi : IntentOf wallet (V3AppService.transferIntent C req wallet result) := ⟨rfl, rfl⟩
  have hmine := isMine_iff hw hi
  have hpayments := payments_mine hw hi
  have hordinals := ordinals_mine hw hi
  have hop := opReturn_not_mine hw hi result.wire
  have hbuilt := buildTransferPsbtV2_ok hb
  have hminer := minerFee_of_built hbuilt.inputs hbuilt.fee
  obtain ⟨paid, hpaid, houts⟩ := buildTransferPsbtV2_outputs hb
  have hplaces : PaidOut ((V3AppService.transferParams req wallet selected funderInputs
      minerFeeSats).payments result.wire) wallet.payments.script result.psbt.txOutputs := by
    rcases houts with ⟨-, o, houts, ho⟩ | ⟨-, houts⟩
    · have hscript : o.script = wallet.payments.script := ho
      exact ⟨paid, [o], [], by rw [houts, List.append_nil], hpaid, by simpa using hscript, by simp⟩
    · exact ⟨paid, [], [], by rw [houts, List.append_nil, List.append_nil], hpaid, by simp, by simp⟩
  have hwire := decode_encodeTransferV2 hbuilt.wire
  have hamount : 0 < req.amountAtoms := by
    apply (decodeV2_wellFormed hwire).amounts_pos ⟨1, req.amountAtoms⟩
    simp only [ParsedEnvelopeV2.allocated, transferParams_allocations]
    exact List.mem_cons_self
  rw [transferParams_payments] at hplaces hpaid
  rw [transferParams_allocations] at hwire
  obtain ⟨o0, hget0, ho0⟩ := hplaces.get (k := 0) rfl
  obtain ⟨o1, hget1, ho1⟩ := hplaces.get (k := 1) rfl
  have hread := coveEnvelope_get hget0 ho0.script hwire
  have hown1 : (V3AppService.transferIntent C req wallet result).OwnVout result.psbt 1 ↔
      req.recipientScript ∈ wallet.scripts := by
    rw [← hmine, ClientIntent.OwnVout, hget1]
    simp [ho1.script]
  have hback : (∃ o ∈ result.psbt.txOutputs,
      (V3AppService.transferIntent C req wallet result).IsMine o.script) ↔
        req.recipientScript ∈ wallet.scripts ∨ req.amountAtoms < carrierAtoms selected ∨
          WorthOutput wallet.payments.script
            (V3AppService.transferParams req wallet selected funderInputs minerFeeSats).leftover := by
    have hfirst : (∃ o ∈ paid, (V3AppService.transferIntent C req wallet result).IsMine o.script) ↔
        req.recipientScript ∈ wallet.scripts ∨ req.amountAtoms < carrierAtoms selected := by
      rw [ownOutput_payments hpaid, ← hmine]
      split
      · rename_i hpos
        simp [hop, hordinals, hpos]
      · rename_i hpos
        simp [hop, hpos]
    rcases houts with ⟨hworth, o, houts, ho⟩ | ⟨hworth, houts⟩
    · refine iff_of_true ⟨o, ?_, ?_⟩ (.inr (.inr hworth))
      · rw [houts]
        exact List.mem_append_right _ List.mem_cons_self
      · rw [ho]
        exact hpayments
    · have hnot : ¬ WorthOutput wallet.payments.script (V3AppService.transferParams req wallet
        selected funderInputs minerFeeSats).leftover := hworth
      rw [houts, hfirst]
      tauto
  have hleaves : (V3AppService.transferIntent C req wallet result).leaving result.psbt
      (⟨1, req.amountAtoms⟩ :: if req.amountAtoms < carrierAtoms selected
        then [⟨2, carrierAtoms selected - req.amountAtoms⟩] else []) =
      if req.recipientScript ∈ wallet.scripts then 0 else req.amountAtoms := by
    have hown2 : req.amountAtoms < carrierAtoms selected →
        (V3AppService.transferIntent C req wallet result).OwnVout result.psbt 2 := by
      intro hpos
      have hget : ([⟨opReturnScript result.wire, 0⟩, ⟨req.recipientScript, tokenCarrierSats⟩] ++
          if req.amountAtoms < carrierAtoms selected
            then [(⟨wallet.ordinals.script, tokenCarrierSats⟩ : Payment)] else [])[2]? =
          some ⟨wallet.ordinals.script, tokenCarrierSats⟩ := by
        rw [if_pos hpos]
        rfl
      obtain ⟨o2, hget2, ho2⟩ := hplaces.get hget
      exact ownVout_of_get hget2 ho2 hordinals
    rw [transfer_leaving hown2]
    simp only [hown1]
  have hdirection : (V3AppService.transferIntent C req wallet result).tokenDirection.or
      (V3AppService.transferIntent C req wallet result).operation.tokenDirection =
        some .outward := rfl
  have henvelope := verifyTokenEnvelope_transfer_iff hread rfl rfl hdirection
  constructor
  · intro h
    have hsent := henvelope.mp h.envelope
    have hreturned := hback.mp ((ensure_eq_ok _ _ _).mp h.payout)
    rw [hleaves] at hsent
    have haway : req.recipientScript ∉ wallet.scripts := by
      intro hself
      rw [if_pos hself] at hsent
      omega
    exact ⟨haway, hreturned.resolve_left haway⟩
  · intro h
    obtain ⟨haway, hreturns⟩ := h
    constructor
    case digest => rfl
    case minerFee => exact hminer
    case stated =>
      intro stated hstated
      rw [← Option.some.inj hstated]
      exact (walletDelta_eq hw hi _).symm
    case protocolFee =>
      intro protocolFee hprotocol
      cases hprotocol
    case balance => rfl
    case payout => exact (ensure_eq_ok _ _ _).mpr (hback.mpr (.inr hreturns))
    case envelope =>
      apply henvelope.mpr
      rw [hleaves, if_neg haway]

/-! The app's own checks. -/

theorem takeCarriers_subset {amountAtoms running : Int} {room : Nat} {carriers : List TokenCarrier} :
    ∀ u ∈ takeCarriers amountAtoms room running carriers, u ∈ carriers := by
  induction carriers generalizing room running with
  | nil =>
    intro u hu
    rw [takeCarriers] at hu
    exact hu
  | cons c carriers ih =>
    intro u hu
    cases room with
    | zero => cases hu
    | succ room =>
      rw [takeCarriers] at hu
      split at hu
      · cases hu
      · rcases List.mem_cons.mp hu with rfl | hu
        · exact List.mem_cons_self
        · exact List.mem_cons_of_mem c (ih u hu)

/-- Only carriers of the wallet are selected. -/
theorem selectCarriers_script {tokenId : Bytes} {amountAtoms : Int} {maxInputs : Nat}
    {advice : String} {selected : List TokenCarrier}
    (h : app.selectCarriers ctx wallet tokenId amountAtoms maxInputs advice = .ok selected) :
    ∀ u ∈ selected, u.scriptPubKey = wallet.ordinals.script := by
  simp only [V3AppService.selectCarriers, bind_eq_ok, ensure_eq_ok, pure_eq_ok] at h
  obtain ⟨_, -, _, -, rfl⟩ := h
  intro u hu
  have hsorted := (List.perm_insertionSort _ _).mem_iff.mp (takeCarriers_subset u hu)
  have hlisted := List.mem_of_mem_filter hsorted
  obtain ⟨o, -, ho⟩ := List.mem_filterMap.mp hlisted
  obtain ⟨row, hrow, rfl⟩ := Option.map_eq_some_iff.mp ho
  have hscript := (Option.filter_eq_some_iff.mp hrow).2
  simp only [decide_eq_true_eq] at hscript
  exact hscript.1

theorem creatorScriptOf_ok {tokenId creatorScript : Bytes}
    (h : app.creatorScriptOf tokenId = .ok creatorScript) : creatorScript ≠ [] ∧
      ∃ row, app.db.tokens.get tokenId = some row ∧ row.creatorScript = creatorScript := by
  rw [V3AppService.creatorScriptOf, demand_eq_ok, truthy, Option.filter_eq_some_iff] at h
  obtain ⟨hrow, hne⟩ := h
  exact ⟨by simpa using hne, Option.map_eq_some_iff.mp hrow⟩

theorem overlaid_state {tokenId : Bytes} {relevant : List OutPoint} :
    (app.overlaidView tokenId relevant backing).getCurrentBackingState tokenId =
      some backing.state := by
  rw [V3AppService.overlaidView, overlayPendingBacking]
  exact if_pos rfl

theorem checked_eq_ok {α : Type} {x : Except Refusal α} {a : α} : checked x = .ok a ↔ x = .ok a :=
  mapError_eq_ok

/-- Input 0 is worth what the coin it spends is. -/
theorem SpendsVault.spent {psbt : Psbt} {s : CoveStateV2} {r : ResolvedInput}
    {rs : List ResolvedInput} (h : SpendsVault psbt s)
    (hin : List.Forall₂ InputFor (r :: rs) psbt.inputs) :
    r.valueSats = reserveAnchorSats + s.backingSats := by
  obtain ⟨input, utxo, hget, hutxo, hvalue⟩ := h
  obtain ⟨i0, rest, h0, -, hinputs⟩ := List.forall₂_cons_left_iff.mp hin
  rw [hinputs] at hget
  obtain rfl : i0 = input := Option.some.inj hget
  obtain ⟨v, hv, hworth⟩ := h0.prevout
  rw [hutxo, Option.some.injEq] at hv
  rw [← hvalue, hv]
  exact hworth.symm

theorem buildBackingBuy_verified {req : BackingBuyRequest} {built : BuiltTransaction}
    (hapart : ScriptsApart C app req.tokenId req.wallet)
    (h : app.buildBackingBuy C X ctx req = .ok built) : IntentVerified C built.psbt built.intent := by
  simp only [V3AppService.buildBackingBuy, bind_eq_ok, ensure_eq_ok, checked_eq_ok, pure_eq_ok,
    Prod.exists] at h
  obtain ⟨_, -, wallet, hwallet, backing, hbacking, _, -, quoted, -, _, -, creatorScript, hcreator,
    _, -, buyerInputs, minerFeeSats, hfunding, result, hbuilt, v, hvalid, _, -, rfl⟩ := h
  have hb := buildMintPsbtV3_ok hbuilt
  have howns := resolveWalletIdentity_owns hwallet
  obtain ⟨hne, row, hrow, rfl⟩ := creatorScriptOf_ok hcreator
  have hv := validateMint_ok hvalid
  have hstate : v.analysis.currentState = backing.state := by
    have hread := hv.analyzed.state
    rw [mintRequest_token hv] at hread
    exact Option.some.inj (hread.symm.trans overlaid_state)
  have hspends := hv.spends
  rw [hstate] at hspends
  exact buy_verified (resolveWalletIdentity_ok hwallet) hb (hspends.spent hb.inputs)
    (mt (howns _).mp (hapart.backing backing hbacking))
    (mt (howns _).mp (hapart.vaults _ _ hb.nextVault)) (mt (howns _).mp hapart.fee)
    (mt (howns _).mp (hapart.creator row hrow)) hne (resolveFundingAndFee_ok hfunding)

theorem buildRedeem_verified {req : BuildRequest} {built : BuiltTransaction}
    (hapart : ScriptsApart C app req.tokenId req.wallet)
    (h : app.buildRedeem C X ctx req = .ok built) : IntentVerified C built.psbt built.intent := by
  simp only [V3AppService.buildRedeem, bind_eq_ok, checked_eq_ok, pure_eq_ok, Prod.exists] at h
  obtain ⟨_, -, wallet, hwallet, backing, hbacking, selected, hselected, _, -, _, -, _, -,
    funderInputs, minerFeeSats, hfunding, result, hbuilt, v, hvalid, _, -, rfl⟩ := h
  have hb := buildRedeemPsbtV3_ok hbuilt
  have howns := resolveWalletIdentity_owns hwallet
  obtain ⟨toks, hv⟩ := validateRedeem_ok hvalid
  have hstate : v.analysis.currentState = backing.state := by
    have hread := hv.analyzed.state
    rw [redeemRequest_token hv] at hread
    exact Option.some.inj (hread.symm.trans overlaid_state)
  have hspends := hv.spends
  rw [hstate] at hspends
  exact redeem_verified (resolveWalletIdentity_ok hwallet) hb (hspends.spent hb.inputs)
    (mt (howns _).mp (hapart.backing backing hbacking))
    (mt (howns _).mp (hapart.vaults _ _ hb.nextVault)) (mt (howns _).mp hapart.fee)
    (selectCarriers_script hselected) (resolveFundingAndFee_ok hfunding)

theorem buildTransfer_verified_iff {req : TransferRequest} {built : BuiltTransaction}
    (h : app.buildTransfer C ctx req = .ok built) :
    IntentVerified C built.psbt built.intent ↔
      ¬ req.wallet.Owns req.recipientScript ∧ app.ComesBack ctx req := by
  simp only [V3AppService.buildTransfer, bind_eq_ok, pure_eq_ok, Prod.exists] at h
  obtain ⟨_, -, wallet, hwallet, selected, hselected, funderInputs, minerFeeSats, hfunding, result,
    hbuilt, _, -, rfl⟩ := h
  have howns := resolveWalletIdentity_owns hwallet req.recipientScript
  have hback : app.ComesBack ctx req ↔ req.amountAtoms < carrierAtoms selected ∨
      WorthOutput wallet.payments.script
        (V3AppService.transferParams req wallet selected funderInputs minerFeeSats).leftover := by
    constructor
    · intro h
      obtain ⟨wallet', selected', funderInputs', minerFeeSats', hwallet', hselected', hfunding', h⟩ := h
      obtain rfl : wallet = wallet' := Except.ok.inj (hwallet.symm.trans hwallet')
      obtain rfl : selected = selected' := Except.ok.inj (hselected.symm.trans hselected')
      have heq := Except.ok.inj (hfunding.symm.trans hfunding')
      obtain ⟨rfl, rfl⟩ := Prod.mk.inj heq
      exact h
    · intro h
      exact ⟨wallet, selected, funderInputs, minerFeeSats, hwallet, hselected, hfunding, h⟩
  rw [hback, ← howns]
  exact transfer_verified_iff (resolveWalletIdentity_ok hwallet) hbuilt

/-- The browser lets through every buy and every redeem the app builds, and just those transfers
that go to somebody else and bring something back. -/
theorem honest_build_verified_iff {C : Crypto} {X : SimplicityExecutor} {app : V3AppService}
    {ctx : BuildContext} :
    (∀ req built, ScriptsApart C app req.tokenId req.wallet →
      app.buildBackingBuy C X ctx req = .ok built →
        ∃ v, verifyClientIntent C built.psbt built.intent = .ok v) ∧
    (∀ req built, ScriptsApart C app req.tokenId req.wallet →
      app.buildRedeem C X ctx req = .ok built →
        ∃ v, verifyClientIntent C built.psbt built.intent = .ok v) ∧
    ∀ req built, ScriptsApart C app req.tokenId req.wallet →
      app.buildTransfer C ctx req = .ok built →
        ((∃ v, verifyClientIntent C built.psbt built.intent = .ok v) ↔
          ¬ req.wallet.Owns req.recipientScript ∧ app.ComesBack ctx req) := by
  refine ⟨?_, ?_, ?_⟩
  · intro req built hapart h
    exact verifyClientIntent_ok_iff.mpr (buildBackingBuy_verified hapart h)
  · intro req built hapart h
    exact verifyClientIntent_ok_iff.mpr (buildRedeem_verified hapart h)
  · intro req built _ h
    rw [verifyClientIntent_ok_iff]
    exact buildTransfer_verified_iff h

end

/-! A wallet with two carriers and a coin. -/

def carrierRow (amountAtoms : Int) : UtxoRow where
  tokenId := alphaId
  amountAtoms
  scriptPubKey := sampleOwner
  createdHeight := 1
  createdBlockHash := List.replicate 32 0xb1
  spentByTxid := none
  spentHeight := none
  spentBlockHash := none
  burned := false

def bigCarrier : OutPoint := ⟨List.replicate 32 0x55, 2⟩
def smallCarrier : OutPoint := ⟨List.replicate 32 0x66, 2⟩

/-- The owner holds the first lot in two parts. -/
def carriersApp : V3AppService :=
  { quietApp false with
    db := { (quietApp false).db with
      tokenUtxos := Dict.set (Dict.set ∅ bigCarrier (carrierRow 60000000000)) smallCarrier
        (carrierRow 40000000000) } }

/-- The coin is worth so many sats. -/
def ownerContext (valueSats : Int) : BuildContext where
  guards := .ok ()
  getTxout _ := .ok (some ⟨sampleOwner, valueSats, 6⟩)
  rates := ⟨1, 1000, 2⟩
  scriptForKind _ _ := throw ⟨none, "no key is asked for"⟩
  carrierOrder := [smallCarrier, bigCarrier]

def ownerRequest (amountAtoms : Int) : BuildRequest where
  tokenId := alphaId
  amountAtoms
  wallet := ⟨sampleOwner, none, none, none⟩
  funding := [⟨List.replicate 32 0x44, 0⟩]
  feeRateSatPerVb := none
  minerFeeSats := none
  idempotencyKey := []

/-- The next lot, at the confirmed backing. -/
def ownerBuy : BackingBuyRequest :=
  { ownerRequest lotAtoms with
    quoteStateHash := Bytes.ofNatBE 32
      0x88056a1c9c814a7ceb1ab1e0b0de46f2f98da197d637e39772a9fbde65db28e6
    quoteBackingOutpoint := ⟨List.replicate 32 0x22, 1⟩ }

def ownerSend (amountAtoms : Int) (recipientScript : Bytes) : TransferRequest :=
  { ownerRequest amountAtoms with recipientScript }

theorem backingVault_taproot {C : Crypto} {s : CoveStateV2} {keys : VaultKeys} {vault : CoveVaultV3}
    (h : buildBackingVaultV3 C s keys = .ok vault) :
    ∃ key, vault.scriptPubKey = 0x51 :: 0x20 :: key := by
  simp only [buildBackingVaultV3, buildCoveVaultV3, bind_eq_ok, pure_eq_ok, Prod.exists] at h
  obtain ⟨_, -, _, -, _, -, _, -, _, -, _, -, _, -, key, _, -, rfl⟩ := h
  exact ⟨key, rfl⟩

theorem carriersApp_apart : ScriptsApart mainnetCrypto carriersApp alphaId
    (ownerRequest lotAtoms).wallet := by
  constructor
  case fee => decide +kernel
  case creator =>
    intro row hrow
    obtain rfl := Option.some.inj hrow
    decide +kernel
  case backing =>
    intro tip htip
    have hscript : (carriersApp.loadBacking mainnetCrypto alphaId).toOption.map AppBacking.script =
        some (0x51 :: 0x20 :: Bytes.ofNatBE 32
          0x306378d946459e52c3122bcf7062f6405193a5c5c9aa292324d73211b0359b85) := by
      decide +kernel
    rw [htip] at hscript
    rw [Option.some.inj hscript]
    decide +kernel
  case vaults =>
    intro state vault hvault
    obtain ⟨key, hkey⟩ := backingVault_taproot hvault
    rw [hkey]
    intro howns
    rcases howns with heq | heq
    · cases heq
    · cases heq

def ownerRole : ResolvedRole := { script := sampleOwner, publicKey := none, kind := .p2wpkh }

theorem ownerSend_comesBack :
    carriersApp.ComesBack (ownerContext 20000) (ownerSend 60000000000 sampleStranger) := by
  refine ⟨⟨ownerRole, ownerRole, [sampleOwner]⟩, [⟨carrierRow 60000000000, bigCarrier⟩],
    [{ txid := List.replicate 32 0x44, vout := 0, script := sampleOwner, valueSats := 20000 }], 648,
    ?_, ?_, ?_, .inr ⟨?_, ?_⟩⟩
  · decide +kernel
  · decide +kernel
  · decide +kernel
  · decide +kernel
  · decide +kernel

theorem honest_build_verified_sample :
    (∃ built v, carriersApp.buildBackingBuy mainnetCrypto passingExecutor (ownerContext 20000)
        ownerBuy = .ok built ∧ verifyClientIntent mainnetCrypto built.psbt built.intent = .ok v) ∧
    ∃ built v, carriersApp.buildTransfer mainnetCrypto (ownerContext 20000)
        (ownerSend 60000000000 sampleStranger) = .ok built ∧
      verifyClientIntent mainnetCrypto built.psbt built.intent = .ok v := by
  have hbuy : (carriersApp.buildBackingBuy mainnetCrypto passingExecutor (ownerContext 20000)
      ownerBuy).toOption.isSome = true := by
    decide +kernel
  have hsend : (carriersApp.buildTransfer mainnetCrypto (ownerContext 20000)
      (ownerSend 60000000000 sampleStranger)).toOption.isSome = true := by
    decide +kernel
  obtain ⟨bought, hbought⟩ := Option.isSome_iff_exists.mp hbuy
  obtain ⟨sent, hsent⟩ := Option.isSome_iff_exists.mp hsend
  rw [toOption_eq_some] at hbought hsent
  have hverified := @honest_build_verified_iff mainnetCrypto passingExecutor carriersApp
    (ownerContext 20000)
  obtain ⟨v, hv⟩ := hverified.1 ownerBuy bought carriersApp_apart hbought
  have haway : ¬ (ownerSend 60000000000 sampleStranger).wallet.Owns sampleStranger := by
    decide +kernel
  obtain ⟨w, hw⟩ := (hverified.2.2 _ sent carriersApp_apart hsent).mpr ⟨haway, ownerSend_comesBack⟩
  exact ⟨⟨bought, v, hbought, hv⟩, sent, w, hsent, hw⟩

/-- The app builds a transfer to its own sender, and one that spends carrier and coin up; the browser
refuses both. -/
theorem honest_build_refused :
    ScriptsApart mainnetCrypto carriersApp alphaId (ownerRequest lotAtoms).wallet ∧
    (∃ built, carriersApp.buildTransfer mainnetCrypto (ownerContext 20000)
        (ownerSend lotAtoms sampleOwner) = .ok built ∧
      ¬ ∃ v, verifyClientIntent mainnetCrypto built.psbt built.intent = .ok v) ∧
    ∃ built, carriersApp.buildTransfer mainnetCrypto (ownerContext 700)
        (ownerSend 60000000000 sampleStranger) = .ok built ∧
      ¬ ∃ v, verifyClientIntent mainnetCrypto built.psbt built.intent = .ok v := by
  have hself : (carriersApp.buildTransfer mainnetCrypto (ownerContext 20000)
      (ownerSend lotAtoms sampleOwner)).toOption.map (fun built =>
        (verifyClientIntent mainnetCrypto built.psbt built.intent).toOption.isSome) = some false := by
    decide +kernel
  have hspent : (carriersApp.buildTransfer mainnetCrypto (ownerContext 700)
      (ownerSend 60000000000 sampleStranger)).toOption.map (fun built =>
        (verifyClientIntent mainnetCrypto built.psbt built.intent).toOption.isSome) = some false := by
    decide +kernel
  have hrefused : ∀ x : Except Fault BuiltTransaction, x.toOption.map (fun built =>
      (verifyClientIntent mainnetCrypto built.psbt built.intent).toOption.isSome) = some false →
        ∃ built, x = .ok built ∧
          ¬ ∃ v, verifyClientIntent mainnetCrypto built.psbt built.intent = .ok v := by
    intro x hx
    obtain ⟨built, hbuilt, hnone⟩ := Option.map_eq_some_iff.mp hx
    refine ⟨built, toOption_eq_some.mp hbuilt, ?_⟩
    intro hv
    obtain ⟨v, hv⟩ := hv
    rw [hv] at hnone
    cases hnone
  exact ⟨carriersApp_apart, hrefused _ hself, hrefused _ hspent⟩

end Cove
