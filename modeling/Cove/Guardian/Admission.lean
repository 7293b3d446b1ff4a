import Cove.Guardian.Accept
import Cove.Indexer.Admit

/-! What the Guardian accepts against the indexer's view, the indexer accepts. -/

namespace Cove

open Checked

/-- The Guardian and the indexer run with the same network, keys, recovery profile and fees. -/
structure SharesRules (cfg : V3IndexerConfig) (params : ValidateParams) : Prop where
  network : params.network = cfg.network
  keys : params.vaultKeys = cfg.vaultKeys
  feeScript : params.feeScript = cfg.feeScript
  buyFeeBps : params.buyFeeBps = cfg.buyFeeBps
  buyFeeFlatSats : params.buyFeeFlatSats = cfg.buyFeeFlatSats
  creatorFeeBps : params.creatorFeeBps = cfg.creatorFeeBps
  redeemFeeBps : params.redeemFeeBps = cfg.redeemFeeBps
  redeemFeeFlatSats : params.redeemFeeFlatSats = cfg.redeemFeeFlatSats

/-- A payload the Guardian decodes is a Cove envelope to the indexer. -/
theorem parseCoveTx_of_opReturn {tx : Transaction} {out0 : TxOut} {e : ParsedEnvelopeV2}
    (hget : tx.outs[0]? = some out0) (h : opReturnEnvelope out0.script = .ok e) :
    parseCoveTx tx = .cove e := by
  simp only [opReturnEnvelope, bind_eq_ok, ensure_eq_ok] at h
  obtain ⟨_, ⟨-, hop⟩, _, hpush, hdecode⟩ := h
  exact parseCoveTx_eq_cove.mpr ⟨out0, hget, hop, hpush, hdecode⟩

theorem decodeCoveOpReturn_parses {psbt : Psbt} {tx : Transaction} {e : ParsedEnvelopeV2}
    (hx : psbt.Extracts tx) (h : decodeCoveOpReturn psbt = .ok e) : parseCoveTx tx = .cove e := by
  simp only [decodeCoveOpReturn, bind_eq_ok, demand_eq_ok] at h
  obtain ⟨out0, hget, hdecode⟩ := h
  exact parseCoveTx_of_opReturn (by rw [hx.outs, hget]) hdecode

section

variable {C : Crypto} {cfg : V3IndexerConfig} {X : SimplicityExecutor} {params : ValidateParams}
  {σ : Ledger} {seen : List Bytes} {relevant : List OutPoint} {tx : Transaction}
  {block : V3BlockInput}

/-- An input that passed the funding check holds no carrier. -/
theorem FundsClean.not_live {indices : List Nat} (h : FundsClean params indices)
    (hfund : params.fundingChecker.RefusesCarriers σ) {i : Nat} {input : PsbtInput} (hi : i ∈ indices)
    (hget : params.psbt.inputs[i]? = some input) : σ.tokenUtxos.get input.outpoint = none := by
  by_contra hne
  obtain ⟨u, hu⟩ := Option.ne_none_iff_exists'.mp hne
  exact hfund input.outpoint (Dict.has_iff.mpr ⟨u, hu⟩) (h i hi input hget).2

theorem Psbt.Extracts.mem_spends {psbt : Psbt} (hx : psbt.Extracts tx) {o : OutPoint}
    (ho : o ∈ tx.spends) :
    ∃ i input, i < psbt.inputs.length ∧ psbt.inputs[i]? = some input ∧ input.outpoint = o := by
  rw [hx.spends] at ho
  obtain ⟨input, hmem, rfl⟩ := List.mem_map.mp ho
  obtain ⟨i, hi, hget⟩ := List.getElem_of_mem hmem
  exact ⟨i, input, hi, by rw [List.getElem?_eq_getElem hi, hget], rfl⟩

/-- The backing record behind the view's answers. -/
theorem backing_of_view (hview : params.view = loadCanonicalViewSnapshot σ relevant)
    {tokenId : Bytes} {s : CoveStateV2} {o : OutPoint}
    (hs : params.view.getCurrentBackingState tokenId = some s)
    (ho : params.view.getBackingOutpoint tokenId = some o) :
    ∃ b, σ.backing.get tokenId = some b ∧ b.state = s ∧ b.outpoint = o := by
  rw [hview] at hs ho
  obtain ⟨b, hb, hbs⟩ := Option.map_eq_some_iff.mp hs
  obtain ⟨b', hb', hbo⟩ := Option.map_eq_some_iff.mp ho
  obtain rfl : b = b' := by simpa [hb] using hb'
  exact ⟨b, hb, hbs, hbo⟩

theorem creator_of_view (hview : params.view = loadCanonicalViewSnapshot σ relevant)
    {tokenId script : Bytes} (h : params.view.getTokenCreatorScript tokenId = some script) :
    ∃ m, σ.tokens.get tokenId = some m ∧ m.creatorScript = script := by
  rw [hview] at h
  obtain ⟨hmap, -⟩ := Option.filter_eq_some_iff.mp h
  exact Option.map_eq_some_iff.mp hmap

/-- No input of an accepted mint holds a carrier. -/
theorem MintValidated.not_live {v : Validated MintAnalysis} (hv : MintValidated C params X v)
    (hI : LedgerInv C cfg seen σ) (hview : params.view = loadCanonicalViewSnapshot σ relevant)
    (hfund : params.fundingChecker.RefusesCarriers σ) (hx : params.psbt.Extracts tx) :
    ∀ o ∈ tx.spends, σ.tokenUtxos.get o = none := by
  intro o ho
  obtain ⟨i, input, hi, hget, rfl⟩ := hx.mem_spends ho
  cases i with
  | zero =>
    obtain ⟨b, hb, -, hbo⟩ := backing_of_view hview hv.analyzed.state hv.analyzed.outpoint
    obtain ⟨input', hget', hout⟩ := hv.analyzed.input0
    obtain rfl : input = input' := by simpa [hget] using hget'
    rw [hout, ← hbo]
    exact hI.apart _ b hb
  | succ i =>
    refine hv.funding.not_live hfund (i := i + 1) ?_ hget
    rw [hv.analyzed.buyers, List.mem_iff_getElem?]
    refine ⟨i, ?_⟩
    rw [List.getElem?_drop, Nat.add_comm, List.getElem?_range hi]

theorem stateHashV2_of_valid {s : CoveStateV2} (h : ValidStateV2 s) :
    ∃ stateHash, stateHashV2 C s = .ok stateHash := by
  obtain ⟨bytes, hb⟩ := h.serializes
  simp only [stateHashV2, bind_eq_ok, pure_eq_ok]
  exact ⟨_, bytes, hb, rfl⟩

/-- What the Guardian checked of a mint is what the indexer asks for. -/
theorem MintValidated.accepts {v : Validated MintAnalysis} (hv : MintValidated C params X v)
    (hview : params.view = loadCanonicalViewSnapshot σ relevant) (hrules : SharesRules cfg params)
    (hx : params.psbt.Extracts tx) :
    ∃ a : MintAccepted C cfg σ tx v.analysis.tokenId v.analysis.amountAtoms
      v.analysis.recipientVout, a.canonical = ⟨v.analysis.nextState, v.analysis.grossSats⟩ := by
  obtain ⟨b, hb, hbs, hbo⟩ := backing_of_view hview hv.analyzed.state hv.analyzed.outpoint
  obtain ⟨m, hm, hmc⟩ := creator_of_view hview hv.analyzed.creator
  obtain ⟨input, hi, hout⟩ := hv.analyzed.input0
  obtain ⟨ins0, hins, hinsout⟩ := hx.input0 hi
  obtain ⟨vault, successor, hvault, hsucc, hsscript, hsvalue⟩ := hv.successor
  obtain ⟨carrier, hcar, hcarv, hcars⟩ := hv.carrier
  obtain ⟨feeOut, hfee, hfeev, hfees⟩ := hv.feePaid
  obtain ⟨creatorOut, hcr, hcrv, hcrs⟩ := hv.creatorPaid
  obtain ⟨stateHash, hhash⟩ :=
    stateHashV2_of_valid (C := C) (applyMintV2_spec hv.analyzed.canonical).2.1
  rw [← hx.outs] at hsucc hcar hfee hcr
  have hcfee := hv.analyzed.creatorFee
  have hpfee := hv.analyzed.fee
  rw [hrules.creatorFeeBps] at hcfee
  rw [hrules.buyFeeBps, hrules.buyFeeFlatSats] at hpfee
  exact ⟨{
    tokenMeta := m
    backing := b
    ins0, successor, carrier, feeOut, creatorOut, stateHash
    canonical := ⟨v.analysis.nextState, v.analysis.grossSats⟩
    feeSats := v.analysis.protocolFeeSats
    nextVault := vault
    creatorFee := v.analysis.creatorFeeSats
    meta_get := hm
    backing_get := hb
    ins0_get := hins
    ins0_outpoint := by rw [hinsout, hout, hbo]
    canonical_eq := by rw [hbs]; exact hv.analyzed.canonical
    fee_eq := hpfee
    vault_eq := by rw [← hrules.keys]; exact hvault
    successor_get := hsucc
    successor_script := hsscript
    successor_value := hsvalue
    vout_eq := hv.vout
    carrier_get := hcar
    carrier_ok := ⟨hcarv, hcars⟩
    feeOut_get := hfee
    feeOut_ok := ⟨hfeev, by rw [hfees, hrules.feeScript]⟩
    creator_get := hcr
    creatorFee_eq := hcfee
    creator_ok := ⟨hcrv, by rw [hcrs, hmc]⟩
    stateHash_eq := hhash }, rfl⟩

/-! The carriers a redeem spends. -/

/-- An input of an accepted redeem that the view does not know passed the funding check. -/
theorem RedeemValidated.checked {v : Validated RedeemAnalysis} {toks : List (Nat × TokenUtxo)}
    (hv : RedeemValidated C params X v toks) {input : PsbtInput}
    (hmem : input ∈ params.psbt.inputs.drop 1)
    (hnone : params.view.getTokenUtxo input.outpoint = none) :
    params.fundingChecker.check input.outpoint = .ok .ok := by
  obtain ⟨-, -, hidx⟩ := resolveSellerInputs_ok hv.analyzed.resolved
  obtain ⟨j, hj, hjget⟩ := List.getElem_of_mem hmem
  have hdrop : (params.psbt.inputs.drop 1)[j]? = some input := by
    rw [List.getElem?_eq_getElem hj, hjget]
  have hget : params.psbt.inputs[1 + j]? = some input := by rwa [List.getElem?_drop] at hdrop
  have hlen : 1 + j < params.psbt.inputs.length := by
    rw [List.length_drop] at hj
    omega
  have hnot : 1 + j ∉ v.analysis.tokenInputIndices := by
    rw [hv.analyzed.tokenIndices]
    intro hin
    obtain ⟨tok, htok⟩ := hidx j input hdrop hin
    rw [hnone] at htok
    cases htok
  refine (hv.funding (1 + j) ?_ input hget).2
  rw [List.mem_filter, List.mem_range]
  exact ⟨hlen, decide_eq_true ⟨by omega, hnot⟩⟩

/-- The indexer finds the same carriers among the inputs as the Guardian does. -/
theorem RedeemValidated.live_eq {v : Validated RedeemAnalysis} {toks : List (Nat × TokenUtxo)}
    (hv : RedeemValidated C params X v toks) (hI : LedgerInv C cfg seen σ)
    (hview : params.view = loadCanonicalViewSnapshot σ relevant)
    (hfund : params.fundingChecker.RefusesCarriers σ) (hx : params.psbt.Extracts tx) :
    (liveInputs σ.tokenUtxos tx.ins).map V3TokenUtxo.toTokenUtxo = toks.map Prod.snd := by
  obtain ⟨hmap, -, -⟩ := resolveSellerInputs_ok hv.analyzed.resolved
  have hagree : ∀ input ∈ params.psbt.inputs.drop 1,
      (σ.tokenUtxos.get input.outpoint).map V3TokenUtxo.toTokenUtxo =
        params.view.getTokenUtxo input.outpoint := by
    intro input hmem
    cases hk : params.view.getTokenUtxo input.outpoint with
    | none =>
      -- Not taken for a carrier, so it was checked as a funding input.
      have hcheck := hv.checked hmem hk
      cases hlive : σ.tokenUtxos.get input.outpoint with
      | none => rfl
      | some u => exact absurd hcheck (hfund _ (Dict.has_iff.mpr ⟨u, hlive⟩))
    | some tok =>
      rw [hview, loadCanonicalViewSnapshot] at hk
      dsimp only at hk
      split at hk
      · exact hk
      · cases hk
  obtain ⟨input0, hin0, hout0⟩ := hv.analyzed.input0
  obtain ⟨b, hb, -, hbo⟩ := backing_of_view hview hv.analyzed.state hv.analyzed.outpoint
  have hzero : σ.tokenUtxos.get input0.outpoint = none := by
    rw [hout0, ← hbo]
    exact hI.apart _ b hb
  have hinputs : params.psbt.inputs = input0 :: params.psbt.inputs.drop 1 := by
    cases hl : params.psbt.inputs with
    | nil => simp [hl] at hin0
    | cons i is =>
      obtain rfl : i = input0 := by simpa [hl] using hin0
      rfl
  have hlive : liveInputs σ.tokenUtxos tx.ins =
      tx.spends.filterMap fun o => σ.tokenUtxos.get o := by
    rw [liveInputs, Transaction.spends, List.filterMap_map]
    rfl
  rw [hlive, hx.spends, hmap, hinputs, List.map_cons, List.filterMap_cons, hzero, List.drop_succ_cons,
    List.drop_zero, List.filterMap_map, List.map_filterMap]
  apply List.filterMap_congr
  exact hagree

theorem RedeemValidated.accepts {v : Validated RedeemAnalysis} {toks : List (Nat × TokenUtxo)}
    (hv : RedeemValidated C params X v toks) (block : V3BlockInput) (hI : LedgerInv C cfg seen σ)
    (hview : params.view = loadCanonicalViewSnapshot σ relevant) (hrules : SharesRules cfg params)
    (hx : params.psbt.Extracts tx)
    (hlive : (liveInputs σ.tokenUtxos tx.ins).map V3TokenUtxo.toTokenUtxo = toks.map Prod.snd) :
    ∃ a : RedeemAccepted C cfg block σ tx v.analysis.tokenId v.analysis.redeemAmountAtoms
      v.analysis.changeAllocations, a.canonical = ⟨v.analysis.nextState, v.analysis.grossSats⟩ := by
  obtain ⟨b, hb, hbs, hbo⟩ := backing_of_view hview hv.analyzed.state hv.analyzed.outpoint
  obtain ⟨m, hm⟩ : ∃ m, σ.tokens.get v.analysis.tokenId = some m := by
    apply Dict.has_iff.mp
    rw [hI.same_keys]
    exact Dict.has_iff.mpr ⟨b, hb⟩
  obtain ⟨input, hi, hout⟩ := hv.analyzed.input0
  obtain ⟨ins0, hins, hinsout⟩ := hx.input0 hi
  obtain ⟨vault, successor, hvault, hsucc, hsscript, hsvalue⟩ := hv.successor
  obtain ⟨payout, hpay, hpayv⟩ := hv.payout
  obtain ⟨feeOut, hfee, hfeev, hfees⟩ := hv.feePaid
  obtain ⟨stateHash, hhash⟩ :=
    stateHashV2_of_valid (C := C) (applyRedeemV2_spec hv.analyzed.canonical).2.1
  obtain ⟨-, hall, -⟩ := resolveSellerInputs_ok hv.analyzed.resolved
  rw [← hx.outs] at hsucc hpay hfee
  have hpfee := hv.analyzed.fee
  rw [hrules.redeemFeeBps, hrules.redeemFeeFlatSats] at hpfee
  have hsum : sumAtoms (liveInputs σ.tokenUtxos tx.ins) = v.analysis.tokenInputTotalAtoms := by
    have hamounts := congrArg (fun l => (l.map TokenUtxo.amountAtoms).sum) hlive
    rw [hv.analyzed.tokenTotal]
    simpa [sumAtoms, List.map_map, Function.comp_def, V3TokenUtxo.toTokenUtxo] using hamounts
  have hspent : resolveTokenInputs σ tx v.analysis.tokenId =
      .ok (liveInputs σ.tokenUtxos tx.ins) := by
    refine resolveTokenInputs_eq_ok.mpr ⟨rfl, ?_, ?_⟩
    · intro u hu
      have hmem : u.toTokenUtxo ∈ toks.map Prod.snd := by
        rw [← hlive]
        exact List.mem_map_of_mem hu
      obtain ⟨t, ht, heq⟩ := List.mem_map.mp hmem
      have htok := (hall t ht).2
      rw [heq] at htok
      exact htok
    · intro hnil
      rw [hnil] at hlive
      exact hv.analyzed.some_tok (List.map_eq_nil_iff.mp hlive.symm)
  have hchange : sumAtoms (liveInputs σ.tokenUtxos tx.ins) - v.analysis.redeemAmountAtoms =
      v.analysis.changeAtoms := by rw [hsum, RedeemAnalysis.changeAtoms]
  have hcreated : redeemCarriers C block tx v.analysis.tokenId v.analysis.changeAtoms
      v.analysis.changeAllocations =
        .ok (v.analysis.changeAllocations.map (carrierAt C block tx v.analysis.tokenId)) := by
    refine redeemCarriers_eq_ok.mpr ⟨?_, rfl⟩
    have hcarried := hv.change
    unfold ChangeCarried at hcarried
    rw [← hx.outs] at hcarried
    exact hcarried
  exact ⟨{
    tokenMeta := m
    backing := b
    ins0, successor, payout, feeOut, stateHash
    spentUtxos := liveInputs σ.tokenUtxos tx.ins
    canonical := ⟨v.analysis.nextState, v.analysis.grossSats⟩
    feeSats := v.analysis.protocolFeeSats
    nextVault := vault
    createdUtxos := v.analysis.changeAllocations.map (carrierAt C block tx v.analysis.tokenId)
    meta_get := hm
    backing_get := hb
    ins0_get := hins
    ins0_outpoint := by rw [hinsout, hout, hbo]
    spent_eq := hspent
    change_nonneg := by rw [hchange]; exact hv.change_nonneg
    change_eq := by rw [hchange]; exact hv.change_eq
    canonical_eq := by rw [hbs]; exact hv.analyzed.canonical
    fee_eq := hpfee
    vault_eq := by rw [← hrules.keys]; exact hvault
    successor_get := hsucc
    successor_script := hsscript
    successor_value := hsvalue
    payout_get := hpay
    payout_value := by rw [hpayv, hv.analyzed.net]
    feeOut_get := hfee
    feeOut_ok := ⟨hfeev, by rw [hfees, hrules.feeScript]⟩
    created_eq := by rw [hchange]; exact hcreated
    stateHash_eq := hhash }, rfl⟩

/-! The refinement. -/

/-- The token's backing record has the state and sits on output 1 of the transaction. -/
def BackedAt (C : Crypto) (tx : Transaction) (σ : Ledger) (tokenId : Bytes) (s : CoveStateV2) :
    Prop :=
  ∃ b, σ.backing.get tokenId = some b ∧ b.state = s ∧ b.outpoint = ⟨tx.getId C, 1⟩

variable {chain : List V3BlockInput} {σ : V3IndexerState}

theorem MintValidated.recorded {v : Validated MintAnalysis} (hv : MintValidated C params X v)
    (hσ : Reachable C cfg chain σ)
    (hview : params.view = loadCanonicalViewSnapshot σ.toLedger relevant)
    (hrules : SharesRules cfg params) (hfund : params.fundingChecker.RefusesCarriers σ.toLedger)
    (hx : params.psbt.Extracts tx) (hb : ActiveBlock C cfg chain block) (htxs : block.txs = [tx]) :
    ∃ σ', RecordsValid C cfg σ block tx .mint v.analysis.tokenId σ' ∧
      BackedAt C tx σ'.toLedger v.analysis.tokenId v.analysis.nextState ∧
      ∀ o, σ'.tokenUtxos.get o = if o = ⟨tx.getId C, 2⟩
        then some (carrierAt C block tx v.analysis.tokenId ⟨2, v.analysis.amountAtoms⟩)
        else σ.tokenUtxos.get o := by
  have hnot := hv.not_live hσ.inv.ledger hview hfund hx
  obtain ⟨a, ha⟩ := hv.accepts hview hrules hx
  have hparse := decodeCoveOpReturn_parses hx hv.analyzed.wire
  have hspent : ∀ o ∈ tx.spends, ∀ u, σ.tokenUtxos.get o = some u →
      o ∈ (a.effect block).spent.map V3TokenUtxo.outpoint := by
    intro o ho u hu
    rw [hnot o ho] at hu
    cases hu
  obtain ⟨σ', hrec, hledger⟩ := records_of_acceptance hb htxs hparse (.mint a) hspent rfl
  refine ⟨σ', hrec, ?_, ?_⟩
  · rw [hledger]
    refine ⟨a.nextBacking block, Dict.get_set_self _ _ _, ?_, rfl⟩
    rw [MintAccepted.nextBacking, ha]
    rfl
  · intro o
    have hcreated : a.createdUtxo block =
        carrierAt C block tx v.analysis.tokenId ⟨2, v.analysis.amountAtoms⟩ := by
      rw [a.created_eq, hv.vout]
    rw [← hcreated, hledger]
    exact Dict.get_set _ _ _ _

theorem RedeemValidated.recorded {v : Validated RedeemAnalysis} {toks : List (Nat × TokenUtxo)}
    (hv : RedeemValidated C params X v toks) (hσ : Reachable C cfg chain σ)
    (hview : params.view = loadCanonicalViewSnapshot σ.toLedger relevant)
    (hrules : SharesRules cfg params) (hfund : params.fundingChecker.RefusesCarriers σ.toLedger)
    (hx : params.psbt.Extracts tx) (hb : ActiveBlock C cfg chain block) (htxs : block.txs = [tx]) :
    ∃ σ', RecordsValid C cfg σ block tx .redeem v.analysis.tokenId σ' ∧
      BackedAt C tx σ'.toLedger v.analysis.tokenId v.analysis.nextState ∧
      (∃ spent, spent.map V3TokenUtxo.outpoint = v.analysis.tokenInputOutpoints ∧
        sumAtoms spent = v.analysis.redeemAmountAtoms + v.analysis.changeAtoms ∧
        ∀ u ∈ spent, σ.tokenUtxos.get u.outpoint = some u ∧ u.tokenId = v.analysis.tokenId) ∧
      ∀ o, σ'.tokenUtxos.get o =
        if 0 < v.analysis.changeAtoms ∧ o = ⟨tx.getId C, 4⟩
        then some (carrierAt C block tx v.analysis.tokenId ⟨4, v.analysis.changeAtoms⟩)
        else if o ∈ v.analysis.tokenInputOutpoints then none else σ.tokenUtxos.get o := by
  have hI := hσ.inv.ledger
  have hlive := hv.live_eq hI hview hfund hx
  obtain ⟨a, ha⟩ := hv.accepts block hI hview hrules hx hlive
  have hparse := decodeCoveOpReturn_parses hx hv.analyzed.wire
  obtain ⟨hspenteq, htokens, -⟩ := resolveTokenInputs_eq_ok.mp a.spent_eq
  have houtpoints : a.spentUtxos.map V3TokenUtxo.outpoint = v.analysis.tokenInputOutpoints := by
    have h := congrArg (List.map TokenUtxo.outpoint) hlive
    rw [hv.analyzed.tokenOutpoints, hspenteq]
    simpa [List.map_map, Function.comp_def, V3TokenUtxo.toTokenUtxo] using h
  have hmem : ∀ u ∈ a.spentUtxos, σ.tokenUtxos.get u.outpoint = some u := by
    intro u hu
    rw [hspenteq] at hu
    exact ((mem_liveInputs hI.keyed).mp hu).1
  have hspent : ∀ o ∈ tx.spends, ∀ u, σ.tokenUtxos.get o = some u →
      o ∈ a.effect.spent.map V3TokenUtxo.outpoint := by
    intro o ho u hu
    have hout := hI.keyed o u hu
    refine List.mem_map.mpr ⟨u, ?_, hout⟩
    show u ∈ a.spentUtxos
    rw [hspenteq, mem_liveInputs hI.keyed, hout]
    exact ⟨hu, ho⟩
  obtain ⟨σ', hrec, hledger⟩ := records_of_acceptance hb htxs hparse (.redeem a) hspent rfl
  refine ⟨σ', hrec, ?_, ⟨a.spentUtxos, houtpoints, ?_, fun u hu => ⟨hmem u hu, htokens u hu⟩⟩, ?_⟩
  · rw [hledger]
    refine ⟨a.nextBacking, Dict.get_set_self _ _ _, ?_, rfl⟩
    rw [RedeemAccepted.nextBacking, ha]
    rfl
  · have hchange := hv.change_eq
    have hsum := a.change_eq
    omega
  · intro o
    have hcreated := (redeemCarriers_eq_ok.mp a.created_eq).2
    have hget : σ'.tokenUtxos.get o = ((σ.tokenUtxos.deleteAll v.analysis.tokenInputOutpoints).setAll
        ((v.analysis.changeAllocations.map (carrierAt C block tx v.analysis.tokenId)).map
          V3TokenUtxo.entry)).get o := by
      rw [hledger, ← houtpoints, ← hcreated]
      rfl
    have hcarried := hv.change
    unfold ChangeCarried at hcarried
    rw [hget]
    split at hcarried
    · rename_i hpos
      rw [hcarried.2, List.map_singleton, List.map_singleton, Dict.setAll_cons, Dict.setAll_nil,
        Dict.get_set, Dict.get_deleteAll]
      simp only [hpos, true_and]
      rfl
    · rename_i hpos
      rw [hcarried, List.map_nil, List.map_nil, Dict.setAll_nil, Dict.get_deleteAll]
      simp only [hpos, false_and, if_false]

/-- A transition the Guardian accepts against the indexer's own view, with the same rules and
a checker that refuses live carriers, is recorded as valid once its transaction is applied.
The backing becomes the analysis' next state at output 1, the carriers change exactly as the
analysis says, and nothing is burned. -/
theorem guardian_refines_indexer (hσ : Reachable C cfg chain σ)
    (hview : params.view = loadCanonicalViewSnapshot σ.toLedger relevant)
    (hrules : SharesRules cfg params) (hfund : params.fundingChecker.RefusesCarriers σ.toLedger)
    (hx : params.psbt.Extracts tx) (hb : ActiveBlock C cfg chain block) (htxs : block.txs = [tx]) :
    (∀ v, validateMintTransitionV3 C X params = .ok v →
      ∃ σ', RecordsValid C cfg σ block tx .mint v.analysis.tokenId σ' ∧
        BackedAt C tx σ'.toLedger v.analysis.tokenId v.analysis.nextState ∧
        ∀ o, σ'.tokenUtxos.get o = if o = ⟨tx.getId C, 2⟩
          then some (carrierAt C block tx v.analysis.tokenId ⟨2, v.analysis.amountAtoms⟩)
          else σ.tokenUtxos.get o) ∧
    (∀ v, validateRedeemTransitionV3 C X params = .ok v →
      ∃ σ', RecordsValid C cfg σ block tx .redeem v.analysis.tokenId σ' ∧
        BackedAt C tx σ'.toLedger v.analysis.tokenId v.analysis.nextState ∧
        (∃ spent, spent.map V3TokenUtxo.outpoint = v.analysis.tokenInputOutpoints ∧
          sumAtoms spent = v.analysis.redeemAmountAtoms + v.analysis.changeAtoms ∧
          ∀ u ∈ spent, σ.tokenUtxos.get u.outpoint = some u ∧ u.tokenId = v.analysis.tokenId) ∧
        ∀ o, σ'.tokenUtxos.get o =
          if 0 < v.analysis.changeAtoms ∧ o = ⟨tx.getId C, 4⟩
          then some (carrierAt C block tx v.analysis.tokenId ⟨4, v.analysis.changeAtoms⟩)
          else if o ∈ v.analysis.tokenInputOutpoints then none else σ.tokenUtxos.get o) := by
  constructor
  · intro v h
    exact (validateMint_ok h).recorded hσ hview hrules hfund hx hb htxs
  · intro v h
    obtain ⟨toks, hv⟩ := validateRedeem_ok h
    exact hv.recorded hσ hview hrules hfund hx hb htxs

end

theorem carrierChecker_refuses (σ : Ledger) : (carrierChecker σ).RefusesCarriers σ := by
  intro o ho h
  simp [carrierChecker, ho] at h

theorem sampleMintPsbt_extracts : sampleMintPsbt.Extracts alphaMint := by
  have h : alphaMint.spends = sampleMintPsbt.inputs.map PsbtInput.outpoint := by decide +kernel
  exact ⟨h, rfl⟩

/-- The sample mint, accepted after the deploy and then applied. -/
theorem guardian_refines_sample : ∃ σ σ' v,
    Reachable sampleCrypto sampleConfig [deployBlock] σ ∧
    validateMintTransitionV3 sampleCrypto passingExecutor (sampleMintParams σ.toLedger) = .ok v ∧
    RecordsValid sampleCrypto sampleConfig σ mintBlock alphaMint .mint v.analysis.tokenId σ' ∧
    BackedAt sampleCrypto alphaMint σ'.toLedger v.analysis.tokenId v.analysis.nextState := by
  obtain ⟨σ, events, v, happly, hv⟩ := sampleMint_validates
  have hreach : Reachable sampleCrypto sampleConfig [deployBlock] σ :=
    .apply .new deployBlock_active happly
  obtain ⟨σ', hrec, hback, -⟩ := (guardian_refines_indexer hreach rfl
    ⟨rfl, rfl, rfl, rfl, rfl, rfl, rfl, rfl⟩ (carrierChecker_refuses _) sampleMintPsbt_extracts
    mintBlock_active rfl).1 v hv
  exact ⟨σ, σ', v, hreach, hv, hrec, hback⟩

end Cove
