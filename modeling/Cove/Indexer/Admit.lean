import Cove.Indexer.Chain

/-! A block of one accepted transaction: what is recorded of it, and when it burns nothing. -/

namespace Cove

open Checked

/-- The carriers an operation burned. -/
def UndoOp.burned : UndoOp → List V3TokenUtxo
  | .burn _ spentUtxos => spentUtxos
  | _ => []

/-- The block's transaction is recorded as a valid operation of the token, and the block
burns no carrier. -/
structure RecordsValid (C : Crypto) (cfg : V3IndexerConfig) (σ : V3IndexerState)
    (block : V3BlockInput) (tx : Transaction) (op : V3Operation) (tokenId : Bytes)
    (σ' : V3IndexerState) : Prop where
  applied : ∃ event, applyBlock C cfg σ block = .ok (σ', [event]) ∧ event.txid = tx.getId C ∧
    event.operation = some op ∧ event.valid = true ∧ event.tokenId = some tokenId
  burns_nothing : ∃ undo, σ'.undoByHeight.get block.height = some undo ∧
    ∀ o ∈ undo.ops, o.burned = []

section

variable {C : Crypto} {cfg : V3IndexerConfig} {block : V3BlockInput} {tx : Transaction}
  {envelope : ParsedEnvelopeV2}

/-- The entry of an accepted operation is never a burn. -/
theorem Acceptance.burned {σ : Ledger} (a : Acceptance C cfg block σ tx envelope) :
    a.undo.burned = [] := by
  cases a <;> rfl

theorem applyTx_accepted {txIndex : Nat} {run : BlockRun} (hn : tx.spends.Nodup)
    (hp : parseCoveTx tx = .cove envelope) (a : Acceptance C cfg block run.ledger tx envelope) :
    applyTx C cfg block txIndex tx run =
      .ok ((Outcome.accepted envelope hp a).after txIndex) := by
  have happly : applyEnvelope C cfg block run.ledger tx envelope =
      .ok (run.ledger.perform a.effect, a.result) := applyEnvelope_eq_ok.mpr ⟨a, rfl⟩
  obtain ⟨hops, hled⟩ := burnUnaccountedInputs_eq (C := C) (σ := run.ledger.perform a.effect) hn
  unfold applyTx
  rw [hp]
  simp [applyParsed, applyCove, happly, Outcome.after, Outcome.ops, Outcome.events, Outcome.ledger,
    hops, hled, bind, Except.bind, pure, Except.pure]

/-- Once every live carrier among the inputs is moved by the operation, nothing is left to
burn. -/
theorem perform_no_burn {σ : Ledger} (a : Acceptance C cfg block σ tx envelope)
    (hown : ∀ o ∈ tx.spends, o.txid ≠ tx.getId C)
    (hspent : ∀ o ∈ tx.spends, ∀ u, σ.tokenUtxos.get o = some u →
      o ∈ a.effect.spent.map V3TokenUtxo.outpoint) :
    ∀ o ∈ tx.spends, (σ.perform a.effect).tokenUtxos.get o = none := by
  intro o ho
  by_contra hne
  obtain ⟨u, hu⟩ := Option.ne_none_iff_exists'.mp hne
  rcases perform_carrier_get hu with ⟨hc, hout⟩ | ⟨hlive, hnot⟩
  · rw [a.created_eq] at hc
    obtain ⟨alloc, -, rfl⟩ := List.mem_map.mp hc
    exact hown o ho (by rw [← hout]; rfl)
  · exact hnot (hspent o ho u hlive)

/-- No transaction spends an output of its own. -/
theorem ConsensusValid.spends_own {pre post : List Transaction}
    (h : ConsensusValid C (pre ++ tx :: post)) : ∀ o ∈ tx.spends, o.txid ≠ tx.getId C := by
  intro o ho heq
  exact h.spends_earlier pre tx post rfl o ho (by simp [heq])

theorem burnOps_eq_nil {σ : Ledger} (h : ∀ o ∈ tx.spends, σ.tokenUtxos.get o = none) :
    burnOps C σ tx = [] := by
  have hnil : liveInputs σ.tokenUtxos tx.ins = [] := by
    apply List.filterMap_eq_nil_iff.mpr
    intro i hi
    exact h i.outpoint (List.mem_map.mpr ⟨i, hi, rfl⟩)
  rw [burnOps, if_pos hnil]

theorem spendAll_eq_self {σ : Ledger} (h : ∀ o ∈ tx.spends, σ.tokenUtxos.get o = none) :
    σ.spendAll tx = σ := by
  have hutxos : (σ.spendAll tx).tokenUtxos = σ.tokenUtxos := by
    apply Dict.ext_get
    intro k
    rw [spendAll_get]
    split
    · exact (h k ‹_›).symm
    · rfl
  exact Ledger.ext rfl rfl hutxos

/-- A block of one transaction that is accepted and moves every live carrier it spends. -/
theorem records_of_acceptance {chain : List V3BlockInput} {σ : V3IndexerState}
    (hb : ActiveBlock C cfg chain block) (htxs : block.txs = [tx])
    (hp : parseCoveTx tx = .cove envelope) (a : Acceptance C cfg block σ.toLedger tx envelope)
    (hspent : ∀ o ∈ tx.spends, ∀ u, σ.tokenUtxos.get o = some u →
      o ∈ a.effect.spent.map V3TokenUtxo.outpoint)
    {op : V3Operation} (hop : a.result.op = some op) :
    ∃ σ', RecordsValid C cfg σ block tx op a.effect.tokenId σ' ∧
      σ'.toLedger = σ.toLedger.perform a.effect := by
  have hc := hb.consensus
  rw [chainTxs_append, htxs] at hc
  have hnone := perform_no_burn a hc.spends_own hspent
  let start : BlockRun := ⟨σ.toLedger, [], []⟩
  have hafter : (Outcome.accepted envelope hp a : Outcome C cfg block start.ledger tx).after 0 =
      ⟨σ.toLedger.perform a.effect, [a.undo], [eventOf C block 0 tx a.result]⟩ := by
    have hops := burnOps_eq_nil (C := C) hnone
    have hledger := spendAll_eq_self hnone
    simp [Outcome.after, Outcome.ops, Outcome.events, Outcome.ledger, start, hops, hledger]
  have hrun : applyTxs C cfg block 0 block.txs ⟨σ.toLedger, [], []⟩ =
      .ok ⟨σ.toLedger.perform a.effect, [a.undo], [eventOf C block 0 tx a.result]⟩ := by
    rw [htxs, applyTxs, show (⟨σ.toLedger, [], []⟩ : BlockRun) = start from rfl,
      applyTx_accepted hc.inputs hp a, hafter]
    rfl
  have happly := (applyBlock_eq_ok (σ := σ) hb.active).mpr ⟨_, hrun, rfl, rfl⟩
  refine ⟨_, ⟨⟨_, happly, rfl, hop, a.result_valid, a.result_tokenId⟩, _, Dict.get_set_self _ _ _, ?_⟩,
    rfl⟩
  intro o ho
  rw [List.mem_singleton.mp ho]
  exact a.burned

/-! Carriers never hold nothing. -/

def CarriersPos (σ : Ledger) : Prop := ∀ k u, σ.tokenUtxos.get k = some u → 0 < u.amountAtoms

theorem Outcome.carriersPos {σ : Ledger} (o : Outcome C cfg block σ tx) (h : CarriersPos σ) :
    CarriersPos o.ledger := by
  cases o with
  | nonCove _ => exact h
  | refused _ _ _ _ => exact h
  | accepted envelope hp a =>
    intro k u hu
    rcases perform_carrier_get hu with ⟨hc, -⟩ | ⟨hlive, -⟩
    · rw [a.created_eq] at hc
      obtain ⟨alloc, halloc, rfl⟩ := List.mem_map.mp hc
      exact (parseCoveTx_wellFormed hp).amounts_pos alloc halloc
    · exact h k u hlive

theorem applyTx_carriersPos {txIndex : Nat} {run run' : BlockRun} (hn : tx.spends.Nodup)
    (h : applyTx C cfg block txIndex tx run = .ok run') (hpos : CarriersPos run.ledger) :
    CarriersPos run'.ledger := by
  obtain ⟨o, rfl⟩ := applyTx_cases hn h
  intro k u hu
  exact o.carriersPos hpos k u (spendAll_get_some hu).1

theorem Replays.carriersPos {chain : List V3BlockInput} {σ : V3IndexerState}
    (h : Replays C cfg chain σ) : CarriersPos σ.toLedger := by
  induction h with
  | new =>
    intro k u hu
    cases hu
  | @step chain σ σ' block events hσ hb h ih =>
    have hc := hb.consensus
    rw [chainTxs_append] at hc
    obtain ⟨run, hrun, -, rfl⟩ := (applyBlock_eq_ok hb.active).mp h
    refine applyTxs_rule (fun _ run' => CarriersPos run'.ledger) ?_ hc ih hrun
    intro done tx post txIndex run run' hc hpos h
    exact applyTx_carriersPos hc.inputs h hpos

/-! Transfers. -/

/-- The transfer is recorded, every carrier it spends is gone, each allocation lies on its
output, and no other carrier has changed. -/
structure TransferSettles (C : Crypto) (cfg : V3IndexerConfig) (σ : V3IndexerState)
    (block : V3BlockInput) (tx : Transaction) (tokenId : Bytes) (allocations : List TokenAllocation)
    (σ' : V3IndexerState) : Prop where
  recorded : RecordsValid C cfg σ block tx .transfer tokenId σ'
  conserved : sumAllocations allocations = sumAtoms (liveInputs σ.tokenUtxos tx.ins)
  allocated : ∀ a ∈ allocations,
    σ'.tokenUtxos.get ⟨tx.getId C, a.vout⟩ = some (carrierAt C block tx tokenId a)
  spent : ∀ o ∈ tx.spends, σ'.tokenUtxos.get o = none
  only_allocated : ∀ o, o.txid = tx.getId C → o.vout ∉ allocations.map TokenAllocation.vout →
    σ'.tokenUtxos.get o = none
  untouched : ∀ o, o ∉ tx.spends → o.txid ≠ tx.getId C → σ'.tokenUtxos.get o = σ.tokenUtxos.get o

/-- The inputs spend no live carrier of another token. -/
def OnlySpends (σ : Ledger) (tx : Transaction) (tokenId : Bytes) : Prop :=
  ∀ o ∈ tx.spends, ∀ u, σ.tokenUtxos.get o = some u → u.tokenId = tokenId

theorem OnlySpends.liveInputs {σ : Ledger} {tokenId : Bytes} (h : OnlySpends σ tx tokenId) :
    ∀ u ∈ liveInputs σ.tokenUtxos tx.ins, u.tokenId = tokenId := by
  intro u hu
  obtain ⟨i, hi, hget⟩ := List.mem_filterMap.mp hu
  exact h i.outpoint (List.mem_map.mpr ⟨i, hi, rfl⟩) u hget

namespace TransferAccepted

variable {σ : Ledger} {tokenId : Bytes} {allocations : List TokenAllocation}
  (a : TransferAccepted C block σ tx tokenId allocations)

theorem created_carriers : a.createdUtxos = allocations.map (carrierAt C block tx tokenId) :=
  (transferCarriers_eq_ok.mp a.created_eq).2

/-- An allocation's carrier after the transfer. -/
theorem get_allocated (hn : (allocations.map TokenAllocation.vout).Nodup) {alloc : TokenAllocation}
    (h : alloc ∈ allocations) : (σ.perform a.effect).tokenUtxos.get ⟨tx.getId C, alloc.vout⟩ =
      some (carrierAt C block tx tokenId alloc) := by
  refine Dict.get_setAll_of_mem _ _ _ _ ?_ ?_
  · intro e he hkey
    rw [effect, created_carriers, List.map_map] at he
    obtain ⟨alloc', halloc', rfl⟩ := List.mem_map.mp he
    have hvout : alloc'.vout = alloc.vout := congrArg OutPoint.vout hkey
    rw [List.inj_on_of_nodup_map hn halloc' h hvout]
    rfl
  · rw [effect, created_carriers, List.map_map]
    exact List.mem_map.mpr ⟨alloc, h, rfl⟩

/-- A carrier that is neither spent nor on an output of the transaction. -/
theorem get_untouched (hk : Keyed σ.tokenUtxos) {o : OutPoint} (hs : o ∉ tx.spends)
    (ht : o.txid ≠ tx.getId C) :
    (σ.perform a.effect).tokenUtxos.get o = σ.tokenUtxos.get o := by
  refine (Dict.get_setAll_of_notMem _ _ _ ?_).trans ?_
  · rw [effect, created_carriers, List.map_map, List.map_map]
    intro hin
    obtain ⟨alloc, -, rfl⟩ := List.mem_map.mp hin
    exact ht rfl
  · rw [Dict.get_deleteAll, if_neg]
    intro hin
    obtain ⟨u, hu, rfl⟩ := List.mem_map.mp hin
    rw [effect, (resolveTokenInputs_eq_ok.mp a.spent_eq).1] at hu
    exact hs ((mem_liveInputs hk).mp hu).2

end TransferAccepted

/-- A transfer whose inputs carry one token in the amount of its allocations settles. -/
theorem transfer_settles {chain : List V3BlockInput} {σ : V3IndexerState} {tokenId : Bytes}
    {allocations : List TokenAllocation} (hI : StateInv C cfg chain σ)
    (hb : ActiveBlock C cfg chain block) (htxs : block.txs = [tx])
    (hp : parseCoveTx tx = .cove (.transfer tokenId allocations))
    (hown : OnlySpends σ.toLedger tx tokenId) (hne : liveInputs σ.tokenUtxos tx.ins ≠ [])
    (hsum : sumAllocations allocations = sumAtoms (liveInputs σ.tokenUtxos tx.ins))
    (hcarriers : ∀ a ∈ allocations, CarrierOk tx a) :
    ∃ σ', TransferSettles C cfg σ block tx tokenId allocations σ' := by
  have hkeyed := hI.ledger.keyed
  have hc := hb.consensus
  rw [chainTxs_append, htxs] at hc
  have hspent : resolveTokenInputs σ.toLedger tx tokenId = .ok (liveInputs σ.tokenUtxos tx.ins) :=
    resolveTokenInputs_eq_ok.mpr ⟨rfl, hown.liveInputs, hne⟩
  have hknown : σ.tokens.has tokenId = true := by
    obtain ⟨u, hu⟩ := List.exists_mem_of_ne_nil _ hne
    have hlive := ((mem_liveInputs hkeyed).mp hu).1
    rw [← hown.liveInputs u hu]
    exact hI.ledger.carrier_known _ u hlive
  let a : TransferAccepted C block σ.toLedger tx tokenId allocations := {
    spentUtxos := liveInputs σ.tokenUtxos tx.ins
    createdUtxos := allocations.map (carrierAt C block tx tokenId)
    known := hknown
    spent_eq := hspent
    conserved := hsum.symm
    created_eq := transferCarriers_eq_ok.mpr ⟨hcarriers, rfl⟩ }
  let acc : Acceptance C cfg block σ.toLedger tx (.transfer tokenId allocations) := .transfer a
  have hmem : ∀ o ∈ tx.spends, ∀ u, σ.tokenUtxos.get o = some u →
      o ∈ acc.effect.spent.map V3TokenUtxo.outpoint := by
    intro o ho u hu
    have hout := hkeyed o u hu
    refine List.mem_map.mpr ⟨u, ?_, hout⟩
    show u ∈ liveInputs σ.tokenUtxos tx.ins
    rw [mem_liveInputs hkeyed, hout]
    exact ⟨hu, ho⟩
  obtain ⟨σ', hrec, hledger⟩ := records_of_acceptance hb htxs hp acc hmem rfl
  have hget : ∀ o, σ'.tokenUtxos.get o = (σ.toLedger.perform a.effect).tokenUtxos.get o := by
    intro o
    rw [hledger]
    rfl
  refine ⟨σ', hrec, hsum, ?_, ?_, ?_, ?_⟩
  · intro alloc halloc
    rw [hget]
    exact a.get_allocated (parseCoveTx_wellFormed hp).vouts_nodup halloc
  · intro o ho
    rw [hget]
    exact perform_no_burn acc hc.spends_own hmem o ho
  · intro o htxid hvout
    rw [hget]
    by_contra hne'
    obtain ⟨u, hu⟩ := Option.ne_none_iff_exists'.mp hne'
    rcases perform_carrier_get hu with ⟨hcreated, hout⟩ | ⟨hlive, -⟩
    · obtain ⟨alloc, halloc, rfl⟩ := List.mem_map.mp hcreated
      exact hvout (List.mem_map.mpr ⟨alloc, halloc, by rw [← hout]; rfl⟩)
    · have hseen := hI.ledger.carrier_seen o u hlive
      rw [htxid] at hseen
      exact hc.fresh hseen
  · intro o hnot htxid
    rw [hget]
    exact a.get_untouched hkeyed hnot htxid

/-- A transfer that is recorded as valid spends no carrier of another token. -/
theorem onlySpends_of_recorded {chain : List V3BlockInput} {σ σ' : V3IndexerState}
    {tokenId : Bytes} {allocations : List TokenAllocation} (hb : ActiveBlock C cfg chain block)
    (htxs : block.txs = [tx]) (hp : parseCoveTx tx = .cove (.transfer tokenId allocations))
    (h : RecordsValid C cfg σ block tx .transfer tokenId σ') : OnlySpends σ.toLedger tx tokenId := by
  have hc := hb.consensus
  rw [chainTxs_append, htxs] at hc
  obtain ⟨event, happly, -, -, hvalid, -⟩ := h.applied
  obtain ⟨run, hrun, hevents, -⟩ := (applyBlock_eq_ok hb.active).mp happly
  rw [htxs, applyTxs, bind_eq_ok] at hrun
  obtain ⟨run₁, hstep, hend⟩ := hrun
  obtain rfl : run₁ = run := by simpa [applyTxs] using hend
  obtain ⟨o, ho⟩ := applyTx_cases hc.inputs hstep
  rw [ho] at hevents
  cases o with
  | nonCove hnot =>
    rw [hp] at hnot
    cases hnot
  | refused r hr _ _ =>
    -- A refusal is recorded as invalid.
    obtain rfl : event = eventOf C block 0 tx r := by
      simpa [Outcome.after, Outcome.events] using hevents
    rw [eventOf, hr] at hvalid
    cases hvalid
  | accepted envelope hpe a =>
    rw [hp] at hpe
    cases hpe
    cases a with
    | transfer a =>
      obtain ⟨hspent, htokens, -⟩ := resolveTokenInputs_eq_ok.mp a.spent_eq
      intro k hk u hu
      obtain ⟨i, hi, rfl⟩ := List.mem_map.mp hk
      apply htokens
      rw [hspent]
      exact List.mem_filterMap.mpr ⟨i, hi, hu⟩

end

end Cove
