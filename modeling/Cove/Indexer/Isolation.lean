import Cove.Indexer.Reorg
import Cove.Indexer.Snapshot

/-! A valid operation on one token leaves every other token alone, but for the carriers its
transaction spends. -/

namespace Cove

open Checked

/-- The loop of `applyBlock` over a reachable state, some transactions of the block done. -/
structure MidBlock (C : Crypto) (cfg : V3IndexerConfig) (chain : List V3BlockInput)
    (block : V3BlockInput) (done rest : List Transaction) (run : BlockRun) : Prop where
  started : ∃ σ, Reachable C cfg chain σ ∧
    applyTxs C cfg block 0 done ⟨σ.toLedger, [], []⟩ = .ok run
  active : ActiveBlock C cfg chain block
  split : block.txs = done ++ rest

/-- The transaction was recorded as a valid operation on the token. -/
def ValidOperation (C : Crypto) (tx : Transaction) (tokenId : Bytes) (run run' : BlockRun) : Prop :=
  ∃ e, run'.events = run.events ++ [e] ∧ e.txid = tx.getId C ∧ e.valid = true ∧
    e.tokenId = some tokenId

/-- What two ledgers hold of a token is the same, but for the carriers on some outpoints, which
the second one has no more. -/
structure SameButSpent (tokenId : Bytes) (spends : List OutPoint) (σ σ' : Ledger) : Prop where
  tokens : σ'.tokens.get tokenId = σ.tokens.get tokenId
  backing : σ'.backing.get tokenId = σ.backing.get tokenId
  carriers : ∀ k u, u.tokenId = tokenId →
    (σ'.tokenUtxos.get k = some u ↔ σ.tokenUtxos.get k = some u ∧ k ∉ spends)

section

variable {C : Crypto} {cfg : V3IndexerConfig} {chain : List V3BlockInput} {block : V3BlockInput}
  {σ : Ledger} {tx : Transaction} {seen : List Bytes} {tokenId : Bytes}

theorem MidBlock.consensus {done rest : List Transaction} {run : BlockRun}
    (h : MidBlock C cfg chain block done rest run) :
    ConsensusValid C (chainTxs chain ++ done ++ rest) := by
  have hc := h.active.consensus
  rw [chainTxs_append, h.split] at hc
  rwa [List.append_assoc]

theorem MidBlock.inv {done rest : List Transaction} {run : BlockRun}
    (h : MidBlock C cfg chain block done rest run) :
    LedgerInv C cfg (txidsOf C (chainTxs chain ++ done)) run.ledger := by
  obtain ⟨σ, hσ, hrun⟩ := h.started
  exact (applyTxs_facts h.consensus.of_append hσ.inv.ledger hrun).inv

/-- A change leaves the carriers of other tokens where they are. -/
theorem perform_other_carrier {e : Effect} (hI : LedgerInv C cfg seen σ) (hs : e.Sound C cfg σ tx)
    (hf : tx.getId C ∉ seen) (hne : tokenId ≠ e.tokenId) {k : OutPoint} {u : V3TokenUtxo}
    (hu : u.tokenId = tokenId) :
    (σ.perform e).tokenUtxos.get k = some u ↔ σ.tokenUtxos.get k = some u := by
  constructor
  · intro h
    rcases perform_carrier_get h with ⟨hc, -⟩ | ⟨hold, -⟩
    · exact absurd (hu.symm.trans (hs.created_token u hc)) hne
    · exact hold
  · intro h
    have hnew : k ∉ (e.created.map V3TokenUtxo.entry).map Prod.fst := by
      rw [map_fst_entry]
      intro hm
      obtain ⟨v, hv, rfl⟩ := List.mem_map.mp hm
      have hseen := hI.carrier_seen _ _ h
      rw [hs.created_outpoint hv] at hseen
      exact hf hseen
    have hold : k ∉ e.spent.map V3TokenUtxo.outpoint := by
      intro hm
      obtain ⟨v, hv, rfl⟩ := List.mem_map.mp hm
      have hlive := ((mem_liveInputs hI.keyed).mp (hs.spent_inputs v hv)).1
      obtain rfl : u = v := Option.some.inj (h.symm.trans hlive)
      exact hne (hu.symm.trans (hs.spent_token u hv))
    rw [Ledger.perform, Ledger.moveCarriers]
    dsimp only
    rw [Dict.get_setAll_of_notMem _ _ _ hnew, Dict.get_deleteAll, if_neg hold, h]

theorem perform_other {e : Effect} (hI : LedgerInv C cfg seen σ) (hs : e.Sound C cfg σ tx)
    (hf : tx.getId C ∉ seen) (hne : tokenId ≠ e.tokenId) :
    SameButSpent tokenId tx.spends σ ((σ.perform e).spendAll tx) := by
  constructor
  case tokens =>
    show (σ.perform e).tokens.get tokenId = _
    cases hm : e.newMeta with
    | none => simp [Ledger.perform, hm]
    | some m => simp [Ledger.perform, hm, Dict.get_set_ne _ _ hne]
  case backing =>
    show (σ.perform e).backing.get tokenId = _
    cases hb : e.newBacking with
    | none => simp [Ledger.perform, hb]
    | some b => simp [Ledger.perform, hb, Dict.get_set_ne _ _ hne]
  case carriers =>
    intro k u hu
    rw [spendAll_get]
    by_cases hk : k ∈ tx.spends
    · simp [hk]
    · rw [if_neg hk, perform_other_carrier hI hs hf hne hu]
      simp [hk]

/-- The carriers of other tokens that the transaction spends are in its burn record. -/
theorem burned_other {e : Effect} (hI : LedgerInv C cfg seen σ) (hs : e.Sound C cfg σ tx)
    (hf : tx.getId C ∉ seen) {u : V3TokenUtxo} (hne : u.tokenId ≠ e.tokenId) {k : OutPoint}
    (hu : σ.tokenUtxos.get k = some u) (hk : k ∈ tx.spends) :
    ∃ spent, UndoOp.burn (tx.getId C) spent ∈ burnOps C (σ.perform e) tx ∧ u ∈ spent := by
  have hlive := (perform_other_carrier hI hs hf hne rfl).mpr hu
  obtain rfl := hI.keyed k u hu
  obtain ⟨i, hi, ho⟩ := List.mem_map.mp hk
  have hmem : u ∈ liveInputs (σ.perform e).tokenUtxos tx.ins :=
    List.mem_filterMap.mpr ⟨i, hi, by rw [ho, hlive]⟩
  refine ⟨_, ?_, hmem⟩
  rw [burnOps, if_neg (List.ne_nil_of_mem hmem)]
  exact List.mem_cons_self

/-- Token isolation. A valid operation on one token keeps every other token's metadata, backing
and carriers, but for the carriers its transaction spends, and these are recorded as burned. -/
theorem token_isolation {done post : List Transaction} {txIndex : Nat} {run run' : BlockRun}
    (hmid : MidBlock C cfg chain block done (tx :: post) run)
    (h : applyTx C cfg block txIndex tx run = .ok run')
    (hvalid : ValidOperation C tx tokenId run run') :
    ∀ other, other ≠ tokenId →
      SameButSpent other tx.spends run.ledger run'.ledger ∧
      ∀ k u, run.ledger.tokenUtxos.get k = some u → u.tokenId = other → k ∈ tx.spends →
        ∃ spent, UndoOp.burn (tx.getId C) spent ∈ run'.ops ∧ u ∈ spent := by
  intro other hne
  have hc := hmid.consensus
  have hI := hmid.inv
  obtain ⟨e, hevents, -, hv, htoken⟩ := hvalid
  obtain ⟨o, rfl⟩ := applyTx_cases hc.inputs h
  have hlast : o.events txIndex = [e] := List.append_cancel_left hevents
  cases o with
  | nonCove _ => simp [Outcome.events] at hlast
  | refused r hr _ _ =>
    have he : eventOf C block txIndex tx r = e := List.singleton_inj.mp hlast
    rw [← he] at hv
    exact absurd (hr.symm.trans hv) (by simp)
  | accepted envelope hp a =>
    have hs := a.sound hI hc.inputs (parseCoveTx_wellFormed hp)
    have he : eventOf C block txIndex tx a.result = e := List.singleton_inj.mp hlast
    have hid : a.effect.tokenId = tokenId := by
      rw [← he] at htoken
      exact Option.some.inj (a.result_tokenId.symm.trans htoken)
    have hne : other ≠ a.effect.tokenId := by rwa [hid]
    refine ⟨perform_other hI hs hc.fresh hne, ?_⟩
    intro k u hu ht hk
    obtain ⟨spent, hburn, hmem⟩ := burned_other hI hs hc.fresh (by rwa [ht]) hu hk
    exact ⟨spent, List.mem_append_right _ hburn, hmem⟩

end

/-- After ALPHA's mint, BETA's mint in the same block keeps all of ALPHA. -/
theorem token_isolation_sample : ∃ run run',
    MidBlock sampleCrypto sampleConfig [bothDeployed] bothMinted [alphaMint] [betaMint] run ∧
    ValidOperation sampleCrypto betaMint betaId run run' ∧
    run.ledger.tokenUtxos.has alphaCarrier = true ∧
    SameButSpent alphaId betaMint.spends run.ledger run'.ledger := by
  obtain ⟨σ, hσ, hrun⟩ := (Option.any_eq_true _ _).mp both_run.2.2
  obtain ⟨run, hmid, hrun⟩ := (Option.any_eq_true _ _).mp hrun
  obtain ⟨hlive, hrun⟩ := (Bool.and_eq_true _ _).mp hrun
  obtain ⟨run', hstep, hlast⟩ := (Option.any_eq_true _ _).mp hrun
  obtain ⟨e, -, he⟩ := (Option.any_eq_true _ _).mp hlast
  rw [toOption_eq_some] at hσ hmid hstep
  simp only [replay, bind_eq_ok, Prod.exists, Except.ok.injEq] at hσ
  obtain ⟨σ₁, events₁, h₁, rfl⟩ := hσ
  have hblock : MidBlock sampleCrypto sampleConfig [bothDeployed] bothMinted [alphaMint] [betaMint]
      run := ⟨⟨σ₁, .apply .new bothDeployed_active h₁, hmid⟩, bothMinted_active, rfl⟩
  have hvalid : ValidOperation sampleCrypto betaMint betaId run run' := ⟨e, of_decide_eq_true he⟩
  have hne : alphaId ≠ betaId := by decide
  exact ⟨run, run', hblock, hvalid, hlive, (token_isolation hblock hstep hvalid alphaId hne).1⟩

end Cove
