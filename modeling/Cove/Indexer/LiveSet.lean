import Cove.Indexer.Chain

/-! The live carriers after a block, told from the block alone: what its valid transactions
created and what lay there before, less every outpoint an input names. -/

namespace Cove

open Checked

/-- The carriers an envelope of a transaction announces. -/
def announcedCarriers (C : Crypto) (block : V3BlockInput) (tx : Transaction) : List V3TokenUtxo :=
  match parseCoveTx tx with
  | .cove (.mint tokenId amount recipientVout) =>
    [carrierAt C block tx tokenId ⟨recipientVout, amount⟩]
  | .cove (.transfer tokenId allocations) => allocations.map (carrierAt C block tx tokenId)
  | .cove (.redeem tokenId _ changeAllocations) =>
    changeAllocations.map (carrierAt C block tx tokenId)
  | _ => []

/-- A valid event was recorded for the transaction. -/
def recordedValid (C : Crypto) (events : List V3Event) (tx : Transaction) : Bool :=
  events.any fun e => e.valid && e.txid = tx.getId C

/-- The carriers created by the transactions that are recorded as valid. -/
def createdCarriers (C : Crypto) (block : V3BlockInput) (events : List V3Event)
    (txs : List Transaction) : List V3TokenUtxo :=
  txs.flatMap fun tx => if recordedValid C events tx then announcedCarriers C block tx else []

section

variable {C : Crypto} {cfg : V3IndexerConfig} {block : V3BlockInput} {σ : Ledger}
  {tx : Transaction} {seen : List Bytes}

theorem Acceptance.created_announced {envelope : ParsedEnvelopeV2}
    (hp : parseCoveTx tx = .cove envelope) (a : Acceptance C cfg block σ tx envelope) :
    a.effect.created = announcedCarriers C block tx := by
  rw [a.created_eq, announcedCarriers, hp]
  cases a <;> rfl

/-- The carriers after a sound change, outside the inputs of its transaction. -/
theorem perform_carrier_iff {e : Effect} (hI : LedgerInv C cfg seen σ) (hs : e.Sound C cfg σ tx)
    (hf : tx.getId C ∉ seen) {k : OutPoint} (hk : k ∉ tx.spends) {u : V3TokenUtxo} :
    (σ.perform e).tokenUtxos.get k = some u ↔
      (u ∈ e.created ∧ u.outpoint = k) ∨ σ.tokenUtxos.get k = some u := by
  constructor
  · intro h
    rcases perform_carrier_get h with h | ⟨h, -⟩
    · exact Or.inl h
    · exact Or.inr h
  · rintro (⟨hu, rfl⟩ | hg)
    · have hmem : (u.outpoint, u) ∈ e.created.map V3TokenUtxo.entry := List.mem_map.mpr ⟨u, hu, rfl⟩
      refine Dict.get_setAll_of_mem _ _ _ _ ?_ hmem
      intro x hx hxk
      obtain ⟨v, hv, rfl⟩ := List.mem_map.mp hx
      exact List.inj_on_of_nodup_map hs.created_nodup hv hu hxk
    · have hnew : k ∉ (e.created.map V3TokenUtxo.entry).map Prod.fst := by
        rw [map_fst_entry]
        intro hm
        obtain ⟨v, hv, rfl⟩ := List.mem_map.mp hm
        have hseen := hI.carrier_seen _ _ hg
        rw [hs.created_outpoint hv] at hseen
        exact hf hseen
      have hold : k ∉ e.spent.map V3TokenUtxo.outpoint := by
        intro hm
        obtain ⟨v, hv, rfl⟩ := List.mem_map.mp hm
        exact hk ((mem_liveInputs hI.keyed).mp (hs.spent_inputs v hv)).2
      rw [Ledger.perform, Ledger.moveCarriers]
      dsimp only
      rw [Dict.get_setAll_of_notMem _ _ _ hnew, Dict.get_deleteAll, if_neg hold, hg]

theorem recordedValid_append (events events' : List V3Event) :
    recordedValid C (events ++ events') tx =
      (recordedValid C events tx || recordedValid C events' tx) := by
  simp [recordedValid]

theorem recordedValid_eq_false {events : List V3Event} (h : ∀ e ∈ events, e.txid ≠ tx.getId C) :
    recordedValid C events tx = false := by
  simp only [recordedValid, List.any_eq_false, Bool.and_eq_true, decide_eq_true_eq, not_and]
  exact fun e he _ => h e he

theorem Outcome.events_txid (o : Outcome C cfg block σ tx) (txIndex : Nat) :
    ∀ e ∈ o.events txIndex, e.txid = tx.getId C := by
  cases o <;> simp [Outcome.events, eventOf]

/-- What one outcome leaves live, outside the inputs of its transaction. -/
theorem Outcome.live_iff (hI : LedgerInv C cfg seen σ) (hn : tx.spends.Nodup)
    (hf : tx.getId C ∉ seen) (o : Outcome C cfg block σ tx) (txIndex : Nat) {k : OutPoint}
    (hk : k ∉ tx.spends) {u : V3TokenUtxo} :
    o.ledger.tokenUtxos.get k = some u ↔
      (u ∈ createdCarriers C block (o.events txIndex) [tx] ∧ u.outpoint = k) ∨
        σ.tokenUtxos.get k = some u := by
  cases o with
  | nonCove _ => simp [Outcome.ledger, Outcome.events, createdCarriers, recordedValid]
  | refused r hv _ _ =>
    simp [Outcome.ledger, Outcome.events, createdCarriers, recordedValid, eventOf, hv]
  | accepted envelope hp a =>
    have hsound := a.sound hI hn (parseCoveTx_wellFormed hp)
    rw [Outcome.ledger, perform_carrier_iff hI hsound hf hk, a.created_announced hp]
    simp [Outcome.events, createdCarriers, recordedValid, eventOf]

/-- The state of the block loop: what is live, and whose events are recorded. -/
structure LiveFacts (C : Crypto) (cfg : V3IndexerConfig) (block : V3BlockInput) (before : Ledger)
    (base done : List Transaction) (run : BlockRun) : Prop where
  inv : LedgerInv C cfg (txidsOf C (base ++ done)) run.ledger
  events_txid : ∀ e ∈ run.events, e.txid ∈ txidsOf C done
  live : ∀ k u, run.ledger.tokenUtxos.get k = some u ↔
    k ∉ done.flatMap Transaction.spends ∧
      ((u ∈ createdCarriers C block run.events done ∧ u.outpoint = k) ∨
        before.tokenUtxos.get k = some u)

/-- Recording a later transaction changes nothing about the earlier ones. -/
theorem createdCarriers_snoc {events new : List V3Event} {done : List Transaction}
    (hold : ∀ e ∈ events, e.txid ≠ tx.getId C) (hnew : ∀ e ∈ new, e.txid = tx.getId C)
    (hfresh : tx.getId C ∉ txidsOf C done) :
    createdCarriers C block (events ++ new) (done ++ [tx]) =
      createdCarriers C block events done ++ createdCarriers C block new [tx] := by
  unfold createdCarriers
  rw [List.flatMap_append]
  congr 1
  · apply List.flatMap_congr
    intro d hd
    have hne : recordedValid C new d = false := by
      apply recordedValid_eq_false
      intro e he heq
      exact hfresh (List.mem_map.mpr ⟨d, hd, by rw [← heq, hnew e he]⟩)
    rw [recordedValid_append, hne, Bool.or_false]
  · simp only [List.flatMap_singleton]
    rw [recordedValid_append, recordedValid_eq_false hold, Bool.false_or]

theorem announced_txid {u : V3TokenUtxo} (h : u ∈ announcedCarriers C block tx) :
    u.txid = tx.getId C := by
  unfold announcedCarriers at h
  split at h <;> first
    | (obtain ⟨a, -, rfl⟩ := List.mem_map.mp h; rfl)
    | (obtain rfl := List.mem_singleton.mp h; rfl)
    | cases h

theorem created_txid {events : List V3Event} {txs : List Transaction} {u : V3TokenUtxo}
    (h : u ∈ createdCarriers C block events txs) : u.outpoint.txid ∈ txidsOf C txs := by
  obtain ⟨tx, htx, hu⟩ := List.mem_flatMap.mp h
  split at hu
  · exact List.mem_map.mpr ⟨tx, htx, (announced_txid hu).symm⟩
  · cases hu

/-- No earlier transaction spends an output of this one. -/
theorem ConsensusValid.not_spent_before {base done post : List Transaction}
    (hc : ConsensusValid C (base ++ done ++ tx :: post)) {k : OutPoint} (hk : k.txid = tx.getId C) :
    k ∉ done.flatMap Transaction.spends := by
  intro hm
  obtain ⟨d, hd, hs⟩ := List.mem_flatMap.mp hm
  obtain ⟨l, r, rfl⟩ := List.append_of_mem hd
  have hsplit : base ++ (l ++ d :: r) ++ tx :: post = (base ++ l) ++ d :: (r ++ tx :: post) := by
    simp
  apply hc.spends_earlier _ _ _ hsplit k hs
  rw [hk]
  simp

theorem applyTx_live {before : Ledger} {base done post : List Transaction} {txIndex : Nat}
    {run run' : BlockRun} (hc : ConsensusValid C (base ++ done ++ tx :: post))
    (hP : LiveFacts C cfg block before base done run)
    (h : applyTx C cfg block txIndex tx run = .ok run') :
    LiveFacts C cfg block before base (done ++ [tx]) run' := by
  have hinv := applyTx_inv hP.inv hc.inputs hc.fresh h
  have hfresh : tx.getId C ∉ txidsOf C done := by
    have hf := hc.fresh
    rw [txidsOf, List.map_append, List.mem_append, not_or] at hf
    exact hf.2
  have hold : ∀ e ∈ run.events, e.txid ≠ tx.getId C := by
    intro e he heq
    exact hfresh (heq ▸ hP.events_txid e he)
  obtain ⟨o, rfl⟩ := applyTx_cases hc.inputs h
  have hnew := o.events_txid txIndex
  refine ⟨by rw [← List.append_assoc]; simpa [txidsOf] using hinv, ?_, ?_⟩
  · intro e he
    rcases List.mem_append.mp he with he | he
    · exact List.mem_map.mpr (by
        obtain ⟨d, hd, heq⟩ := List.mem_map.mp (hP.events_txid e he)
        exact ⟨d, List.mem_append_left _ hd, heq⟩)
    · exact List.mem_map.mpr ⟨tx, by simp, (hnew e he).symm⟩
  · intro k u
    rw [Outcome.after]
    dsimp only
    rw [createdCarriers_snoc hold hnew hfresh, spendAll_get, List.flatMap_append, List.mem_append,
      List.flatMap_singleton, List.mem_append]
    by_cases hk : k ∈ tx.spends
    · simp [hk]
    · rw [if_neg hk, o.live_iff hP.inv hc.inputs hc.fresh txIndex hk, hP.live k u]
      constructor
      · rintro (⟨hu, rfl⟩ | ⟨hns, hu | hu⟩)
        · have ht : u.outpoint.txid = tx.getId C := by
            simpa [txidsOf] using created_txid hu
          exact ⟨by simp [hc.not_spent_before ht, hk], Or.inl ⟨Or.inr hu, rfl⟩⟩
        · exact ⟨by simp [hns, hk], Or.inl ⟨Or.inl hu.1, hu.2⟩⟩
        · exact ⟨by simp [hns, hk], Or.inr hu⟩
      · rintro ⟨hns, ⟨hu | hu, hok⟩ | hu⟩
        · exact Or.inr ⟨fun hm => hns (Or.inl hm), Or.inl ⟨hu, hok⟩⟩
        · exact Or.inl ⟨hu, hok⟩
        · exact Or.inr ⟨fun hm => hns (Or.inl hm), Or.inr hu⟩

theorem StateInv.live_applyBlock {chain : List V3BlockInput} {σ σ' : V3IndexerState}
    {events : List V3Event} (hI : StateInv C cfg chain σ) (hb : ActiveBlock C cfg chain block)
    (h : applyBlock C cfg σ block = .ok (σ', events)) :
    LiveFacts C cfg block σ.toLedger (chainTxs chain) block.txs ⟨σ'.toLedger, [], events⟩ := by
  have hc := hb.consensus
  rw [chainTxs_append] at hc
  obtain ⟨run, hrun, rfl, rfl⟩ := (applyBlock_eq_ok hb.active).mp h
  have hfacts := applyTxs_rule (LiveFacts C cfg block σ.toLedger (chainTxs chain))
    (fun _ _ _ _ _ _ hc hP h => applyTx_live hc hP h) hc
    ⟨by simpa using hI.ledger, by simp, by simp [createdCarriers]⟩ hrun
  exact ⟨hfacts.inv, hfacts.events_txid, hfacts.live⟩

/-- Below the activation height nothing is indexed yet. -/
theorem Reachable.nothing_below {chain : List V3BlockInput} {σ : V3IndexerState}
    (hσ : Reachable C cfg chain σ) (hb : NextBlock C chain block)
    (hlow : block.height < cfg.genesisHeight) (k : OutPoint) : σ.tokenUtxos.get k = none := by
  have hI := hσ.inv
  cases hlast : chain.getLast? with
  | none =>
    by_contra hne
    obtain ⟨u, hu⟩ := Option.ne_none_iff_exists'.mp hne
    have hseen := hI.ledger.carrier_seen k u hu
    rw [List.getLast?_eq_none_iff.mp hlast] at hseen
    cases hseen
  | some last =>
    have h1 := hb.height last hlast
    have h2 := hI.active last (List.mem_of_getLast? hlast)
    omega

/-- The exact live set after a block. A carrier is live exactly when no input of the block
names its outpoint and it was created by a transaction of the block recorded as valid
or was live before, with every field unchanged. -/
theorem live_set_law {chain : List V3BlockInput} {σ σ' : V3IndexerState} {events : List V3Event}
    (hσ : Reachable C cfg chain σ) (hb : NextBlock C chain block)
    (h : applyBlock C cfg σ block = .ok (σ', events)) (k : OutPoint) (u : V3TokenUtxo) :
    σ'.tokenUtxos.get k = some u ↔
      k ∉ block.txs.flatMap Transaction.spends ∧
        ((u ∈ createdCarriers C block events block.txs ∧ u.outpoint = k) ∨
          σ.tokenUtxos.get k = some u) := by
  by_cases ha : cfg.genesisHeight ≤ block.height
  · exact (hσ.inv.live_applyBlock ⟨hb, ha⟩ h).live k u
  · obtain ⟨rfl, rfl⟩ := applyBlock_below (Nat.not_le.mp ha) h
    simp [hσ.nothing_below hb (Nat.not_le.mp ha) k, createdCarriers, recordedValid]

end

theorem live_set_law_sample : ∃ σ σ' events,
    Reachable sampleCrypto sampleConfig [deployBlock] σ ∧
      applyBlock sampleCrypto sampleConfig σ mintBlock = .ok (σ', events) ∧
      ∀ k u, σ'.tokenUtxos.get k = some u ↔
        k ∉ mintBlock.txs.flatMap Transaction.spends ∧
          ((u ∈ createdCarriers sampleCrypto mintBlock events mintBlock.txs ∧ u.outpoint = k) ∨
            σ.tokenUtxos.get k = some u) := by
  obtain ⟨σ₁, σ₂, _, events₂, -, h₁, h₂, -⟩ := sample_applies
  have hσ₁ : Reachable sampleCrypto sampleConfig [deployBlock] σ₁ :=
    .apply .new deployBlock_active h₁
  exact ⟨σ₁, σ₂, events₂, hσ₁, h₂, live_set_law hσ₁ mintBlock_active.toNextBlock h₂⟩

end Cove
