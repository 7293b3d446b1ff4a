import Cove.Indexer.Admit
import Cove.Indexer.LiveSet

/-! A ledger led through the transactions of any number of blocks, one outcome after the other. -/

namespace Cove

open Checked

/-- The outputs a transaction's envelope gives tokens to. -/
def carriersOf (C : Crypto) (tx : Transaction) : List OutPoint :=
  match parseCoveTx tx with
  | .cove envelope => envelope.allocated.map fun a => ⟨tx.getId C, a.vout⟩
  | _ => []

theorem carriersOf_txid {C : Crypto} {tx : Transaction} {o : OutPoint} (h : o ∈ carriersOf C tx) :
    o.txid = tx.getId C := by
  unfold carriersOf at h
  split at h
  · obtain ⟨a, -, rfl⟩ := List.mem_map.mp h
    rfl
  · cases h

/-- The ledger once a transaction is through. -/
def Outcome.next {C : Crypto} {cfg : V3IndexerConfig} {block : V3BlockInput} {σ : Ledger}
    {tx : Transaction} (o : Outcome C cfg block σ tx) : Ledger := o.ledger.spendAll tx

/-- The transactions one after the other, each with its outcome at some place of a block. -/
inductive LedgerRun (C : Crypto) (cfg : V3IndexerConfig) :
    Ledger → List Transaction → Ledger → Prop
  | nil (σ : Ledger) : LedgerRun C cfg σ [] σ
  | cons {σ σ' : Ledger} {block : V3BlockInput} {tx : Transaction} {txs : List Transaction}
      (o : Outcome C cfg block σ tx) (h : LedgerRun C cfg o.next txs σ') :
      LedgerRun C cfg σ (tx :: txs) σ'

section

variable {C : Crypto} {cfg : V3IndexerConfig} {block : V3BlockInput} {σ σ' : Ledger}
  {tx : Transaction} {txs : List Transaction} {seen : List Bytes} {tokenId : Bytes}

theorem LedgerRun.append {txs' : List Transaction} {σ'' : Ledger} (h : LedgerRun C cfg σ txs σ')
    (h' : LedgerRun C cfg σ' txs' σ'') : LedgerRun C cfg σ (txs ++ txs') σ'' := by
  induction h with
  | nil => exact h'
  | cons o _ ih => exact .cons o (ih h')

theorem applyTxs_ledgerRun {txIndex : Nat} {run run' : BlockRun} (hn : ∀ tx ∈ txs, tx.spends.Nodup)
    (h : applyTxs C cfg block txIndex txs run = .ok run') :
    LedgerRun C cfg run.ledger txs run'.ledger := by
  induction txs generalizing txIndex run with
  | nil =>
    rw [applyTxs, Except.ok.injEq] at h
    rw [h]
    exact .nil _
  | cons tx txs ih =>
    rw [applyTxs, bind_eq_ok] at h
    obtain ⟨mid, hmid, h⟩ := h
    obtain ⟨o, rfl⟩ := applyTx_cases (hn tx List.mem_cons_self) hmid
    exact .cons o (ih (fun t ht => hn t (List.mem_cons_of_mem _ ht)) h)

/-- A replay that goes on leads the ledger through the further blocks' transactions. -/
theorem Replays.ledgerRun {chain blocks : List V3BlockInput} {σ σ' : V3IndexerState}
    (hσ : Replays C cfg chain σ) (h : Replays C cfg (chain ++ blocks) σ') :
    LedgerRun C cfg σ.toLedger (chainTxs blocks) σ'.toLedger := by
  induction blocks using List.reverseRecOn generalizing σ' with
  | nil =>
    rw [List.append_nil] at h
    rw [hσ.unique h]
    exact .nil _
  | append_singleton blocks block ih =>
    rw [← List.append_assoc] at h
    obtain ⟨σ₁, _, h₁, hb, ha⟩ := h.last_step
    have hc := hb.consensus
    obtain ⟨run, hrun, -, rfl⟩ := (applyBlock_eq_ok hb.active).mp ha
    rw [chainTxs_append]
    refine (ih h₁).append (applyTxs_ledgerRun ?_ hrun)
    intro tx htx
    apply hc.inputs_nodup
    rw [chainTxs_append]
    exact List.mem_append_right _ htx

theorem Replays.consensus {chain : List V3BlockInput} {σ : V3IndexerState}
    (h : Replays C cfg chain σ) : ConsensusValid C (chainTxs chain) := by
  cases h with
  | new => exact ⟨by simp [chainTxs], by simp [chainTxs], by simp [chainTxs], by simp [chainTxs]⟩
  | step _ hb _ => exact hb.consensus

/-! What one outcome keeps. -/

theorem Outcome.next_inv (o : Outcome C cfg block σ tx) (hI : LedgerInv C cfg seen σ)
    (hn : tx.spends.Nodup) (hf : tx.getId C ∉ seen) :
    LedgerInv C cfg (seen ++ [tx.getId C]) o.next := spendAll_inv (o.ledger_inv hI hn hf)

theorem Outcome.next_carriersPos (o : Outcome C cfg block σ tx) (h : CarriersPos σ) :
    CarriersPos o.next :=
  fun k u hu => o.carriersPos h k u (spendAll_get_some hu).1

/-- A carrier the transaction does not spend stays. -/
theorem Outcome.next_keeps (o : Outcome C cfg block σ tx) (hI : LedgerInv C cfg seen σ)
    (hn : tx.spends.Nodup) (hf : tx.getId C ∉ seen) {k : OutPoint} {u : V3TokenUtxo}
    (hu : σ.tokenUtxos.get k = some u) (hk : k ∉ tx.spends) :
    o.next.tokenUtxos.get k = some u := by
  rw [next, spendAll_get, if_neg hk, o.live_iff hI hn hf 0 hk]
  exact Or.inr hu

/-- A carrier afterwards was one before, or lies on an output the envelope names. -/
theorem Outcome.next_origin (o : Outcome C cfg block σ tx) {k : OutPoint} {u : V3TokenUtxo}
    (hu : o.next.tokenUtxos.get k = some u) :
    σ.tokenUtxos.get k = some u ∨ k ∈ carriersOf C tx := by
  have hledger := (spendAll_get_some hu).1
  cases o with
  | nonCove _ => exact Or.inl hledger
  | refused _ _ _ _ => exact Or.inl hledger
  | accepted envelope hp a =>
    rcases perform_carrier_get hledger with ⟨hc, rfl⟩ | ⟨hlive, -⟩
    · rw [a.created_eq] at hc
      obtain ⟨alloc, halloc, rfl⟩ := List.mem_map.mp hc
      right
      rw [carriersOf, hp]
      exact List.mem_map.mpr ⟨alloc, halloc, rfl⟩
    · exact Or.inl hlive

/-- An accepted transaction puts its carriers on the outputs its envelope names. -/
theorem Outcome.accepted_creates {envelope : ParsedEnvelopeV2} (hp : parseCoveTx tx = .cove envelope)
    (a : Acceptance C cfg block σ tx envelope) (hI : LedgerInv C cfg seen σ) (hn : tx.spends.Nodup)
    (hf : tx.getId C ∉ seen) {k : OutPoint} (hk : k ∈ carriersOf C tx) (hs : k ∉ tx.spends) :
    ∃ u, (Outcome.accepted envelope hp a).next.tokenUtxos.get k = some u := by
  rw [carriersOf, hp] at hk
  obtain ⟨alloc, halloc, rfl⟩ := List.mem_map.mp hk
  refine ⟨carrierAt C block tx a.effect.tokenId alloc, ?_⟩
  rw [next, spendAll_get, if_neg hs]
  apply (perform_carrier_iff hI (a.sound hI hn (parseCoveTx_wellFormed hp)) hf hs).mpr
  left
  rw [a.created_eq]
  exact ⟨List.mem_map.mpr ⟨alloc, halloc, rfl⟩, rfl⟩

/-- A backing the transaction does not spend stays. -/
theorem Outcome.next_backing (o : Outcome C cfg block σ tx) (hI : LedgerInv C cfg seen σ)
    {b : V3Backing} (hb : σ.backing.get tokenId = some b) (hs : b.outpoint ∉ tx.spends) :
    o.next.backing.get tokenId = some b := by
  cases o with
  | nonCove _ => exact hb
  | refused _ _ _ _ => exact hb
  | accepted envelope hp a =>
    have hknown : σ.tokens.has tokenId = true := by
      rw [hI.same_keys]
      exact Dict.has_iff.mpr ⟨b, hb⟩
    have hspend : ∀ (ins0 : TxIn) (b' : V3Backing), σ.backing.get tokenId = some b' →
        tx.ins[0]? = some ins0 → ins0.outpoint ≠ b'.outpoint := by
      intro ins0 b' hb' hins heq
      obtain rfl : b = b' := by simpa [hb] using hb'
      apply hs
      rw [← heq]
      exact List.mem_map.mpr ⟨ins0, List.mem_of_getElem? hins, rfl⟩
    show (σ.perform a.effect).backing.get tokenId = some b
    cases a with
    | deploy a =>
      have hne : tokenId ≠ a.tokenId := by
        intro heq
        have hfresh := a.fresh
        rw [← heq, hknown] at hfresh
        cases hfresh
      exact (Dict.get_set_ne _ _ hne).trans hb
    | transfer a => exact hb
    | @mint t _ _ a =>
      have hne : tokenId ≠ t := by
        intro heq
        subst heq
        exact hspend _ _ a.backing_get a.ins0_get a.ins0_outpoint
      exact (Dict.get_set_ne _ _ hne).trans hb
    | @redeem t _ _ a =>
      have hne : tokenId ≠ t := by
        intro heq
        subst heq
        exact hspend _ _ a.backing_get a.ins0_get a.ins0_outpoint
      exact (Dict.get_set_ne _ _ hne).trans hb

/-- A backing afterwards was one before, or lies on output 1 of the transaction. -/
theorem Outcome.next_backing_origin (o : Outcome C cfg block σ tx) (hI : LedgerInv C cfg seen σ)
    (hn : tx.spends.Nodup) {b : V3Backing} (hb : o.next.backing.get tokenId = some b) :
    σ.backing.get tokenId = some b ∨ b.outpoint = ⟨tx.getId C, 1⟩ := by
  cases o with
  | nonCove _ => exact Or.inl hb
  | refused _ _ _ _ => exact Or.inl hb
  | accepted envelope hp a =>
    rcases perform_backing_get hb with ⟨-, hnew⟩ | ⟨hold, -⟩
    · exact Or.inr ((a.sound hI hn (parseCoveTx_wellFormed hp)).backing b hnew).2
    · exact Or.inl hold

/-! What a run keeps. -/

theorem LedgerRun.backing_stays {base : List Transaction} (h : LedgerRun C cfg σ txs σ')
    (hc : ConsensusValid C (base ++ txs)) (hI : LedgerInv C cfg (txidsOf C base) σ) {b : V3Backing}
    (hb : σ.backing.get tokenId = some b) (hs : ∀ tx ∈ txs, b.outpoint ∉ tx.spends) :
    σ'.backing.get tokenId = some b := by
  induction h generalizing base with
  | nil => exact hb
  | @cons σ _ block tx txs o _ ih =>
    have hnext := o.next_inv hI hc.inputs hc.fresh
    rw [List.append_cons] at hc
    refine ih hc (by simpa [txidsOf] using hnext)
      (o.next_backing hI hb (hs tx List.mem_cons_self)) ?_
    exact fun t ht => hs t (List.mem_cons_of_mem _ ht)

theorem LedgerRun.backing_origin {base : List Transaction} (h : LedgerRun C cfg σ txs σ')
    (hc : ConsensusValid C (base ++ txs)) (hI : LedgerInv C cfg (txidsOf C base) σ) {b : V3Backing}
    (hb : σ'.backing.get tokenId = some b) :
    σ.backing.get tokenId = some b ∨ b.outpoint.txid ∈ txidsOf C txs := by
  induction h generalizing base with
  | nil => exact Or.inl hb
  | @cons σ _ block tx txs o _ ih =>
    have hnext := o.next_inv hI hc.inputs hc.fresh
    have hn := hc.inputs
    rw [List.append_cons] at hc
    rcases ih hc (by simpa [txidsOf] using hnext) hb with hmid | hlater
    · rcases o.next_backing_origin hI hn hmid with hold | hnew
      · exact Or.inl hold
      · right
        rw [hnew]
        exact List.mem_cons_self
    · exact Or.inr (List.mem_cons_of_mem _ hlater)

end

end Cove
