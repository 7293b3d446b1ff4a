import Cove.Indexer.Chain

/-! Supply conservation: the live atoms of a token and its burned ones make up what was issued. -/

namespace Cove

open Checked

def atomsOf (tokenId : Bytes) (u : V3TokenUtxo) : Int :=
  if u.tokenId = tokenId then u.amountAtoms else 0

/-- The atoms of a token among some carriers. -/
def tokenAtoms (tokenId : Bytes) (l : List V3TokenUtxo) : Int := (l.map (atomsOf tokenId)).sum

def Ledger.liveAtoms (σ : Ledger) (tokenId : Bytes) : Int :=
  σ.tokenUtxos.total fun _ u => atomsOf tokenId u

def UndoOp.burnedAtoms (tokenId : Bytes) : UndoOp → Int
  | .burn _ spentUtxos => tokenAtoms tokenId spentUtxos
  | _ => 0

def burnedIn (tokenId : Bytes) (ops : List UndoOp) : Int := (ops.map (UndoOp.burnedAtoms tokenId)).sum

/-- The atoms of a token that the retained undo records list as burned. -/
def V3IndexerState.burnedAtoms (σ : V3IndexerState) (tokenId : Bytes) : Int :=
  σ.undoByHeight.total fun _ u => burnedIn tokenId u.ops

section

variable {C : Crypto} {cfg : V3IndexerConfig} {block : V3BlockInput} {σ : Ledger}
  {tx : Transaction} {seen : List Bytes}

theorem burnedIn_append (t : Bytes) (ops ops' : List UndoOp) :
    burnedIn t (ops ++ ops') = burnedIn t ops + burnedIn t ops' := by
  simp [burnedIn]

theorem tokenAtoms_of_token {t : Bytes} {l : List V3TokenUtxo} (h : ∀ u ∈ l, u.tokenId = t) :
    tokenAtoms t l = sumAtoms l := by
  unfold tokenAtoms sumAtoms
  congr 1
  apply List.map_congr_left
  intro u hu
  rw [atomsOf, if_pos (h u hu)]

theorem tokenAtoms_of_other {t t' : Bytes} {l : List V3TokenUtxo} (h : ∀ u ∈ l, u.tokenId = t')
    (hne : t ≠ t') : tokenAtoms t l = 0 := by
  apply List.sum_eq_zero
  intro x hx
  obtain ⟨u, hu, rfl⟩ := List.mem_map.mp hx
  rw [atomsOf, if_neg]
  rw [h u hu]
  exact hne.symm

theorem sum_entries (t : Bytes) (l : List V3TokenUtxo) :
    ((l.map V3TokenUtxo.entry).map fun e => atomsOf t e.2).sum = tokenAtoms t l := by
  rw [List.map_map]
  rfl

/-- Carriers leave the live total by their own amounts. -/
theorem liveAtoms_deleteAll (t : Bytes) {l : List V3TokenUtxo}
    (hl : ∀ u ∈ l, σ.tokenUtxos.get u.outpoint = some u)
    (hn : (l.map V3TokenUtxo.outpoint).Nodup) :
    (σ.tokenUtxos.deleteAll (l.map V3TokenUtxo.outpoint)).total (fun _ u => atomsOf t u) =
      σ.liveAtoms t - tokenAtoms t l := by
  rw [← map_fst_entry] at hn ⊢
  rw [Dict.total_deleteAll _ _ _ ?_ hn, sum_entries]
  · rfl
  · intro x hx
    obtain ⟨u, hu, rfl⟩ := List.mem_map.mp hx
    exact hl u hu

theorem liveAtoms_perform {e : Effect} (hI : LedgerInv C cfg seen σ) (hs : e.Sound C cfg σ tx)
    (hf : tx.getId C ∉ seen) (t : Bytes) :
    (σ.perform e).liveAtoms t = σ.liveAtoms t - tokenAtoms t e.spent + tokenAtoms t e.created := by
  have hspent : ∀ u ∈ e.spent, σ.tokenUtxos.get u.outpoint = some u := fun u hu =>
    ((mem_liveInputs hI.keyed).mp (hs.spent_inputs u hu)).1
  have hfresh : ∀ x ∈ e.created.map V3TokenUtxo.entry,
      (σ.tokenUtxos.deleteAll (e.spent.map V3TokenUtxo.outpoint)).get x.1 = none := by
    intro x hx
    obtain ⟨u, hu, rfl⟩ := List.mem_map.mp hx
    rw [Dict.get_deleteAll]
    split
    · rfl
    · by_contra hne
      obtain ⟨v, hv⟩ := Option.ne_none_iff_exists'.mp hne
      have hseen := hI.carrier_seen _ _ hv
      rw [V3TokenUtxo.entry, hs.created_outpoint hu] at hseen
      exact hf hseen
  have hnodup : ((e.created.map V3TokenUtxo.entry).map Prod.fst).Nodup := by
    rw [map_fst_entry]
    exact hs.created_nodup
  have htotal := Dict.total_setAll (fun _ u => atomsOf t u) _ _ hfresh hnodup
  rw [sum_entries, liveAtoms_deleteAll t hspent hs.spent_nodup] at htotal
  exact htotal

/-- An accepted operation moves the issued supply and the live atoms alike. -/
theorem supply_perform {e : Effect} (hI : LedgerInv C cfg seen σ) (hs : e.Sound C cfg σ tx)
    (hf : tx.getId C ∉ seen) (t : Bytes) :
    (σ.perform e).issued t - (σ.perform e).liveAtoms t = σ.issued t - σ.liveAtoms t := by
  rw [liveAtoms_perform hI hs hf]
  by_cases ht : t = e.tokenId
  · subst ht
    rw [hs.supply, tokenAtoms_of_token hs.spent_token, tokenAtoms_of_token hs.created_token]
    ring
  · have hissued : (σ.perform e).issued t = σ.issued t := by
      unfold Ledger.issued Ledger.perform
      cases e.newBacking with
      | none => rfl
      | some b => simp only [Option.elim_some, Dict.get_set_ne _ _ ht]
    rw [hissued, tokenAtoms_of_other hs.spent_token ht, tokenAtoms_of_other hs.created_token ht]
    ring

theorem spendAll_eq_deleteAll (hk : Keyed σ.tokenUtxos) :
    (σ.spendAll tx).tokenUtxos =
      σ.tokenUtxos.deleteAll ((liveInputs σ.tokenUtxos tx.ins).map V3TokenUtxo.outpoint) := by
  apply Dict.ext_get
  intro k
  rw [spendAll_get, Dict.get_deleteAll]
  have hiff : k ∈ (liveInputs σ.tokenUtxos tx.ins).map V3TokenUtxo.outpoint ↔
      k ∈ tx.spends ∧ ∃ u, σ.tokenUtxos.get k = some u := by
    constructor
    · intro h
      obtain ⟨u, hu, rfl⟩ := List.mem_map.mp h
      obtain ⟨hg, hm⟩ := (mem_liveInputs hk).mp hu
      exact ⟨hm, u, hg⟩
    · rintro ⟨hm, u, hg⟩
      have ho := hk _ _ hg
      exact List.mem_map.mpr ⟨u, (mem_liveInputs hk).mpr ⟨by rw [ho, hg], by rwa [ho]⟩, ho⟩
  by_cases hs : k ∈ tx.spends
  · cases hg : σ.tokenUtxos.get k with
    | none => simp
    | some u => simp [hs, hiff, hg]
  · simp [hs, hiff]

/-- What a burn takes from the live atoms it records. -/
theorem supply_burn (hk : Keyed σ.tokenUtxos) (hn : tx.spends.Nodup) (t : Bytes) :
    (σ.spendAll tx).liveAtoms t + burnedIn t (burnOps C σ tx) = σ.liveAtoms t := by
  have hlive : (σ.spendAll tx).liveAtoms t =
      σ.liveAtoms t - tokenAtoms t (liveInputs σ.tokenUtxos tx.ins) := by
    rw [Ledger.liveAtoms, spendAll_eq_deleteAll hk]
    exact liveAtoms_deleteAll t (fun u hu => ((mem_liveInputs hk).mp hu).1) (liveInputs_nodup hk hn)
  have hburn : burnedIn t (burnOps C σ tx) = tokenAtoms t (liveInputs σ.tokenUtxos tx.ins) := by
    unfold burnOps
    split
    · rename_i hnil
      rw [hnil]
      rfl
    · simp [burnedIn, UndoOp.burnedAtoms]
  rw [hlive, hburn]
  ring

theorem burnedIn_ops (t : Bytes) (o : Outcome C cfg block σ tx) : burnedIn t o.ops = 0 := by
  cases o with
  | nonCove _ => rfl
  | refused _ _ _ _ => rfl
  | accepted envelope hp a => cases a <;> rfl

/-- One transaction keeps the balance of issued, live and newly burned atoms. -/
theorem supply_applyTx {txIndex : Nat} {run run' : BlockRun}
    (hI : LedgerInv C cfg seen run.ledger) (hn : tx.spends.Nodup) (hf : tx.getId C ∉ seen)
    (h : applyTx C cfg block txIndex tx run = .ok run') (t : Bytes) :
    run'.ledger.issued t - run'.ledger.liveAtoms t - burnedIn t run'.ops =
      run.ledger.issued t - run.ledger.liveAtoms t - burnedIn t run.ops := by
  obtain ⟨o, rfl⟩ := applyTx_cases hn h
  have hk := (o.ledger_inv hI hn hf).keyed
  have hburn : _ = o.ledger.liveAtoms t := supply_burn (C := C) hk hn t
  have hops := burnedIn_ops t o
  have hop : o.ledger.issued t - o.ledger.liveAtoms t =
      run.ledger.issued t - run.ledger.liveAtoms t := by
    cases o with
    | nonCove _ => rfl
    | refused _ _ _ _ => rfl
    | accepted envelope hp a =>
      exact supply_perform hI (a.sound hI hn (parseCoveTx_wellFormed hp)) hf t
  have hissued : (o.ledger.spendAll tx).issued t = o.ledger.issued t := rfl
  simp only [Outcome.after, burnedIn_append]
  omega

/-- Live and burned atoms add up to the issued supply, for a known token or not. -/
theorem Replays.supply {chain : List V3BlockInput} {σ : V3IndexerState}
    (h : Replays C cfg chain σ) (t : Bytes) :
    σ.liveAtoms t + σ.burnedAtoms t = σ.issued t := by
  induction h with
  | new => rfl
  | @step chain σ σ' block events hσ hb h ih =>
    have hI := hσ.inv
    have hc := hb.consensus
    rw [chainTxs_append] at hc
    obtain ⟨run, hrun, -, rfl⟩ := (applyBlock_eq_ok hb.active).mp h
    have hnone := hI.no_undo hb
    let bal (run : BlockRun) : Int :=
      run.ledger.issued t - run.ledger.liveAtoms t - burnedIn t run.ops
    have hbal : LedgerInv C cfg (txidsOf C (chainTxs chain ++ block.txs)) run.ledger ∧
        bal run = bal ⟨σ.toLedger, [], []⟩ := by
      refine applyTxs_rule (fun done run' => LedgerInv C cfg (txidsOf C (chainTxs chain ++ done))
        run'.ledger ∧ bal run' = bal ⟨σ.toLedger, [], []⟩) ?_ hc ⟨by simpa using hI.ledger, rfl⟩ hrun
      rintro done tx post txIndex run run' hc ⟨hI, hbal⟩ h
      refine ⟨?_, (supply_applyTx hI hc.inputs hc.fresh h t).trans hbal⟩
      rw [← List.append_assoc]
      simpa [txidsOf] using applyTx_inv hI hc.inputs hc.fresh h
    have hb' := hbal.2
    have hburn : (σ.undoByHeight.set block.height ⟨block.height, block.hash, run.ops⟩).total
        (fun _ u => burnedIn t u.ops) = burnedIn t run.ops + σ.burnedAtoms t :=
      Dict.total_set_of_fresh _ _ hnone
    have hzero : burnedIn t ([] : List UndoOp) = 0 := rfl
    simp only [bal] at hb'
    unfold V3IndexerState.burnedAtoms
    dsimp only
    rw [hburn]
    omega

/-- Every token's live atoms and retained burns make up its issued supply, which the public
cap bounds. -/
theorem supply_conserved {chain : List V3BlockInput} {σ : V3IndexerState}
    (hσ : Reachable C cfg chain σ) {t : Bytes} {m : V3TokenMeta} (ht : σ.tokens.get t = some m) :
    ∃ b, σ.backing.get t = some b ∧
      σ.liveAtoms t + σ.burnedAtoms t = b.state.issuedPublicSupplyAtoms ∧
      b.state.issuedPublicSupplyAtoms ≤ publicSupplyAtoms := by
  have hI := hσ.inv.ledger
  have hhas : σ.backing.has t = true := by
    rw [← hI.same_keys]
    exact Dict.has_iff.mpr ⟨m, ht⟩
  obtain ⟨b, hb⟩ := Dict.has_iff.mp hhas
  refine ⟨b, hb, ?_, (hI.backing_sound t b hb).state_valid.supply_le⟩
  rw [hσ.replays.supply, issued_of_get hb]

end

theorem supply_conserved_sample : ∃ σ b,
    Reachable sampleCrypto sampleConfig [deployBlock, mintBlock] σ ∧
      σ.backing.get alphaId = some b ∧
      σ.liveAtoms alphaId + σ.burnedAtoms alphaId = b.state.issuedPublicSupplyAtoms := by
  obtain ⟨σ, tokenMeta, hσ, hmeta⟩ := sample_reachable
  obtain ⟨b, hb, hsupply, -⟩ := supply_conserved hσ hmeta
  exact ⟨σ, b, hσ, hb, hsupply⟩

end Cove
