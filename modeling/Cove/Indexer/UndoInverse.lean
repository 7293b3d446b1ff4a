import Cove.Indexer.Invariant

/-! Each recorded inverse takes back what its operation did. -/

namespace Cove

open Checked

/-- The loop of `undoBlock`: the recorded operations taken back, the last one first. -/
def undoOps (σ : Ledger) (ops : List UndoOp) : Ledger := ops.reverse.foldl undoOp σ

@[simp] theorem undoOps_nil (σ : Ledger) : undoOps σ [] = σ := rfl

@[simp] theorem undoOps_singleton (σ : Ledger) (op : UndoOp) : undoOps σ [op] = undoOp σ op := rfl

theorem undoOps_append (σ : Ledger) (ops ops' : List UndoOp) :
    undoOps σ (ops ++ ops') = undoOps (undoOps σ ops') ops := by
  simp [undoOps]

section

variable {C : Crypto} {cfg : V3IndexerConfig} {block : V3BlockInput} {σ : Ledger}
  {tx : Transaction} {seen : List Bytes}

theorem map_fst_entry (l : List V3TokenUtxo) :
    (l.map V3TokenUtxo.entry).map Prod.fst = l.map V3TokenUtxo.outpoint := by
  rw [List.map_map]
  rfl

/-- Carriers moved by a sound change go back where they were. -/
theorem carriers_back {e : Effect} (hI : LedgerInv C cfg seen σ) (hs : e.Sound C cfg σ tx)
    (hf : tx.getId C ∉ seen) :
    ((σ.perform e).tokenUtxos.deleteAll (e.created.map V3TokenUtxo.outpoint)).setAll
      (e.spent.map V3TokenUtxo.entry) = σ.tokenUtxos := by
  have hspent : ∀ x ∈ e.spent.map V3TokenUtxo.entry, σ.tokenUtxos.get x.1 = some x.2 := by
    intro x hx
    obtain ⟨u, hu, rfl⟩ := List.mem_map.mp hx
    exact ((mem_liveInputs hI.keyed).mp (hs.spent_inputs u hu)).1
  have hnew : ∀ x ∈ e.created.map V3TokenUtxo.entry, σ.tokenUtxos.get x.1 = none := by
    intro x hx
    obtain ⟨u, hu, rfl⟩ := List.mem_map.mp hx
    by_contra hne
    obtain ⟨v, hv⟩ := Option.ne_none_iff_exists'.mp hne
    have hseen := hI.carrier_seen _ _ hv
    rw [V3TokenUtxo.entry, hs.created_outpoint hu] at hseen
    exact hf hseen
  have h := Dict.swap_back σ.tokenUtxos _ _ hspent hnew
  rw [map_fst_entry, map_fst_entry] at h
  exact h

/-- The undo entry of an accepted operation is its exact inverse. -/
theorem undoOp_perform (hI : LedgerInv C cfg seen σ) (hn : tx.spends.Nodup)
    (hf : tx.getId C ∉ seen) {envelope : ParsedEnvelopeV2} (hw : envelope.WellFormed)
    (a : Acceptance C cfg block σ tx envelope) : undoOp (σ.perform a.effect) a.undo = σ := by
  have hc := carriers_back hI (a.sound hI hn hw) hf
  cases a with
  | deploy a =>
    have ht : σ.tokens.get a.tokenId = none := by
      simpa [Dict.has] using a.fresh
    have hb : σ.backing.get a.tokenId = none := by
      have h := hI.same_keys a.tokenId
      rw [a.fresh] at h
      simpa [Dict.has] using h.symm
    exact Ledger.ext (Dict.delete_back ht) (Dict.delete_back hb) rfl
  | mint a => exact Ledger.ext rfl (Dict.set_back a.backing_get) hc
  | transfer a => exact Ledger.ext rfl rfl hc
  | redeem a => exact Ledger.ext rfl (Dict.set_back a.backing_get) hc

/-- Burned carriers go back as they were. -/
theorem undoOps_burn (hk : Keyed σ.tokenUtxos) :
    undoOps (σ.spendAll tx) (burnOps C σ tx) = σ := by
  have hput : (σ.spendAll tx).tokenUtxos.setAll
      ((liveInputs σ.tokenUtxos tx.ins).map V3TokenUtxo.entry) = σ.tokenUtxos := by
    apply Dict.setAll_eq_of_agree
    · intro x hx
      obtain ⟨u, hu, rfl⟩ := List.mem_map.mp hx
      exact ((mem_liveInputs hk).mp hu).1
    · intro k hnot
      rw [map_fst_entry] at hnot
      rw [spendAll_get]
      split
      · -- A spent outpoint that is no burned carrier's was not live.
        by_contra hne
        obtain ⟨u, hu⟩ := Option.ne_none_iff_exists'.mp (Ne.symm hne)
        have ho := hk _ _ hu
        exact hnot (List.mem_map.mpr ⟨u, (mem_liveInputs hk).mpr ⟨by rw [ho, hu], by rwa [ho]⟩, ho⟩)
      · rfl
  unfold burnOps
  split
  · rename_i hnil
    rw [hnil] at hput
    exact Ledger.ext rfl rfl hput
  · exact Ledger.ext rfl rfl hput

/-- Taking back what one transaction recorded gives the ledger before it. -/
theorem Outcome.undo (hI : LedgerInv C cfg seen σ) (hn : tx.spends.Nodup)
    (hf : tx.getId C ∉ seen) (o : Outcome C cfg block σ tx) :
    undoOps (o.ledger.spendAll tx) (o.ops ++ burnOps C o.ledger tx) = σ := by
  rw [undoOps_append, undoOps_burn (o.ledger_inv hI hn hf).keyed]
  cases o with
  | nonCove _ => rfl
  | refused _ _ _ _ => rfl
  | accepted envelope hp a => exact undoOp_perform hI hn hf (parseCoveTx_wellFormed hp) a

end

end Cove
