import Cove.Guardian.Psbt
import Cove.Indexer.Projection

/-! The view of one token read from the tables: `packages/cove-indexer/src/v3/snapshot.ts`. -/

namespace Cove

open Checked

/-- Only the snapshot's own token is in the view, and of its unspent carriers only those on the
relevant outpoints when any are named. -/
def loadCanonicalViewSnapshotFromDb (db : Db) (tokenId : Bytes) (relevantOutpoints : List OutPoint) :
    CoveCanonicalView where
  getCurrentBackingState t :=
    if t = tokenId then (db.backingStates.get tokenId).map (BackingRow.toState tokenId) else none
  getBackingOutpoint t :=
    if t = tokenId then (db.backingStates.get tokenId).map fun r => ⟨r.txid, r.vout⟩ else none
  getTokenUtxo o :=
    match db.tokenUtxos.get o with
    | none => none
    | some row =>
      if row.tokenId = tokenId ∧ row.spentByTxid = none ∧
          (relevantOutpoints = [] ∨ o ∈ relevantOutpoints) then
        some ⟨o, row.tokenId, row.amountAtoms, row.scriptPubKey⟩
      else none
  getTokenCreatorScript t :=
    if t = tokenId then ((db.tokens.get tokenId).map TokenRow.creatorScript).filter (· ≠ []) else none

section

variable {C : Crypto} {cfg : V3IndexerConfig} {chain : List V3BlockInput} {σ : V3IndexerState}
  {db : Db}

/-- The carriers a snapshot knows are the live ones of its token, on the relevant outpoints. -/
theorem snapshot_getTokenUtxo (hS : Synced C cfg chain σ db) (hI : StateInv C cfg chain σ)
    (tokenId : Bytes) (relevant : List OutPoint) (o : OutPoint) (tok : TokenUtxo) :
    (loadCanonicalViewSnapshotFromDb db tokenId relevant).getTokenUtxo o = some tok ↔
      ∃ u, σ.tokenUtxos.get o = some u ∧ u.tokenId = tokenId ∧ (relevant = [] ∨ o ∈ relevant) ∧
        tok = u.toTokenUtxo := by
  unfold loadCanonicalViewSnapshotFromDb
  dsimp only
  cases hu : σ.tokenUtxos.get o with
  | some u =>
    have hout := hI.ledger.keyed o u hu
    rw [hS.ledger.carriers o u hu]
    dsimp only [utxoRow]
    constructor
    · intro h
      split at h
      · rename_i hcond
        refine ⟨u, rfl, hcond.1, hcond.2.2, ?_⟩
        rw [← Option.some.inj h, V3TokenUtxo.toTokenUtxo, hout]
      · cases h
    · intro h
      obtain ⟨u', hu', htok, hrel, rfl⟩ := h
      obtain rfl := Option.some.inj hu'
      rw [if_pos ⟨htok, rfl, hrel⟩, V3TokenUtxo.toTokenUtxo, hout]
  | none =>
    constructor
    · intro h
      cases hr : db.tokenUtxos.get o with
      | none => simp [hr] at h
      | some r =>
        have hspent := hS.ledger.spent o r hr hu
        simp [hr, hspent] at h
    · intro h
      obtain ⟨u, hu', -⟩ := h
      cases hu'

theorem snapshot_getBackingOutpoint (hS : Synced C cfg chain σ db) (tokenId : Bytes)
    (relevant : List OutPoint) :
    (loadCanonicalViewSnapshotFromDb db tokenId relevant).getBackingOutpoint tokenId =
      (σ.backing.get tokenId).map V3Backing.outpoint := by
  have hrow : db.backingStates.get tokenId = (σ.backing.get tokenId).map backingRow := by
    rcases hS.ledger.backing tokenId with h | h
    · exact h
    · exact h.2
  show (if tokenId = tokenId then _ else none) = _
  rw [if_pos rfl, hrow, Option.map_map]
  rfl

/-- A vault is no live carrier, and its transaction is one of the chain. -/
theorem snapshot_backing_ne (hS : Synced C cfg chain σ db) (hI : StateInv C cfg chain σ)
    (tokenId : Bytes) (relevant : List OutPoint) {o : OutPoint}
    (h : (∃ u, σ.tokenUtxos.get o = some u) ∨ o.txid ∉ txidsOf C (chainTxs chain)) :
    (loadCanonicalViewSnapshotFromDb db tokenId relevant).getBackingOutpoint tokenId ≠ some o := by
  rw [snapshot_getBackingOutpoint hS]
  intro heq
  obtain ⟨b, hb, rfl⟩ := Option.map_eq_some_iff.mp heq
  rcases h with ⟨u, hu⟩ | hnot
  · rw [hI.ledger.apart tokenId b hb] at hu
    cases hu
  · exact hnot (hI.ledger.backing_seen tokenId b hb)

end

/-! A chain with two tokens: a lot of each is minted to one owner. -/

def betaId : Bytes :=
  Bytes.ofNatBE 32 0xae4329a416d8b32ccb7f2788419cd1642fb87b1a3f5d774507bfff3fee599b05

def betaDeploy : Transaction := sampleDeploy (Bytes.ascii "BETA")
  (Bytes.ofNatBE 32 0x4807ed00386dc76249da2c05d0973c81fd411b12ac111c6976175c59f0df326d) 2

def betaMint : Transaction := sampleMint betaId
  (Bytes.ofNatBE 32 0x05695141fe5dcc3eb51cf83c710b2c668097ef1082059f773e1c45963de08fc9) betaDeploy 4

def bothDeployed : V3BlockInput :=
  ⟨1, List.replicate 32 0xb1, List.replicate 32 0xb0, [alphaDeploy, betaDeploy]⟩

def bothMinted : V3BlockInput :=
  ⟨2, List.replicate 32 0xb2, List.replicate 32 0xb1, [alphaMint, betaMint]⟩

def alphaCarrier : OutPoint := ⟨alphaMint.getId sampleCrypto, 2⟩

def betaCarrier : OutPoint := ⟨betaMint.getId sampleCrypto, 2⟩

/-- One evaluation of the chain for all that is used of it, the step from ALPHA's mint to BETA's
included. -/
theorem both_run : (ActiveBlock sampleCrypto sampleConfig [] bothDeployed ∧
      ActiveBlock sampleCrypto sampleConfig [bothDeployed] bothMinted) ∧
    ((replay sampleCrypto sampleConfig [bothDeployed, bothMinted]
      (.new sampleCrypto sampleConfig)).toOption.any fun σ =>
        (σ.tokenUtxos.get alphaCarrier).any (fun a => a.tokenId = alphaId ∧
          a.amountAtoms = 100000000000) ∧
        (σ.tokenUtxos.get betaCarrier).any fun b => b.tokenId = betaId ∧
          b.amountAtoms = 100000000000) = true ∧
    ((replay sampleCrypto sampleConfig [bothDeployed]
      (.new sampleCrypto sampleConfig)).toOption.any fun σ =>
        (applyTxs sampleCrypto sampleConfig bothMinted 0 [alphaMint]
          ⟨σ.toLedger, [], []⟩).toOption.any fun run =>
            run.ledger.tokenUtxos.has alphaCarrier &&
            (applyTx sampleCrypto sampleConfig bothMinted 1 betaMint run).toOption.any fun run' =>
              run'.events.getLast?.any fun e => run'.events = run.events ++ [e] ∧
                e.txid = betaMint.getId sampleCrypto ∧ e.valid = true ∧
                e.tokenId = some betaId) = true := by
  decide +kernel

theorem bothDeployed_active : ActiveBlock sampleCrypto sampleConfig [] bothDeployed :=
  both_run.1.1

theorem bothMinted_active : ActiveBlock sampleCrypto sampleConfig [bothDeployed] bothMinted :=
  both_run.1.2

/-- Both lots are live after the second block. -/
theorem bothMinted_live : ∃ σ a b,
    Reachable sampleCrypto sampleConfig [bothDeployed, bothMinted] σ ∧
    σ.tokenUtxos.get alphaCarrier = some a ∧ a.tokenId = alphaId ∧ a.amountAtoms = 100000000000 ∧
    σ.tokenUtxos.get betaCarrier = some b ∧ b.tokenId = betaId ∧ b.amountAtoms = 100000000000 := by
  obtain ⟨σ₂, hσ₂, hlive⟩ := (Option.any_eq_true _ _).mp both_run.2.1
  rw [toOption_eq_some] at hσ₂
  simp only [replay, bind_eq_ok, Prod.exists, Except.ok.injEq] at hσ₂
  obtain ⟨σ₁, events₁, h₁, σ, events₂, h₂, rfl⟩ := hσ₂
  obtain ⟨halpha, hbeta⟩ := of_decide_eq_true hlive
  obtain ⟨a, ha, hda⟩ := (Option.any_eq_true _ _).mp halpha
  obtain ⟨b, hb, hdb⟩ := (Option.any_eq_true _ _).mp hbeta
  obtain ⟨hatok, haamt⟩ := of_decide_eq_true hda
  obtain ⟨hbtok, hbamt⟩ := of_decide_eq_true hdb
  exact ⟨σ, a, b, .apply (.apply .new bothDeployed_active h₁) bothMinted_active h₂, ha, hatok, haamt,
    hb, hbtok, hbamt⟩

end Cove
