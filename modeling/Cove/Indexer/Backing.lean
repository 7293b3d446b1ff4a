import Cove.Indexer.Chain

/-! Every token has one backing record, and it agrees with its state, its vault and the
transaction that last moved it. -/

namespace Cove

open Checked

/-- The event of a valid operation that writes the backing record of the token. -/
def V3Event.updates (tokenId : Bytes) (e : V3Event) : Bool :=
  e.valid && e.tokenId = some tokenId &&
    (e.operation = some .deploy || e.operation = some .mint || e.operation = some .redeem)

/-- The txid of the last recorded operation that wrote a token's backing. -/
def lastUpdate (events : List V3Event) (tokenId : Bytes) : Option Bytes :=
  (events.filter (V3Event.updates tokenId)).getLast?.map V3Event.txid

section

variable {C : Crypto} {cfg : V3IndexerConfig} {block : V3BlockInput} {σ : Ledger}
  {tx : Transaction} {seen : List Bytes}

theorem lastUpdate_snoc (events : List V3Event) (e : V3Event) (t : Bytes) :
    lastUpdate (events ++ [e]) t = if e.updates t then some e.txid else lastUpdate events t := by
  unfold lastUpdate
  rw [List.filter_append]
  by_cases h : e.updates t <;> simp [h]

/-- An accepted operation writes a backing record exactly when its event says so. -/
theorem Acceptance.updates_iff {envelope : ParsedEnvelopeV2}
    (a : Acceptance C cfg block σ tx envelope) (txIndex : Nat) (t : Bytes) :
    (eventOf C block txIndex tx a.result).updates t = true ↔
      t = a.effect.tokenId ∧ a.effect.newBacking ≠ none := by
  cases a <;> simp [V3Event.updates, eventOf, Acceptance.result, Acceptance.effect,
    DeployAccepted.result, DeployAccepted.effect, MintAccepted.result, MintAccepted.effect,
    TransferAccepted.result, TransferAccepted.effect, RedeemAccepted.result, RedeemAccepted.effect,
    eq_comm]

/-- A stored backing record was written by the last recorded update of its token. -/
def BackingDated (events : List V3Event) (σ : Ledger) : Prop :=
  ∀ t b, σ.backing.get t = some b → lastUpdate events t = some b.updatedTxid

theorem Outcome.dated (hI : LedgerInv C cfg seen σ) (hn : tx.spends.Nodup) {events : List V3Event}
    (hd : BackingDated events σ) (o : Outcome C cfg block σ tx) (txIndex : Nat) :
    BackingDated (events ++ o.events txIndex) o.ledger := by
  cases o with
  | nonCove _ => simpa [Outcome.events, Outcome.ledger] using hd
  | refused r hv _ _ =>
    intro t b hb
    have hno : (eventOf C block txIndex tx r).updates t = false := by
      simp [V3Event.updates, eventOf, hv]
    rw [Outcome.events, lastUpdate_snoc, hno]
    exact hd t b hb
  | accepted envelope hp a =>
    intro t b hb
    rw [Outcome.events, lastUpdate_snoc]
    rcases perform_backing_get hb with ⟨ht, hnb⟩ | ⟨hold, hkeep⟩
    · have hs := a.sound hI hn (parseCoveTx_wellFormed hp)
      have hup := (a.updates_iff txIndex t).mpr ⟨ht, by simp [hnb]⟩
      have htxid : b.updatedTxid = tx.getId C := by
        have ho := (hs.backing b hnb).1.outpoint
        rw [(hs.backing b hnb).2] at ho
        exact (congrArg OutPoint.txid ho).symm
      rw [if_pos hup, htxid]
      rfl
    · have hno : ¬ (eventOf C block txIndex tx a.result).updates t = true := by
        rw [a.updates_iff]
        exact fun h => h.2 (hkeep h.1)
      rw [if_neg hno]
      exact hd t b hold

theorem Replays.dated {chain : List V3BlockInput} {σ : V3IndexerState}
    (h : Replays C cfg chain σ) : BackingDated σ.events σ.toLedger := by
  induction h with
  | new => simp [BackingDated, V3IndexerState.new]
  | @step chain σ σ' block events hσ hb h ih =>
    have hI := hσ.inv
    have hc := hb.consensus
    rw [chainTxs_append] at hc
    obtain ⟨run, hrun, -, rfl⟩ := (applyBlock_eq_ok hb.active).mp h
    have hP := applyTxs_rule (fun done run => LedgerInv C cfg (txidsOf C (chainTxs chain ++ done))
      run.ledger ∧ BackingDated (σ.events ++ run.events) run.ledger) ?_ hc
      ⟨by simpa using hI.ledger, by simpa using ih⟩ hrun
    · exact hP.2
    · rintro done tx post txIndex run run' hc ⟨hI, hd⟩ h
      have hinv := applyTx_inv hI hc.inputs hc.fresh h
      obtain ⟨o, rfl⟩ := applyTx_cases hc.inputs h
      refine ⟨by rw [← List.append_assoc]; simpa [txidsOf] using hinv, ?_⟩
      have hdated := o.dated hI hc.inputs hd txIndex
      rw [List.append_assoc] at hdated
      exact hdated

/-- The backing invariant of every reachable state. -/
theorem backing_invariant {chain : List V3BlockInput} {σ : V3IndexerState}
    (hσ : Reachable C cfg chain σ) :
    (∀ t, σ.tokens.has t = σ.backing.has t) ∧
    ∀ t b, σ.backing.get t = some b →
      validateStateV2 b.state = .ok () ∧
      requiredBackingSats (b.state.issuedPublicSupplyAtoms / atomsPerToken) =
        .ok b.state.backingSats ∧
      b.btcValue = reserveAnchorSats + b.state.backingSats ∧
      stateHashV2 C b.state = .ok b.stateHash ∧
      b.outpoint = ⟨b.updatedTxid, 1⟩ ∧
      lastUpdate σ.events t = some b.updatedTxid ∧
      ∃ vault, buildBackingVaultV3 C b.state cfg.vaultKeys = .ok vault ∧
        b.scriptPubKey = vault.scriptPubKey := by
  have hI := hσ.inv.ledger
  refine ⟨hI.same_keys, ?_⟩
  intro t b hb
  have hs := hI.backing_sound t b hb
  exact ⟨(validateStateV2_eq_ok _).mpr hs.state_valid, hs.state_valid.backing, hs.btcValue,
    hs.stateHash, hs.outpoint, hσ.replays.dated t b hb, hs.script⟩

end

theorem backing_invariant_sample : ∃ σ b,
    Reachable sampleCrypto sampleConfig [deployBlock, mintBlock] σ ∧
      σ.backing.get alphaId = some b ∧ validateStateV2 b.state = .ok () ∧
      b.btcValue = reserveAnchorSats + b.state.backingSats := by
  obtain ⟨σ, tokenMeta, hσ, hmeta⟩ := sample_reachable
  obtain ⟨hkeys, hsound⟩ := backing_invariant hσ
  obtain ⟨b, hb⟩ := Dict.has_iff.mp ((hkeys alphaId).symm.trans (Dict.has_iff.mpr ⟨_, hmeta⟩))
  obtain ⟨hvalid, -, hvalue, -⟩ := hsound alphaId b hb
  exact ⟨σ, b, hσ, hb, hvalid, hvalue⟩

end Cove
