import Mathlib
import Cove.Lib.Totals
import Cove.Lib.Upserts
import Cove.Protocol.StateRoot

/-! The V1 tables: `packages/cove-indexer/src/store.ts`, over the rows of one network. Each block is
persisted in one transaction. -/

namespace Cove

open Checked

namespace Protocol

structure CoveBlockRow where
  hash : Bytes
  parentHash : Bytes
  canonical : Bool
  deriving DecidableEq, Repr

structure CoveOperationRow where
  blockHeight : Int
  txIndex : Nat
  operation : Option String
  classification : CoveTxClassification
  valid : Bool
  reason : Option String
  deriving DecidableEq, Repr

structure CoveTokenRow where
  ticker : Bytes
  creator : Bytes
  confirmedSupplyAtoms : Int
  currentStage : Nat
  deriving DecidableEq, Repr

structure CoveBalanceRow where
  availableAtoms : Int
  lockedAtoms : Int
  deriving DecidableEq, Repr

structure CoveCheckpointRow where
  blockHash : Bytes
  stateRoot : Bytes
  deriving DecidableEq, Repr

structure CoveCursorRow where
  height : Nat
  blockHash : Bytes
  rebuilding : Bool
  deriving DecidableEq, Repr

structure CoveTables where
  blocks : Dict Nat CoveBlockRow
  operations : Dict Bytes CoveOperationRow
  tokens : Dict Bytes CoveTokenRow
  balances : Dict (Bytes × Bytes) CoveBalanceRow
  checkpoints : Dict Nat CoveCheckpointRow
  cursor : Option CoveCursorRow
  deriving DecidableEq

def CoveTables.empty : CoveTables := ⟨∅, ∅, ∅, ∅, ∅, none⟩

/-- What an owner holds of a token, of the two levels of the map. -/
def CoveState.held (σ : CoveState) (key : Bytes × Bytes) : Option CoveBalance :=
  (σ.balances.get key.1).bind fun m => m.get key.2

/-- The orders in which loops meet the tokens and the balances. -/
structure CoveState.Listing (σ : CoveState) where
  tokens : List (Bytes × CoveToken)
  balances : List ((Bytes × Bytes) × CoveBalance)
  lists_tokens : Table.Lists tokens σ.tokens
  mem_balances : ∀ key b, (key, b) ∈ balances ↔ σ.held key = some b
  nodup_balances : (balances.map Prod.fst).Nodup

/-- Every state has such orders. -/
theorem CoveState.exists_listing (σ : CoveState) : Nonempty σ.Listing := by
  obtain ⟨tokens, htokens⟩ := Table.exists_lists σ.tokens
  obtain ⟨owners, howners⟩ := Table.exists_lists σ.balances
  choose held hheld using fun m : Dict Bytes CoveBalance => Table.exists_lists m
  refine ⟨{
    tokens
    balances := owners.flatMap fun e => (held e.2).map fun b => ((e.1, b.1), b.2)
    lists_tokens := htokens
    mem_balances := ?_
    nodup_balances := ?_ }⟩
  · intro key b
    simp only [List.mem_flatMap, List.mem_map, CoveState.held, Option.bind_eq_some_iff]
    constructor
    · intro h
      obtain ⟨e, he, x, hx, hkey⟩ := h
      cases hkey
      exact ⟨e.2, howners.mem_iff.mp he, (hheld e.2).mem_iff.mp hx⟩
    · intro h
      obtain ⟨m, hm, hb⟩ := h
      exact ⟨(key.1, m), howners.mem_iff.mpr hm, (key.2, b), (hheld m).mem_iff.mpr hb, rfl⟩
  · rw [List.map_flatMap, List.nodup_flatMap]
    constructor
    · intro e he
      have hnodup := (hheld e.2).nodup
      have hkeys : ((held e.2).map fun b => ((e.1, b.1), b.2)).map Prod.fst =
          ((held e.2).map Prod.fst).map (Prod.mk e.1) := by simp
      rw [hkeys]
      exact hnodup.map (Prod.mk_right_injective e.1)
    · have hne := List.pairwise_map.mp howners.nodup
      refine hne.imp ?_
      intro e e' hne key hkey hkey'
      obtain ⟨x, hx, rfl⟩ := List.mem_map.mp hkey
      obtain ⟨b, -, rfl⟩ := List.mem_map.mp hx
      obtain ⟨x', hx', heq⟩ := List.mem_map.mp hkey'
      obtain ⟨b', -, rfl⟩ := List.mem_map.mp hx'
      exact hne (Prod.mk.inj heq).1.symm

def operationRow (e : CoveIndexEvent) : CoveOperationRow :=
  ⟨e.blockHeight, e.txIndex, e.operation, e.classification, e.valid, e.reason⟩

/-- On a conflict the operation and its classification stay. -/
def updateOperation (e : CoveIndexEvent) (row : CoveOperationRow) : CoveOperationRow :=
  { row with
    blockHeight := e.blockHeight
    txIndex := e.txIndex
    valid := e.valid
    reason := e.reason }

def tokenRow (t : CoveToken) : CoveTokenRow :=
  ⟨t.ticker, t.creator, t.confirmedSupplyAtoms, t.currentStage⟩

def updateToken (t : CoveToken) (row : CoveTokenRow) : CoveTokenRow :=
  { row with
    confirmedSupplyAtoms := t.confirmedSupplyAtoms
    currentStage := t.currentStage }

def balanceRow (b : CoveBalance) : CoveBalanceRow := ⟨b.availableAtoms, 0⟩

def replayFault (e : CoveIndexEvent) (recorded : Int) : Fault :=
  ⟨none, "REPLAY: txid " ++ Bytes.utf8Text e.txid.hexText ++
    s!" re-applied at height {e.blockHeight} " ++ s!"(already recorded at {recorded})"⟩

/-- A transaction recorded at another height is a replay. -/
def persistOperations (t : Dict Bytes CoveOperationRow) :
    List CoveIndexEvent → Except Fault (Dict Bytes CoveOperationRow)
  | [] => .ok t
  | e :: events => do
    let recorded := ((t.get e.txid).map CoveOperationRow.blockHeight).getD e.blockHeight
    ensure (recorded = e.blockHeight) (replayFault e recorded)
    persistOperations (Table.upsert t e.txid (operationRow e) (updateOperation e)) events

/-- The balances of the state, and none that it has no more. -/
def persistBalances {σ : CoveState} (t : Dict (Bytes × Bytes) CoveBalanceRow)
    (listing : σ.Listing) : Dict (Bytes × Bytes) CoveBalanceRow :=
  (Table.upsertEach balanceRow (fun b _ => balanceRow b) t listing.balances).filter
    fun key _ => listing.balances.any fun e => decide (e.1 = key)

def persistBlock (t : CoveTables) (height : Nat) (hash parentHash : Bytes) {σ : CoveState}
    (listing : σ.Listing) (events : List CoveIndexEvent) (stateRoot : Bytes) :
    Except Fault CoveTables := do
  let operations ← persistOperations t.operations events
  return {
    blocks :=
      Table.upsert t.blocks height ⟨hash, parentHash, true⟩ fun _ => ⟨hash, parentHash, true⟩
    operations
    tokens := Table.upsertEach tokenRow updateToken t.tokens listing.tokens
    balances := persistBalances t.balances listing
    checkpoints := Table.upsert t.checkpoints height ⟨hash, stateRoot⟩ fun _ => ⟨hash, stateRoot⟩
    cursor := some ⟨height, hash, (t.cursor.map CoveCursorRow.rebuilding).getD false⟩ }

/-- An update, so it changes nothing where there is no row. -/
def setRebuilding (t : CoveTables) (rebuilding : Bool) : CoveTables :=
  { t with cursor := t.cursor.map fun row => { row with rebuilding } }

def clearCove (_ : CoveTables) : CoveTables := .empty

def isRebuilding (t : CoveTables) : Bool := (t.cursor.map CoveCursorRow.rebuilding).getD false

/-- The checkpoint of the greatest height. -/
def getLatestCheckpoint (t : CoveTables) : Option (Nat × CoveCheckpointRow) :=
  let height := (t.checkpoints.entries.map Prod.fst).sup
  (t.checkpoints.get height).map (height, ·)

/-! What a block does to the indexer, as far as the tables show it. -/

section

variable {config : CoveConfig} {ix ix' : CoveIndexer} {height : Int} {i : Nat}
  {btcTx : BitcoinProtocolTx}

/-- The log grows by events of these transactions in their order; no token goes, and none changes
its name or its creator. -/
structure Grows (txids : List Bytes) (ix ix' : CoveIndexer) : Prop where
  events : ∃ more, ix'.events = ix.events ++ more ∧ (more.map CoveIndexEvent.txid).Sublist txids
  tokens : ∀ id t, ix.state.tokens.get id = some t → ∃ t', ix'.state.tokens.get id = some t' ∧
    t'.ticker = t.ticker ∧ t'.creator = t.creator

theorem Grows.refl (ix : CoveIndexer) : Grows [] ix ix :=
  ⟨⟨[], by simp, List.Sublist.refl _⟩, fun _ t ht => ⟨t, ht, rfl, rfl⟩⟩

theorem Grows.trans {ix'' : CoveIndexer} {txids txids' : List Bytes} (h : Grows txids ix ix')
    (h' : Grows txids' ix' ix'') : Grows (txids ++ txids') ix ix'' := by
  obtain ⟨more, hmore, hsub⟩ := h.events
  obtain ⟨more', hmore', hsub'⟩ := h'.events
  refine ⟨⟨more ++ more', ?_, ?_⟩, ?_⟩
  · rw [hmore', hmore, List.append_assoc]
  · rw [List.map_append]
    exact hsub.append hsub'
  · intro id t ht
    obtain ⟨t₁, ht₁, htick₁, hcreator₁⟩ := h.tokens id t ht
    obtain ⟨t₂, ht₂, htick₂, hcreator₂⟩ := h'.tokens id t₁ ht₁
    exact ⟨t₂, ht₂, htick₂.trans htick₁, hcreator₂.trans hcreator₁⟩

theorem credit_tokens (σ : CoveState) (owner id : Bytes) (amount : Int) :
    (σ.credit owner id amount).tokens = σ.tokens := rfl

theorem debit_tokens {σ σ' : CoveState} {owner id : Bytes} {amount : Int}
    (h : σ.debit owner id amount = .ok σ') : σ'.tokens = σ.tokens := by
  simp only [CoveState.debit, bind_eq_ok] at h
  obtain ⟨m, -, sender, -, h⟩ := h
  split_ifs at h <;> cases h <;> rfl

/-- An operation leaves every token's name and creator. -/
theorem applyCoveOperation_tokens {seen : List Bytes} {σ σ' : CoveState} {tx : CoveTransaction}
    (hinv : CoveInv seen σ) (hfresh : tx.txid ∉ seen)
    (h : applyCoveOperation σ tx config = .ok σ') {id : Bytes} {t : CoveToken}
    (ht : σ.tokens.get id = some t) :
    ∃ t', σ'.tokens.get id = some t' ∧ t'.ticker = t.ticker ∧ t'.creator = t.creator := by
  unfold applyCoveOperation at h
  cases hop : tx.operation with
  | deploy =>
    rw [hop] at h
    cases h
    have hne : id ≠ tx.txid := by
      intro hid
      apply hfresh
      rw [← hid]
      exact hinv.seen id (Dict.has_iff.mpr ⟨t, ht⟩)
    exact ⟨t, by rw [Dict.get_set_ne _ _ hne]; exact ht, rfl, rfl⟩
  | mint =>
    rw [hop] at h
    simp only [bind_eq_ok, demand_eq_ok, pure_eq_ok] at h
    obtain ⟨token, htoken, quote, -, fee, -, stage, -, rfl⟩ := h
    rw [credit_tokens]
    obtain ⟨tick, id', -, -, -, -, hget⟩ := resolveToken_eq_some.mp htoken
    have hid' := (hinv.tokens id' token hget).deploymentId
    by_cases hid : id = token.deploymentId
    · have hsame : token = t := by
        rw [← hid', ← hid, ht] at hget
        exact (Option.some.inj hget).symm
      refine ⟨_, by rw [hid, Dict.get_set_self], ?_, ?_⟩
      · rw [hsame]
      · rw [hsame]
    · exact ⟨t, by rw [Dict.get_set_ne _ _ hid]; exact ht, rfl, rfl⟩
  | transfer =>
    rw [hop] at h
    simp only [bind_eq_ok, demand_eq_ok, pure_eq_ok] at h
    obtain ⟨token, -, debited, hdebited, rfl⟩ := h
    exact ⟨t, by rw [credit_tokens, debit_tokens hdebited]; exact ht, rfl, rfl⟩

theorem TxStep.grows (hinv : IndexerInv ix) (h : TxStep config height i btcTx ix ix') :
    Grows [btcTx.txid] ix ix' := by
  cases h with
  | ignored => exact ⟨⟨[], by simp, List.nil_sublist _⟩, fun _ t ht => ⟨t, ht, rfl, rfl⟩⟩
  | rejected hseen =>
    exact ⟨⟨_, rfl, List.Sublist.refl _⟩, fun _ t ht => ⟨t, ht, rfl, rfl⟩⟩
  | applied hfresh hmapped hvalid hstate =>
    refine ⟨⟨_, rfl, List.Sublist.refl _⟩, ?_⟩
    intro id t ht
    refine applyCoveOperation_tokens hinv.ledger ?_ hstate ht
    rw [toCoveTransaction_txid hmapped]
    exact hfresh

theorem processTxs_grows (hinv : IndexerInv ix) (hfee : 0 ≤ config.primaryMintFeeBps)
    {txs : List BitcoinProtocolTx} (h : ix.processTxs config height i txs = .ok ix') :
    Grows (txs.map BitcoinProtocolTx.txid) ix ix' := by
  induction txs generalizing ix i with
  | nil =>
    cases h
    exact .refl _
  | cons tx txs ih =>
    obtain ⟨ix₁, told, hfirst, hstep⟩ := processTx_step hinv.ledger hfee height i tx
    rw [CoveIndexer.processTxs, hfirst] at h
    exact (hstep.grows hinv).trans (ih (hinv.step hstep) h)

theorem processBlock_grows (hinv : IndexerInv ix) (hfee : 0 ≤ config.primaryMintFeeBps)
    {txs : List BitcoinProtocolTx} (h : ix.processBlock config height txs = .ok ix') :
    Grows (txs.map BitcoinProtocolTx.txid) ix ix' := by
  obtain ⟨-, -, hrun⟩ := (processBlock_eq_ok hinv hfee).mp h
  have hgrows := processTxs_grows (hinv.begin height) hfee hrun
  exact ⟨hgrows.events, hgrows.tokens⟩

/-- The log names transactions of the chain, in their order. -/
theorem Indexed.logged {chain : List (Int × List BitcoinProtocolTx)}
    (hfee : 0 ≤ config.primaryMintFeeBps) (h : Indexed config chain ix) :
    (ix.events.map CoveIndexEvent.txid).Sublist
      (chain.flatMap fun block => block.2.map BitcoinProtocolTx.txid) := by
  induction h with
  | new h =>
    simp only [CoveIndexer.new, bind_eq_ok, pure_eq_ok] at h
    obtain ⟨-, -, rfl⟩ := h
    exact List.nil_sublist _
  | @block chain ix ix' height txs before hblock ih =>
    obtain ⟨more, hmore, hsub⟩ := (processBlock_grows (before.inv hfee) hfee hblock).events
    rw [hmore, List.map_append, List.flatMap_append, List.flatMap_singleton]
    exact ih.append hsub

end

/-! The tables as a picture of the indexer. -/

/-- A block as the node serves it, its transactions decoded and their first inputs resolved. -/
structure ServedBlock where
  hash : Bytes
  previousBlockHash : Bytes
  txs : List BitcoinProtocolTx
  deriving DecidableEq, Repr

/-- The activation height; configurations with a negative one are refused. -/
def CoveConfig.genesis (config : CoveConfig) : Nat := config.genesisHeight.toNat

/-- Blocks under their heights from the activation height on. -/
def heighted (config : CoveConfig) (history : List ServedBlock) :
    List (Int × List BitcoinProtocolTx) :=
  history.zipIdx.map fun e => (((config.genesis + e.2 : Nat) : Int), e.1.txs)

/-- A new indexer that has read these blocks. -/
def Replays (config : CoveConfig) (history : List ServedBlock) (ix : CoveIndexer) : Prop :=
  Indexed config (heighted config history) ix

def txidsOf (history : List ServedBlock) : List Bytes :=
  history.flatMap fun block => block.txs.map BitcoinProtocolTx.txid

def eventOf (ix : CoveIndexer) (txid : Bytes) : Option CoveIndexEvent :=
  ix.events.find? fun e => e.txid = txid

/-- The tables are those of a clean replay of some blocks: every row is there, and no other. Only
the flag of the cursor is left open. -/
structure Projects (config : CoveConfig) (history : List ServedBlock) (ix : CoveIndexer)
    (t : CoveTables) : Prop where
  replays : Replays config history ix
  blocks : ∀ h row, t.blocks.get h = some row ↔ ∃ pre block, pre ++ [block] <+: history ∧
    h = config.genesis + pre.length ∧ row = ⟨block.hash, block.previousBlockHash, true⟩
  operations : ∀ txid, t.operations.get txid = (eventOf ix txid).map operationRow
  tokens : ∀ id, t.tokens.get id = (ix.state.tokens.get id).map tokenRow
  balances : ∀ key, t.balances.get key = (ix.state.held key).map balanceRow
  checkpoints : ∀ h row, t.checkpoints.get h = some row ↔ ∃ pre block, pre ++ [block] <+: history ∧
    h = config.genesis + pre.length ∧ ∃ ix₁, Replays config (pre ++ [block]) ix₁ ∧
      row = ⟨block.hash, ix₁.getStateRoot config⟩
  cursor : t.cursor.map (fun c => (c.height, c.blockHash)) =
    history.getLast?.map fun block => (config.genesis + (history.length - 1), block.hash)

section

variable {config : CoveConfig} {history : List ServedBlock} {block : ServedBlock}
  {ix ix' : CoveIndexer} {t : CoveTables}

theorem heighted_concat : heighted config (history ++ [block]) =
    heighted config history ++ [(((config.genesis + history.length : Nat) : Int), block.txs)] := by
  simp [heighted, List.zipIdx_append]

theorem flatMap_heighted : ((heighted config history).flatMap fun b =>
    b.2.map BitcoinProtocolTx.txid) = txidsOf history := by
  induction history using List.reverseRecOn with
  | nil => rfl
  | append_singleton history block ih =>
    rw [heighted_concat, List.flatMap_append, ih, txidsOf, txidsOf, List.flatMap_append,
      List.flatMap_singleton, List.flatMap_singleton]

theorem indexed_nil (h : Indexed config [] ix) : CoveIndexer.new config = .ok ix := by
  generalize hnil : ([] : List (Int × List BitcoinProtocolTx)) = chain at h
  cases h with
  | new h => exact h
  | block before hblock => exact absurd hnil.symm (by simp)

theorem indexed_concat {chain : List (Int × List BitcoinProtocolTx)} {height : Int}
    {txs : List BitcoinProtocolTx} (h : Indexed config (chain ++ [(height, txs)]) ix') :
    ∃ ix, Indexed config chain ix ∧ ix.processBlock config height txs = .ok ix' := by
  generalize hlast : chain ++ [(height, txs)] = whole at h
  cases h with
  | new h => exact absurd hlast (by simp)
  | @block chain' ix _ height' txs' before hblock =>
    obtain ⟨rfl, hpair⟩ := List.append_inj' hlast rfl
    obtain ⟨rfl, rfl⟩ := Prod.mk.inj (List.singleton_inj.mp hpair)
    exact ⟨ix, before, hblock⟩

/-- A replay comes to one indexer. -/
theorem Indexed.unique {chain : List (Int × List BitcoinProtocolTx)}
    (h : Indexed config chain ix) (h' : Indexed config chain ix') : ix = ix' := by
  induction chain using List.reverseRecOn generalizing ix ix' with
  | nil => exact Except.ok.inj ((indexed_nil h).symm.trans (indexed_nil h'))
  | append_singleton chain block ih =>
    obtain ⟨ix₁, hbefore, hblock⟩ := indexed_concat h
    obtain ⟨ix₂, hbefore', hblock'⟩ := indexed_concat h'
    rw [ih hbefore hbefore', hblock', Except.ok.injEq] at hblock
    exact hblock.symm

theorem replays_concat (h : Replays config (history ++ [block]) ix') : ∃ ix,
    Replays config history ix ∧
      ix.processBlock config ((config.genesis + history.length : Nat) : Int) block.txs =
        .ok ix' := by
  rw [Replays, heighted_concat] at h
  exact indexed_concat h

theorem Replays.genesis_nonneg (h : Replays config history ix) : 0 ≤ config.genesisHeight := by
  induction history using List.reverseRecOn generalizing ix with
  | nil =>
    have hnew := indexed_nil h
    simp only [CoveIndexer.new, bind_eq_ok, ensure_eq_ok, exists_const] at hnew
    exact hnew.1
  | append_singleton history block ih =>
    obtain ⟨ix₁, hbefore, -⟩ := replays_concat h
    exact ih hbefore

/-- The next height of a replay. -/
theorem Replays.follows (hfee : 0 ≤ config.primaryMintFeeBps) (h : Replays config history ix) :
    ix.follows ((config.genesis + history.length : Nat) : Int) = true := by
  cases history using List.reverseRecOn with
  | nil =>
    have hnew := indexed_nil h
    simp only [CoveIndexer.new, bind_eq_ok, pure_eq_ok] at hnew
    obtain ⟨-, -, rfl⟩ := hnew
    rfl
  | append_singleton history block =>
    obtain ⟨ix₁, hbefore, hblock⟩ := replays_concat h
    have hlast := ((Indexed.inv hfee hbefore).block hfee hblock).2
    rw [CoveIndexer.follows, hlast, Option.all_some, decide_eq_true_eq, List.length_append,
      List.length_singleton]
    omega

/-- The next block of a replay, at its own height, is taken. -/
theorem Replays.next (hfee : 0 ≤ config.primaryMintFeeBps) (h : Replays config history ix)
    (block : ServedBlock) : ∃ ix',
      ix.processBlock config ((config.genesis + history.length : Nat) : Int) block.txs = .ok ix' ∧
        Replays config (history ++ [block]) ix' := by
  have hinv := Indexed.inv hfee h
  have hgenesis := h.genesis_nonneg
  obtain ⟨ix', hrun, -, -⟩ := processTxs_ok (hinv.begin _) hfee
    ((config.genesis + history.length : Nat) : Int) 0 block.txs
  have hblock := (processBlock_eq_ok hinv hfee).mpr
    ⟨by unfold CoveConfig.genesis; omega, h.follows hfee, hrun⟩
  refine ⟨ix', hblock, ?_⟩
  rw [Replays, heighted_concat]
  exact .block h hblock

/-! One block persisted. -/

/-- The loop over the log records every event, where each transaction is recorded as it is or not
at all. -/
theorem persistOperations_ok {rows : Dict Bytes CoveOperationRow} {events : List CoveIndexEvent}
    (hnodup : (events.map CoveIndexEvent.txid).Nodup)
    (hrows : ∀ e ∈ events, ∀ row, rows.get e.txid = some row → row = operationRow e) :
    ∃ rows', persistOperations rows events = .ok rows' ∧
      ∀ txid, rows'.get txid =
        ((events.find? fun e => e.txid = txid).map operationRow).or (rows.get txid) := by
  induction events generalizing rows with
  | nil => exact ⟨rows, rfl, fun _ => rfl⟩
  | cons e events ih =>
    rw [List.map_cons, List.nodup_cons] at hnodup
    have hrecorded : ((rows.get e.txid).map CoveOperationRow.blockHeight).getD e.blockHeight =
        e.blockHeight := by
      cases hget : rows.get e.txid with
      | none => rfl
      | some row =>
        rw [hrows e List.mem_cons_self row hget]
        rfl
    have hrow : (rows.get e.txid).elim (operationRow e) (updateOperation e) = operationRow e := by
      cases hget : rows.get e.txid with
      | none => rfl
      | some row =>
        rw [hrows e List.mem_cons_self row hget]
        rfl
    have hupserted : ∀ txid,
        (Table.upsert rows e.txid (operationRow e) (updateOperation e)).get txid =
          if txid = e.txid then some (operationRow e) else rows.get txid := by
      intro txid
      rw [Table.get_upsert, hrow]
    have hrest : ∀ a ∈ events, ∀ row,
        (Table.upsert rows e.txid (operationRow e) (updateOperation e)).get a.txid = some row →
          row = operationRow a := by
      intro a ha row hget
      have hne : a.txid ≠ e.txid := by
        intro htxid
        apply hnodup.1
        rw [← htxid]
        exact List.mem_map_of_mem ha
      rw [hupserted, if_neg hne] at hget
      exact hrows a (List.mem_cons_of_mem _ ha) row hget
    obtain ⟨rows', hrun, hget⟩ := ih hnodup.2 hrest
    refine ⟨rows', ?_, ?_⟩
    · rw [persistOperations, hrecorded]
      simpa [ensure, bind, Except.bind, pure, Except.pure] using hrun
    · intro txid
      rw [hget, hupserted]
      by_cases htxid : txid = e.txid
      · have hnone : (events.find? fun a => a.txid = txid) = none := by
          rw [List.find?_eq_none]
          intro a ha
          have hne : a.txid ≠ txid := by
            intro h
            apply hnodup.1
            rw [← htxid, ← h]
            exact List.mem_map_of_mem ha
          simpa using hne
        rw [hnone, if_pos htxid, List.find?_cons_of_pos (by simpa using htxid.symm)]
        rfl
      · rw [if_neg htxid, List.find?_cons_of_neg (by simpa using Ne.symm htxid)]

/-- After the loops the balances are the state's. -/
theorem get_persistBalances {σ : CoveState} (rows : Dict (Bytes × Bytes) CoveBalanceRow)
    (listing : σ.Listing) (key : Bytes × Bytes) :
    (persistBalances rows listing).get key = (σ.held key).map balanceRow := by
  rw [persistBalances, Dict.get_filter]
  cases hheld : σ.held key with
  | none =>
    have hnone : (listing.balances.any fun e => decide (e.1 = key)) = false := by
      rw [List.any_eq_false]
      intro e he hkey
      have hb := (listing.mem_balances e.1 e.2).mp he
      rw [of_decide_eq_true hkey, hheld] at hb
      cases hb
    simp [hnone]
  | some b =>
    have hmem := (listing.mem_balances key b).mpr hheld
    have hany : (listing.balances.any fun e => decide (e.1 = key)) = true :=
      List.any_eq_true.mpr ⟨(key, b), hmem, decide_eq_true rfl⟩
    rw [Table.get_upsertEach_of_mem listing.nodup_balances hmem]
    cases rows.get key <;> simp [hany]

/-- A prefix that ends in a block of the history stands before the end. -/
theorem prefix_length {pre : List ServedBlock} {b : ServedBlock}
    (h : pre ++ [b] <+: history) : pre.length < history.length := by
  have hle := h.length_le
  rw [List.length_append, List.length_singleton] at hle
  exact hle

/-- A table with one row a block gets the row of the next one. -/
theorem rows_concat {R : Type} {rows : Dict Nat R} {P : List ServedBlock → ServedBlock → R → Prop}
    {r : R}
    (hrows : ∀ h row, rows.get h = some row ↔ ∃ pre b, pre ++ [b] <+: history ∧
      h = config.genesis + pre.length ∧ P pre b row)
    (hr : ∀ row, P history block row ↔ row = r) (h : Nat) (row : R) :
    (rows.set (config.genesis + history.length) r).get h = some row ↔
      ∃ pre b, pre ++ [b] <+: history ++ [block] ∧ h = config.genesis + pre.length ∧
        P pre b row := by
  rw [Dict.get_set]
  by_cases hh : h = config.genesis + history.length
  · rw [if_pos hh, Option.some.injEq, eq_comm, ← hr]
    constructor
    · intro hrow
      exact ⟨history, block, List.prefix_rfl, hh, hrow⟩
    · intro hex
      obtain ⟨pre, b, hpre, hlen, hrow⟩ := hex
      rcases List.prefix_concat_iff.mp hpre with heq | hpre
      · obtain ⟨rfl, hb⟩ := List.append_inj' heq rfl
        rw [List.singleton_inj.mp hb] at hrow
        exact hrow
      · have hshort := prefix_length hpre
        omega
  · rw [if_neg hh, hrows]
    constructor
    · intro hex
      obtain ⟨pre, b, hpre, hrest⟩ := hex
      exact ⟨pre, b, hpre.trans (List.prefix_append history [block]), hrest⟩
    · intro hex
      obtain ⟨pre, b, hpre, hlen, hrow⟩ := hex
      rcases List.prefix_concat_iff.mp hpre with heq | hpre
      · obtain ⟨rfl, -⟩ := List.append_inj' heq rfl
        exact absurd hlen hh
      · exact ⟨pre, b, hpre, hlen, hrow⟩

/-- Persisting the next block of a replay never fails and leaves the picture of the longer one. -/
theorem Projects.persist (hfee : 0 ≤ config.primaryMintFeeBps) (h : Projects config history ix t)
    (hblock : ix.processBlock config ((config.genesis + history.length : Nat) : Int) block.txs =
      .ok ix')
    (hunique : (txidsOf (history ++ [block])).Nodup) (listing : ix'.state.Listing) :
    ∃ t', persistBlock t (config.genesis + history.length) block.hash block.previousBlockHash
        listing ix'.events (ix'.getStateRoot config) = .ok t' ∧
      Projects config (history ++ [block]) ix' t' := by
  have hreplays : Replays config (history ++ [block]) ix' := by
    rw [Replays, heighted_concat]
    exact .block h.replays hblock
  have hgrows := processBlock_grows (Indexed.inv hfee h.replays) hfee hblock
  have hlogged := Indexed.logged hfee hreplays
  rw [flatMap_heighted] at hlogged
  have hnodup := hunique.sublist hlogged
  obtain ⟨more, hmore, -⟩ := hgrows.events
  have hrows : ∀ e ∈ ix'.events, ∀ row, t.operations.get e.txid = some row →
      row = operationRow e := by
    intro e he row hget
    rw [h.operations, Option.map_eq_some_iff] at hget
    obtain ⟨old, hold, rfl⟩ := hget
    have hmem : old ∈ ix'.events := by
      rw [hmore]
      exact List.mem_append_left _ (List.mem_of_find?_eq_some hold)
    have htxid : old.txid = e.txid := by simpa using List.find?_some hold
    rw [List.inj_on_of_nodup_map hnodup hmem he htxid]
  obtain ⟨operations, hrun, hget⟩ := persistOperations_ok hnodup hrows
  refine ⟨_, by rw [persistBlock, hrun]; rfl, ?_⟩
  refine {
    replays := hreplays
    blocks := ?_
    operations := ?_
    tokens := ?_
    balances := get_persistBalances t.balances listing
    checkpoints := ?_
    cursor := ?_ }
  · dsimp only
    rw [Table.upsert_const]
    exact rows_concat h.blocks fun row => Iff.rfl
  · intro txid
    dsimp only
    rw [hget, eventOf]
    cases hfound : ix'.events.find? fun e => e.txid = txid with
    | some e => rfl
    | none =>
      rw [hmore, List.find?_append, Option.or_eq_none_iff] at hfound
      rw [h.operations, eventOf, hfound.1]
      rfl
  · apply listing.lists_tokens.upsertEach_rows h.tokens
    intro id token htoken
    obtain ⟨token', htoken', htick, hcreator⟩ := hgrows.tokens id token htoken
    refine ⟨token', htoken', ?_⟩
    rw [updateToken, tokenRow, tokenRow, htick, hcreator]
  · dsimp only
    rw [Table.upsert_const]
    apply rows_concat h.checkpoints
    intro row
    constructor
    · intro hex
      obtain ⟨ix₁, hix₁, rfl⟩ := hex
      rw [Indexed.unique hix₁ hreplays]
    · intro hrow
      exact ⟨ix', hreplays, hrow⟩
  · simp

theorem Replays.fresh (h : Replays config [] ix) :
    ix.events = [] ∧ ix.state = createCoveState := by
  have hnew := indexed_nil h
  simp only [CoveIndexer.new, bind_eq_ok, pure_eq_ok] at hnew
  obtain ⟨-, -, rfl⟩ := hnew
  exact ⟨rfl, rfl⟩

theorem Projects.empty (h : Replays config [] ix) : Projects config [] ix .empty where
  replays := h
  blocks := by
    intro height row
    simp [CoveTables.empty]
  operations := by
    intro txid
    rw [eventOf, h.fresh.1]
    rfl
  tokens := by
    intro id
    rw [h.fresh.2]
    rfl
  balances := by
    intro key
    rw [h.fresh.2]
    rfl
  checkpoints := by
    intro height row
    simp [CoveTables.empty]
  cursor := rfl

/-- The flag of the cursor is no part of the picture. -/
theorem Projects.setRebuilding (h : Projects config history ix t) (rebuilding : Bool) :
    Projects config history ix (setRebuilding t rebuilding) where
  replays := h.replays
  blocks := h.blocks
  operations := h.operations
  tokens := h.tokens
  balances := h.balances
  checkpoints := h.checkpoints
  cursor := by
    rw [← h.cursor, Protocol.setRebuilding, Option.map_map]
    rfl

theorem Projects.cursor_none (h : Projects config [] ix t) : t.cursor = none := by
  simpa using h.cursor

theorem Projects.cursor_some (h : Projects config (history ++ [block]) ix t) : ∃ cursor,
    t.cursor = some cursor ∧ cursor.height = config.genesis + history.length ∧
      cursor.blockHash = block.hash := by
  simpa using h.cursor

/-- The latest checkpoint is the last block's. -/
theorem Projects.latest (h : Projects config (history ++ [block]) ix t) : getLatestCheckpoint t =
    some (config.genesis + history.length, ⟨block.hash, ix.getStateRoot config⟩) := by
  have hlast : t.checkpoints.get (config.genesis + history.length) =
      some ⟨block.hash, ix.getStateRoot config⟩ :=
    (h.checkpoints _ _).mpr ⟨history, block, List.prefix_rfl, rfl, ix, h.replays, rfl⟩
  have hsup : (t.checkpoints.entries.map Prod.fst).sup = config.genesis + history.length := by
    apply le_antisymm
    · apply Multiset.sup_le.mpr
      intro height hheight
      obtain ⟨e, he, rfl⟩ := Multiset.mem_map.mp hheight
      obtain ⟨pre, b, hpre, hlen, -⟩ := (h.checkpoints e.1 e.2).mp (Dict.mem_entries.mp he)
      have hshort := prefix_length hpre
      rw [List.length_append, List.length_singleton] at hshort
      omega
    · exact Multiset.le_sup (Multiset.mem_map.mpr ⟨_, Dict.mem_entries.mpr hlast, rfl⟩)
  rw [getLatestCheckpoint, hsup, hlast]
  rfl

end

end Protocol

end Cove
