import Cove.Indexer.Hydrate
import Cove.Indexer.Mirror

/-! The database projection and the state machine keep step: what a block writes hydrates to
the state after it, and its rollback to the state before it. -/

namespace Cove

open Checked

def CursorRow.toCursor (cfg : V3IndexerConfig) (c : CursorRow) : V3Cursor :=
  ⟨cfg.network, c.height, c.blockHash, c.stateRoot⟩

/-- The cursor a reader of the tables starts from. -/
def Db.readCursor (C : Crypto) (cfg : V3IndexerConfig) (db : Db) : V3Cursor :=
  (db.cursor.map (CursorRow.toCursor cfg)).getD (V3IndexerState.new C cfg).cursor

/-- Equal tables and equal cursors. A cursor row at height 0 with no hash reads as no row,
and `rebuilding` is no part of the projection. -/
structure SameProjection (C : Crypto) (cfg : V3IndexerConfig) (db db' : Db) : Prop where
  blocks : db.blocks = db'.blocks
  tokens : db.tokens = db'.tokens
  backingStates : db.backingStates = db'.backingStates
  tokenUtxos : db.tokenUtxos = db'.tokenUtxos
  events : db.events = db'.events
  undo : db.undo = db'.undo
  cursor : db.readCursor C cfg = db'.readCursor C cfg

/-- The rows of the event table are those of the recorded events. -/
def EventsStored (db : Db) (events : List V3Event) : Prop :=
  ∀ txid r, db.events.get txid = some r ↔ ∃ e ∈ events, e.txid = txid ∧ eventRow e = r

/-- The tables belong to the state of an indexer that has applied the chain. -/
structure Synced (C : Crypto) (cfg : V3IndexerConfig) (chain : List V3BlockInput)
    (σ : V3IndexerState) (db : Db) : Prop where
  ledger : Mirrors σ.toLedger (txidsOf C (chainTxs chain)) db σ.toLedger
  events : EventsStored db σ.events
  event_seen : ∀ e ∈ σ.events, e.txid ∈ txidsOf C (chainTxs chain)
  undo : ∀ h, db.undo.get h = (σ.undoByHeight.get h).map undoRow
  undo_height : ∀ h u, σ.undoByHeight.get h = some u → u.height = h
  blocks : ∀ h r, db.blocks.get h = some r → ∃ b ∈ chain, b.height = h
  cursor : db.readCursor C cfg = σ.cursor
  hashes : ∀ b ∈ chain, b.hash.length = 32

section

variable {C : Crypto} {cfg : V3IndexerConfig}

theorem SameProjection.refl (db : Db) : SameProjection C cfg db db :=
  ⟨rfl, rfl, rfl, rfl, rfl, rfl, rfl⟩

theorem SameProjection.symm {db db' : Db} (h : SameProjection C cfg db db') :
    SameProjection C cfg db' db :=
  ⟨h.blocks.symm, h.tokens.symm, h.backingStates.symm, h.tokenUtxos.symm, h.events.symm,
    h.undo.symm, h.cursor.symm⟩

theorem SameProjection.trans {db db' db'' : Db} (h : SameProjection C cfg db db')
    (h' : SameProjection C cfg db' db'') : SameProjection C cfg db db'' :=
  ⟨h.blocks.trans h'.blocks, h.tokens.trans h'.tokens, h.backingStates.trans h'.backingStates,
    h.tokenUtxos.trans h'.tokenUtxos, h.events.trans h'.events, h.undo.trans h'.undo,
    h.cursor.trans h'.cursor⟩

theorem Synced.of_same {chain : List V3BlockInput} {σ : V3IndexerState} {db db' : Db}
    (hS : Synced C cfg chain σ db) (h : SameProjection C cfg db db') :
    Synced C cfg chain σ db' := by
  constructor
  case ledger =>
    have hm := hS.ledger
    constructor
    · rw [← h.tokens]
      exact hm.tokens
    · rw [← h.backingStates]
      exact hm.backing
    · rw [← h.tokenUtxos]
      exact hm.carriers
    · rw [← h.tokenUtxos]
      exact hm.spent
    · rw [← h.tokenUtxos]
      exact hm.seen
  case events =>
    rw [EventsStored, ← h.events]
    exact hS.events
  case event_seen => exact hS.event_seen
  case undo =>
    rw [← h.undo]
    exact hS.undo
  case undo_height => exact hS.undo_height
  case blocks =>
    rw [← h.blocks]
    exact hS.blocks
  case cursor => rw [← h.cursor, hS.cursor]
  case hashes => exact hS.hashes

theorem Synced.new (C : Crypto) (cfg : V3IndexerConfig) :
    Synced C cfg [] (.new C cfg) Db.empty := by
  constructor
  case ledger => constructor <;> simp [V3IndexerState.new, Db.empty]
  case cursor => rfl
  all_goals simp [EventsStored, V3IndexerState.new, Db.empty]

/-! Rollback and undo side by side. -/

/-- The token and backing rows are exactly those of the ledger. -/
structure RowsOf (db : Db) (σ : Ledger) : Prop where
  tokens : ∀ t, db.tokens.get t = (σ.tokens.get t).map tokenRow
  backing : ∀ t, db.backingStates.get t = (σ.backing.get t).map backingRow

theorem Mirrors.rowsOf {seen : List Bytes} {db : Db} {σ : Ledger} (h : Mirrors σ seen db σ) :
    RowsOf db σ := by
  refine ⟨h.tokens, fun t => ?_⟩
  rcases h.backing t with h | ⟨-, h⟩
  · exact h
  · exact h

theorem Mirrors.restage {seen : List Bytes} {db : Db} {σ : Ledger} (h : Mirrors σ seen db σ)
    (staged : Ledger) : Mirrors staged seen db σ :=
  { h with backing := fun t => Or.inl (h.rowsOf.backing t) }

theorem rollbackOp_rowsOf {db : Db} {σ : Ledger} (h : RowsOf db σ) {op : UndoOp}
    (hop : op.BackingKeyed) : RowsOf (rollbackOp db op) (undoOp σ op) := by
  have hset : ∀ (tokenId : Bytes) (b : V3Backing), b.tokenId = tokenId → ∀ t,
      (db.upsertBacking b).backingStates.get t = ((σ.backing.set tokenId b).get t).map backingRow := by
    intro tokenId b hb t
    rw [Db.upsertBacking, Table.upsert_const, hb, Dict.get_set, Dict.get_set]
    split
    · rfl
    · exact h.backing t
  cases op with
  | deploy tokenId =>
    constructor
    · intro t
      simp only [rollbackOp, undoOp, Dict.get_delete]
      split
      · rfl
      · exact h.tokens t
    · intro t
      simp only [rollbackOp, undoOp, Dict.get_delete]
      split
      · rfl
      · exact h.backing t
  | mint tokenId priorBacking createdUtxo => exact ⟨h.tokens, hset _ _ hop⟩
  | redeem tokenId _ priorBacking _ _ => exact ⟨h.tokens, hset _ _ hop⟩
  | transfer _ _ _ => exact ⟨h.tokens, h.backing⟩
  | burn _ _ => exact ⟨h.tokens, h.backing⟩

theorem rollbackOps_rowsOf (ops : List UndoOp) (hops : ∀ op ∈ ops, op.BackingKeyed) {db : Db}
    {σ : Ledger} (h : RowsOf db σ) : RowsOf (ops.foldl rollbackOp db) (ops.foldl undoOp σ) := by
  induction ops generalizing db σ with
  | nil => exact h
  | cons op ops ih =>
    rw [List.forall_mem_cons] at hops
    exact ih hops.2 (rollbackOp_rowsOf h hops.1)

theorem rollbackOps_sameLog (ops : List UndoOp) (db : Db) : (ops.foldl rollbackOp db).SameLog db := by
  induction ops generalizing db with
  | nil => exact ⟨rfl, rfl, rfl, rfl⟩
  | cons op ops ih =>
    have hone : (rollbackOp db op).SameLog db := by
      cases op <;> exact ⟨rfl, rfl, rfl, rfl⟩
    exact (ih _).trans hone

theorem rollbackOps_cursor (ops : List UndoOp) (db : Db) (c : Option CursorRow) :
    ops.foldl rollbackOp { db with cursor := c } = { ops.foldl rollbackOp db with cursor := c } := by
  induction ops generalizing db with
  | nil => rfl
  | cons op ops ih =>
    have hone : rollbackOp { db with cursor := c } op = { rollbackOp db op with cursor := c } := by
      cases op <;> rfl
    rw [List.foldl_cons, hone, ih]
    rfl

theorem RowsOf.unique {db db' : Db} {σ : Ledger} (h : RowsOf db σ) (h' : RowsOf db' σ) :
    db.tokens = db'.tokens ∧ db.backingStates = db'.backingStates :=
  ⟨Dict.ext_get fun t => (h.tokens t).trans (h'.tokens t).symm,
    Dict.ext_get fun t => (h.backing t).trans (h'.backing t).symm⟩

/-! The events of a block. -/

variable {block : V3BlockInput}

theorem applyTxs_event_txids {base txs : List Transaction} {run : BlockRun} {ledger : Ledger}
    (hc : ConsensusValid C (base ++ txs))
    (h : applyTxs C cfg block 0 txs ⟨ledger, [], []⟩ = .ok run) :
    (run.events.map V3Event.txid).Sublist (txidsOf C txs) := by
  refine applyTxs_rule (fun done run => (run.events.map V3Event.txid).Sublist (txidsOf C done))
    ?_ hc (List.Sublist.refl _) h
  intro done tx post txIndex run run' hc hsub h
  obtain ⟨o, rfl⟩ := applyTx_cases hc.inputs h
  have hone : ((o.events txIndex).map V3Event.txid).Sublist [tx.getId C] := by
    cases o <;> simp [Outcome.events, eventOf]
  rw [Outcome.after, List.map_append, txidsOf, List.map_append]
  exact hsub.append hone

/-- The events recorded at the height of the last block are those the block produced. -/
theorem filter_events {chain : List V3BlockInput} {σ : V3IndexerState} {events : List V3Event}
    (hI : StateInv C cfg chain σ) (hb : ActiveBlock C cfg chain block)
    (he : ∀ e ∈ events, e.blockHeight = block.height) :
    (σ.events ++ events).filter (fun e => e.blockHeight = block.height) = events := by
  have hbelow := hI.below hb
  rw [List.filter_append, List.filter_eq_nil_iff.mpr, List.filter_eq_self.mpr, List.nil_append]
  · intro e hm
    exact decide_eq_true (he e hm)
  · intro e hm
    obtain ⟨b, hbm, heq⟩ := hI.event_block e hm
    have := hbelow b hbm
    simp only [decide_eq_true_eq]
    omega

/-- New event rows beside the old ones, and gone again once the height is deleted. -/
theorem events_table {db : Db} {old new : List V3Event} (height : Nat) (hS : EventsStored db old)
    (hold : ∀ e ∈ old, e.blockHeight ≠ height) (hnew : ∀ e ∈ new, e.blockHeight = height)
    (hd : (new.map V3Event.txid).Nodup)
    (hf : ∀ e ∈ new, ∀ e' ∈ old, e'.txid ≠ e.txid) :
    ∃ t, Table.insertAll db.events (new.map fun e => (e.txid, eventRow e)) = .ok t ∧
      (∀ txid r, t.get txid = some r ↔ ∃ e ∈ old ++ new, e.txid = txid ∧ eventRow e = r) ∧
      Table.deleteWhere t (fun e => e.blockHeight = height) = db.events := by
  have hfresh : ∀ e ∈ new, db.events.get e.txid = none := by
    intro e he
    by_contra hne
    obtain ⟨r, hr⟩ := Option.ne_none_iff_exists'.mp hne
    obtain ⟨e', he', heq, -⟩ := (hS e.txid r).mp hr
    exact hf e he e' he' heq
  have hkeys : (new.map fun e => (e.txid, eventRow e)).map Prod.fst = new.map V3Event.txid := by
    rw [List.map_map]
    rfl
  have hin : ∀ e ∈ new, (db.events.setAll (new.map fun e => (e.txid, eventRow e))).get e.txid =
      some (eventRow e) := by
    intro e he
    apply Dict.get_setAll_of_mem
    · intro x hx hxk
      obtain ⟨e', he', rfl⟩ := List.mem_map.mp hx
      rw [List.inj_on_of_nodup_map hd he' he hxk]
    · exact List.mem_map.mpr ⟨e, he, rfl⟩
  have hout : ∀ txid, txid ∉ new.map V3Event.txid →
      (db.events.setAll (new.map fun e => (e.txid, eventRow e))).get txid = db.events.get txid :=
    fun txid h => Dict.get_setAll_of_notMem _ _ _ (by rwa [hkeys])
  refine ⟨_, Table.insertAll_of_fresh ?_ (by rwa [hkeys]), ?_, ?_⟩
  · intro x hx
    obtain ⟨e, he, rfl⟩ := List.mem_map.mp hx
    exact hfresh e he
  · intro txid r
    by_cases hk : txid ∈ new.map V3Event.txid
    · obtain ⟨e, he, rfl⟩ := List.mem_map.mp hk
      rw [hin e he]
      constructor
      · intro hr
        exact ⟨e, List.mem_append_right _ he, rfl, Option.some.inj hr⟩
      · rintro ⟨e', he', heq, rfl⟩
        rcases List.mem_append.mp he' with he' | he'
        · exact absurd heq (hf e he e' he')
        · rw [List.inj_on_of_nodup_map hd he' he heq]
    · rw [hout txid hk, hS txid r]
      constructor
      · rintro ⟨e, he, h⟩
        exact ⟨e, List.mem_append_left _ he, h⟩
      · rintro ⟨e, he, rfl, h⟩
        rcases List.mem_append.mp he with he | he
        · exact ⟨e, he, rfl, h⟩
        · exact absurd (List.mem_map_of_mem he) hk
  · apply Dict.ext_get
    intro txid
    rw [Table.deleteWhere, Dict.get_filter]
    by_cases hk : txid ∈ new.map V3Event.txid
    · obtain ⟨e, he, rfl⟩ := List.mem_map.mp hk
      rw [hin e he, hfresh e he]
      simp [eventRow, hnew e he]
    · rw [hout txid hk]
      cases hr : db.events.get txid with
      | none => rfl
      | some r =>
        obtain ⟨e, he, -, rfl⟩ := (hS txid r).mp hr
        simpa [eventRow] using hold e he

/-! One block. -/

theorem fresh_block {chain : List V3BlockInput} {σ : V3IndexerState} {db : Db}
    (hS : Synced C cfg chain σ db) (hI : StateInv C cfg chain σ)
    (hb : ActiveBlock C cfg chain block) : db.blocks.get block.height = none := by
  by_contra hne
  obtain ⟨r, hr⟩ := Option.ne_none_iff_exists'.mp hne
  obtain ⟨b, hm, heq⟩ := hS.blocks _ r hr
  have := hI.below hb b hm
  omega

/-- The rollback of a block, table by table. -/
theorem rollback_same {staged : Ledger} {undo : BlockUndo} {db db₀ dbF : Db} {row : CursorRow}
    {prior : V3Cursor} (hfwd : Forward staged block undo.ops db₀ dbF)
    (hblocks : db₀.blocks.delete undo.height = db.blocks)
    (hundo : db₀.undo.delete undo.height = db.undo)
    (hevents : Table.deleteWhere db₀.events (fun e => e.blockHeight = undo.height) = db.events)
    (htok : (undo.ops.reverse.foldl rollbackOp dbF).tokens = db.tokens)
    (hback : (undo.ops.reverse.foldl rollbackOp dbF).backingStates = db.backingStates)
    (hrows : db₀.tokenUtxos = db.tokenUtxos)
    (hcursor : db.readCursor C cfg = ⟨cfg.network, prior.height, prior.blockHash, prior.stateRoot⟩) :
    SameProjection C cfg (rollback { dbF with cursor := some row } undo prior) db := by
  have hlog := (rollbackOps_sameLog undo.ops.reverse dbF).trans hfwd.log
  rw [rollback, rollbackOps_cursor]
  constructor
  case blocks => rw [← hblocks, ← hlog.blocks]
  case tokens => exact htok
  case backingStates => exact hback
  case tokenUtxos => exact hfwd.rows_back.trans hrows
  case events => rw [← hevents, ← hlog.events]
  case undo => rw [← hundo, ← hlog.undo]
  case cursor => exact hcursor.symm

/-- Writing the next block keeps tables and state together, and its rollback restores
the tables. -/
theorem persistBlock_synced {chain : List V3BlockInput} {σ σ' : V3IndexerState} {db : Db}
    {events : List V3Event} (rebuilding : Bool) (hS : Synced C cfg chain σ db)
    (hI : StateInv C cfg chain σ) (hb : ActiveBlock C cfg chain block)
    (h : applyBlock C cfg σ block = .ok (σ', events)) :
    ∃ undo db', σ'.undoByHeight.get block.height = some undo ∧
      persistBlock C db σ' block (σ'.events.filter fun e => e.blockHeight = block.height) undo
        rebuilding = .ok db' ∧
      Synced C cfg (chain ++ [block]) σ' db' ∧
      SameProjection C cfg (rollback db' undo σ.cursor) db := by
  have hc := hb.consensus
  rw [chainTxs_append] at hc
  have hbelow := hI.below hb
  have hinv := (hI.step hb h).ledger
  obtain ⟨run, hrun, -, rfl⟩ := (applyBlock_eq_ok hb.active).mp h
  have hfacts := applyTxs_facts hc hI.ledger hrun
  have hsub := applyTxs_event_txids hc hrun
  have htx : (txidsOf C (chainTxs chain) ++ txidsOf C block.txs).Nodup := by
    have hn := hc.txids_nodup
    rwa [List.map_append] at hn
  have hseen : txidsOf C (chainTxs (chain ++ [block])) =
      txidsOf C (chainTxs chain) ++ txidsOf C block.txs := by
    rw [chainTxs_append, txidsOf, List.map_append]
    rfl
  have hnewseen : ∀ e ∈ run.events, e.txid ∈ txidsOf C block.txs := fun e he =>
    hsub.subset (List.mem_map_of_mem he)
  -- The four tables that do not depend on the block's operations.
  obtain ⟨events', hins, hstored, hdel⟩ := events_table block.height hS.events
    (fun e he => by
      obtain ⟨b, hm, heq⟩ := hI.event_block e he
      have := hbelow b hm
      omega)
    hfacts.events_at (hsub.nodup (List.nodup_append.mp htx).2.1)
    (fun e he e' he' heq =>
      (List.nodup_append.mp htx).2.2 _ (hS.event_seen e' he') _ (hnewseen e he) heq)
  have hnoblock := fresh_block hS hI hb
  have hnoundo : db.undo.get block.height = none := by
    rw [hS.undo, hI.no_undo hb]
    rfl
  -- The tables the operations write.
  have hm := hS.ledger.restage run.ledger
  obtain ⟨ops, dbF, hops, hfwd, hmF⟩ := applyTxs_forward
    { db with
      blocks := db.blocks.set block.height ⟨block.hash, block.parentHash⟩
      events := events'
      undo := db.undo.set block.height ⟨block.hash, encodeUndo ⟨block.height, block.hash, run.ops⟩⟩ }
    hc hI.ledger ⟨hm.tokens, hm.backing, hm.carriers, hm.spent, hm.seen⟩
    (fun t b hbk => (hfacts.inv.backing_sound t b hbk).tokenId_eq) hrun
  rw [List.nil_append] at hops
  subst hops
  refine ⟨⟨block.height, block.hash, run.ops⟩, { dbF with cursor := some ⟨block.height, block.hash,
    computeStateRoot C run.ledger, rebuilding⟩ }, Dict.get_set_self _ _ _, ?_, ?_, ?_⟩
  · dsimp only
    rw [filter_events hI hb hfacts.events_at]
    simp only [persistBlock, Table.insert_of_fresh _ hnoblock, hins, Table.insert_of_fresh _ hnoundo]
    change (applyForwardAll run.ledger block run.ops _ >>= fun _ => _) = _
    rw [hfwd.written]
    rfl
  · constructor
    case ledger =>
      rw [chainTxs_append]
      exact ⟨hmF.tokens, hmF.backing, hmF.carriers, hmF.spent, hmF.seen⟩
    case events =>
      dsimp only [EventsStored]
      rw [hfwd.log.events]
      exact hstored
    case event_seen =>
      intro e he
      rw [hseen]
      rcases List.mem_append.mp he with he | he
      · exact List.mem_append_left _ (hS.event_seen e he)
      · exact List.mem_append_right _ (hnewseen e he)
    case undo =>
      intro k
      dsimp only
      rw [hfwd.log.undo, Dict.get_set, Dict.get_set]
      split
      · rfl
      · exact hS.undo k
    case undo_height =>
      intro k u hu
      rw [Dict.get_set] at hu
      split at hu
      · rename_i hk
        rw [← Option.some.inj hu, hk]
      · exact hS.undo_height k u hu
    case blocks =>
      intro k r hr
      dsimp only at hr
      rw [hfwd.log.blocks, Dict.get_set] at hr
      split at hr
      · exact ⟨block, by simp, Eq.symm (by assumption)⟩
      · obtain ⟨b, hm, heq⟩ := hS.blocks k r hr
        exact ⟨b, List.mem_append_left _ hm, heq⟩
    case cursor => rfl
    case hashes =>
      intro b hm
      rcases List.mem_append.mp hm with hm | hm
      · exact hS.hashes b hm
      · rw [List.mem_singleton.mp hm]
        exact hb.hash
  · have hrows := rollbackOps_rowsOf run.ops.reverse
      (fun op hop => hfwd.keyed op (List.mem_reverse.mp hop)) hmF.rowsOf
    rw [show run.ops.reverse.foldl undoOp run.ledger = σ.toLedger from hfacts.undo] at hrows
    obtain ⟨htok, hback⟩ := hrows.unique hS.ledger.rowsOf
    have hnet : σ.cursor.network = cfg.network := by
      rw [hI.cursor, cursorAt]
      split <;> rfl
    exact rollback_same hfwd (Dict.delete_back hnoblock) (Dict.delete_back hnoundo) hdel htok hback
      rfl (by rw [hS.cursor, ← hnet])

end

/-! Hydration. -/

/-- An event on the fields the indexer reads back. -/
def V3Event.stored (e : V3Event) : V3Event := { e with curve := none }

/-- A hydrated state beside the state in memory: all but the events is equal, and those are
compared as a set. -/
structure SameState (h σ : V3IndexerState) : Prop where
  ledger : h.toLedger = σ.toLedger
  undoByHeight : h.undoByHeight = σ.undoByHeight
  cursor : h.cursor = σ.cursor
  events : ∀ e, e ∈ h.events ↔ ∃ e' ∈ σ.events, e'.stored = e

/-- The tables are the projection of the state: however the rows come back, they hydrate to
it, and the event rows hold the events with their trade figures. -/
structure Projects (C : Crypto) (cfg : V3IndexerConfig) (db : Db) (σ : V3IndexerState) :
    Prop where
  hydrates : ∀ sel, Selects db sel → ∃ h, hydrateState C cfg sel = .ok h ∧ SameState h σ
  events : EventsStored db σ.events

section

variable {C : Crypto} {cfg : V3IndexerConfig} {chain : List V3BlockInput} {σ : V3IndexerState}
  {db : Db} {sel : Selection}

theorem load_tokens (hS : Synced C cfg chain σ db) (hI : StateInv C cfg chain σ)
    (hsel : Selects db sel) : Table.load hydrateToken sel.tokens ∅ = .ok σ.tokens := by
  obtain ⟨m, hload, hget⟩ := hsel.tokens.load hydrateToken
    (f := fun k r => r.toMeta k) (by
      intro k r _ m hm
      simp [hydrateToken, Dict.has, hm, ensure, bind, Except.bind, pure, Except.pure])
  rw [hload]
  congr 1
  apply Dict.ext_get
  intro t
  rw [hget, hS.ledger.tokens]
  cases ht : σ.tokens.get t with
  | none => rfl
  | some m =>
    have hk := hI.ledger.meta_key t m ht
    subst hk
    rfl

theorem toBacking_backingRow {t : Bytes} {b : V3Backing} (h : BackingSound C cfg t b) :
    (backingRow b).toBacking t = b := by
  have ho := h.outpoint
  apply V3Backing.ext
  case state => exact CoveStateV2.ext rfl rfl h.state_tokenId.symm rfl rfl rfl
  case tokenId => exact h.tokenId_eq.symm
  case updatedTxid => exact congrArg OutPoint.txid ho
  all_goals rfl

theorem load_backing (hS : Synced C cfg chain σ db) (hI : StateInv C cfg chain σ)
    (hsel : Selects db sel) :
    Table.load (hydrateBacking σ.tokens) sel.backings ∅ = .ok σ.backing := by
  have hrows := hS.ledger.rowsOf.backing
  obtain ⟨m, hload, hget⟩ := hsel.backings.load (hydrateBacking σ.tokens)
    (f := fun k r => r.toBacking k) (by
      intro k r hr m hm
      rw [hrows] at hr
      obtain ⟨b, hb, rfl⟩ := Option.map_eq_some_iff.mp hr
      have hsound := hI.ledger.backing_sound k b hb
      have hknown : σ.tokens.has k = true := by
        rw [hI.ledger.same_keys]
        exact Dict.has_iff.mpr ⟨b, hb⟩
      have hstate : (backingRow b).toState k = b.state :=
        CoveStateV2.ext rfl rfl hsound.state_tokenId.symm rfl rfl rfl
      have hvalid := (validateStateV2_eq_ok b.state).mpr hsound.state_valid
      have hfresh : m.has k = false := by simp [Dict.has, hm]
      simp [hydrateBacking, hknown, hstate, hvalid, hfresh, ensure, Except.mapError, bind,
        Except.bind, pure, Except.pure])
  rw [hload]
  congr 1
  apply Dict.ext_get
  intro t
  rw [hget, hrows]
  cases hb : σ.backing.get t with
  | none => rfl
  | some b => exact congrArg some (toBacking_backingRow (hI.ledger.backing_sound t b hb))

theorem checkBacked_ok (hS : Synced C cfg chain σ db) (hI : StateInv C cfg chain σ)
    (hsel : Selects db sel) : checkBacked σ.backing sel.tokens = .ok () := by
  have hall : ∀ x ∈ sel.tokens, σ.backing.has x.1 = true := by
    intro x hx
    have hr := hsel.tokens.mem_iff.mp hx
    rw [hS.ledger.tokens] at hr
    obtain ⟨m, hm, -⟩ := Option.map_eq_some_iff.mp hr
    rw [← hI.ledger.same_keys]
    exact Dict.has_iff.mpr ⟨m, hm⟩
  generalize sel.tokens = rows at hall
  induction rows with
  | nil => rfl
  | cons x rows ih =>
    rw [List.forall_mem_cons] at hall
    simp [checkBacked, hall.1, ensure, bind, Except.bind, ih hall.2]

/-- The unspent rows are those of the live carriers. -/
theorem unspent_get (hS : Synced C cfg chain σ db) (k : OutPoint) :
    (db.tokenUtxos.filter fun _ r => r.spentByTxid.isNone).get k =
      (σ.tokenUtxos.get k).map utxoRow := by
  rw [Dict.get_filter]
  cases hu : σ.tokenUtxos.get k with
  | some u =>
    rw [hS.ledger.carriers k u hu]
    rfl
  | none =>
    cases hr : db.tokenUtxos.get k with
    | none => rfl
    | some r =>
      have hspent := hS.ledger.spent k r hr hu
      simpa using hspent

theorem load_utxos (hS : Synced C cfg chain σ db) (hI : StateInv C cfg chain σ)
    (hsel : Selects db sel) :
    Table.load (hydrateUtxo σ.tokens) sel.utxos ∅ = .ok σ.tokenUtxos := by
  obtain ⟨m, hload, hget⟩ := hsel.utxos.load (hydrateUtxo σ.tokens)
    (f := fun k r => r.toUtxo k) (by
      intro k r hr m hm
      rw [unspent_get hS] at hr
      obtain ⟨u, hu, rfl⟩ := Option.map_eq_some_iff.mp hr
      have hknown : σ.tokens.has (utxoRow u).tokenId = true := hI.ledger.carrier_known k u hu
      have hfresh : m.has k = false := by simp [Dict.has, hm]
      simp [hydrateUtxo, hfresh, hknown, ensure, bind, Except.bind, pure, Except.pure])
  rw [hload]
  congr 1
  apply Dict.ext_get
  intro k
  rw [hget, unspent_get hS]
  cases hu : σ.tokenUtxos.get k with
  | none => rfl
  | some u =>
    have ho := hI.ledger.keyed k u hu
    subst ho
    rfl

theorem hydrateUndos_eq_load {rows : List (Nat × UndoRow)} {m : Dict Nat BlockUndo}
    (h : ∀ x ∈ rows, ∃ u : BlockUndo, u.height = x.1 ∧ x.2 = undoRow u) :
    hydrateUndos rows m = Table.load (fun _ _ u => decodeUndo u.undoJson) rows m := by
  induction rows generalizing m with
  | nil => rfl
  | cons x rows ih =>
    rw [List.forall_mem_cons] at h
    obtain ⟨u, hu, hx⟩ := h.1
    rw [hydrateUndos, Table.load, hx, undoRow, decodeUndo_encodeUndo]
    change hydrateUndos rows (m.set u.height u) = _
    rw [hu, ih h.2]
    rfl

theorem load_undos (hS : Synced C cfg chain σ db) (hsel : Selects db sel) :
    hydrateUndos sel.undos ∅ = .ok σ.undoByHeight := by
  have hrows : ∀ k r, db.undo.get k = some r → ∃ u, σ.undoByHeight.get k = some u ∧
      r = undoRow u := by
    intro k r hr
    rw [hS.undo] at hr
    obtain ⟨u, hu, rfl⟩ := Option.map_eq_some_iff.mp hr
    exact ⟨u, hu, rfl⟩
  rw [hydrateUndos_eq_load fun x hx => by
    obtain ⟨u, hu, hr⟩ := hrows _ _ (hsel.undos.mem_iff.mp hx)
    exact ⟨u, hS.undo_height _ _ hu, hr⟩]
  obtain ⟨m, hload, hget⟩ := hsel.undos.load
    (fun _ _ (u : UndoRow) => decodeUndo u.undoJson)
    (f := fun k _ => (σ.undoByHeight.get k).getD ⟨k, [], []⟩) (by
      intro k r hr m _
      obtain ⟨u, hu, rfl⟩ := hrows k r hr
      rw [undoRow, decodeUndo_encodeUndo, hu]
      rfl)
  rw [hload]
  congr 1
  apply Dict.ext_get
  intro k
  rw [hget, hS.undo]
  cases hu : σ.undoByHeight.get k <;> simp

theorem hydrateCursor_ok (hS : Synced C cfg chain σ db) (hI : StateInv C cfg chain σ)
    (hsel : Selects db sel) :
    hydrateCursor cfg (V3IndexerState.new C cfg).cursor sel.cursor = .ok σ.cursor := by
  have hread := hS.cursor
  rw [hsel.cursor]
  cases hc : db.cursor with
  | none =>
    rw [Db.readCursor, hc] at hread
    exact congrArg Except.ok hread
  | some c =>
    rw [Db.readCursor, hc] at hread
    have hcur : c.toCursor cfg = σ.cursor := hread
    have hhash : c.blockHash.length = 32 ∨ c.height = 0 := by
      have hat : c.toCursor cfg = cursorAt C cfg chain σ.toLedger := hcur.trans hI.cursor
      rw [cursorAt] at hat
      cases hl : chain.getLast? with
      | none =>
        rw [hl] at hat
        exact Or.inr (congrArg V3Cursor.height hat)
      | some b =>
        rw [hl] at hat
        refine Or.inl ?_
        rw [show c.blockHash = b.hash from congrArg V3Cursor.blockHash hat]
        exact hS.hashes b (List.mem_of_getLast? hl)
    rw [← hcur]
    simp [hydrateCursor, ensure, hhash, bind, Except.bind, pure, Except.pure, CursorRow.toCursor]

theorem Synced.projects (hS : Synced C cfg chain σ db) (hI : StateInv C cfg chain σ) :
    Projects C cfg db σ := by
  refine ⟨?_, hS.events⟩
  intro sel hsel
  refine ⟨{ σ with events := sel.events.map fun e => e.2.toEvent e.1 }, ?_, ⟨rfl, rfl, rfl, ?_⟩⟩
  · simp only [hydrateState, load_tokens hS hI hsel, load_backing hS hI hsel,
      checkBacked_ok hS hI hsel, load_utxos hS hI hsel, load_undos hS hsel,
      hydrateCursor_ok hS hI hsel, bind, Except.bind, pure, Except.pure]
  · intro e
    simp only [List.mem_map, Prod.exists, hsel.events.mem_iff]
    constructor
    · rintro ⟨txid, r, hr, rfl⟩
      obtain ⟨e', he', rfl, rfl⟩ := (hS.events txid r).mp hr
      exact ⟨e', he', rfl⟩
    · rintro ⟨e', he', rfl⟩
      exact ⟨e'.txid, eventRow e', (hS.events _ _).mpr ⟨e', he', rfl, rfl⟩, rfl⟩

end

/-! State and tables in lockstep. -/

/-- One turn of the indexing loop: the block is applied to a clone and persisted, and only then is
the clone adopted. -/
structure Persisted (C : Crypto) (cfg : V3IndexerConfig) (block : V3BlockInput) (rebuilding : Bool)
    (σ : V3IndexerState) (db : Db) (σ' : V3IndexerState) (db' : Db) : Prop where
  applied : ∃ events, applyBlock C cfg σ block = .ok (σ', events)
  persisted : ∃ undo, σ'.undoByHeight.get block.height = some undo ∧
    persistBlock C db σ' block (σ'.events.filter fun e => e.blockHeight = block.height) undo
      rebuilding = .ok db'

/-- The state and the tables of an indexer that applied the chain to an empty database. -/
inductive Indexed (C : Crypto) (cfg : V3IndexerConfig) :
    List V3BlockInput → V3IndexerState → Db → Prop
  | new : Indexed C cfg [] (.new C cfg) Db.empty
  | persist {chain : List V3BlockInput} {σ σ' : V3IndexerState} {db db' : Db}
      {block : V3BlockInput} {rebuilding : Bool} (hi : Indexed C cfg chain σ db)
      (hb : ActiveBlock C cfg chain block) (h : Persisted C cfg block rebuilding σ db σ' db') :
      Indexed C cfg (chain ++ [block]) σ' db'

/-- The state and the tables any sequence of persisted and rolled back blocks reaches. -/
inductive Lockstep (C : Crypto) (cfg : V3IndexerConfig) :
    List V3BlockInput → V3IndexerState → Db → Prop
  | new : Lockstep C cfg [] (.new C cfg) Db.empty
  | persist {chain : List V3BlockInput} {σ σ' : V3IndexerState} {db db' : Db}
      {block : V3BlockInput} {rebuilding : Bool} (hl : Lockstep C cfg chain σ db)
      (hb : ActiveBlock C cfg chain block) (h : Persisted C cfg block rebuilding σ db σ' db') :
      Lockstep C cfg (chain ++ [block]) σ' db'
  | rollback {chain : List V3BlockInput} {σ σ' : V3IndexerState} {db : Db} {block : V3BlockInput}
      {undo : BlockUndo} (hl : Lockstep C cfg (chain ++ [block]) σ db)
      (hu : σ.undoByHeight.get block.height = some undo)
      (h : undoBlock C cfg σ block.height = .ok σ') :
      Lockstep C cfg chain σ' (Cove.rollback db undo σ'.cursor)

section

variable {C : Crypto} {cfg : V3IndexerConfig} {chain : List V3BlockInput} {σ σ' : V3IndexerState}
  {db db' db₀ : Db} {block : V3BlockInput} {rebuilding : Bool}

theorem applyForward_cursor (block : V3BlockInput) (staged : Ledger) (db : Db)
    (c : Option CursorRow) (op : UndoOp) :
    applyForward staged block { db with cursor := c } op =
      (applyForward staged block db op).map fun db => { db with cursor := c } := by
  cases op <;> simp only [applyForward, Db.upsertBacking, bind, Except.bind, pure, Except.pure]
  all_goals repeat' split
  all_goals rfl

theorem applyForwardAll_cursor (block : V3BlockInput) (staged : Ledger) (ops : List UndoOp) (db : Db)
    (c : Option CursorRow) : applyForwardAll staged block ops { db with cursor := c } =
      (applyForwardAll staged block ops db).map fun db => { db with cursor := c } := by
  induction ops generalizing db with
  | nil => rfl
  | cons op ops ih =>
    rw [applyForwardAll, applyForwardAll, applyForward_cursor]
    cases applyForward staged block db op with
    | error e => rfl
    | ok db => exact ih db

/-- What a block writes does not depend on the cursor it replaces. -/
theorem persistBlock_cursor (db : Db) (c : Option CursorRow) (staged : V3IndexerState)
    (events : List V3Event) (undo : BlockUndo) :
    persistBlock C { db with cursor := c } staged block events undo rebuilding =
      persistBlock C db staged block events undo rebuilding := by
  simp only [persistBlock]
  cases Table.insert db.blocks block.height ⟨block.hash, block.parentHash⟩ with
  | error e => rfl
  | ok blocks =>
    cases Table.insertAll db.events (events.map fun e => (e.txid, eventRow e)) with
    | error e => rfl
    | ok rows =>
      cases Table.insert db.undo block.height ⟨block.hash, encodeUndo undo⟩ with
      | error e => rfl
      | ok undos =>
        have hall := applyForwardAll_cursor block staged.toLedger undo.ops
          { db with blocks := blocks, events := rows, undo := undos } c
        dsimp only [bind, Except.bind]
        rw [hall]
        cases applyForwardAll staged.toLedger block undo.ops
          { db with blocks := blocks, events := rows, undo := undos } <;> rfl

/-- Only `rebuilding` tells apart what two runs write for the same block. -/
theorem persistBlock_same {staged : V3IndexerState} {events : List V3Event} {undo : BlockUndo}
    {rebuilding' : Bool} (h : persistBlock C db staged block events undo rebuilding = .ok db₀)
    (h' : persistBlock C db staged block events undo rebuilding' = .ok db') :
    SameProjection C cfg db₀ db' := by
  simp only [persistBlock, bind_eq_ok, pure_eq_ok] at h h'
  obtain ⟨blocks, hb, rows, he, undos, hu, dbF, hF, rfl⟩ := h
  obtain ⟨blocks', hb', rows', he', undos', hu', dbF', hF', rfl⟩ := h'
  obtain rfl := Except.ok.inj (hb.symm.trans hb')
  obtain rfl := Except.ok.inj (he.symm.trans he')
  obtain rfl := Except.ok.inj (hu.symm.trans hu')
  obtain rfl := Except.ok.inj (hF.symm.trans hF')
  exact ⟨rfl, rfl, rfl, rfl, rfl, rfl, rfl⟩

theorem SameProjection.eq_cursor (h : SameProjection C cfg db db₀) :
    db = { db₀ with cursor := db.cursor } :=
  Db.ext h.blocks h.tokens h.backingStates h.tokenUtxos h.events h.undo rfl

theorem Persisted.of_same (h : Persisted C cfg block rebuilding σ db σ' db')
    (hsame : SameProjection C cfg db db₀) : Persisted C cfg block rebuilding σ db₀ σ' db' := by
  obtain ⟨undo, hu, hp⟩ := h.persisted
  refine ⟨h.applied, undo, hu, ?_⟩
  rwa [hsame.eq_cursor, persistBlock_cursor] at hp

theorem SameProjection.rollback (h : SameProjection C cfg db db₀) (undo : BlockUndo)
    (prior : V3Cursor) : SameProjection C cfg (rollback db undo prior) (rollback db₀ undo prior) := by
  rw [h.eq_cursor, Cove.rollback, Cove.rollback, rollbackOps_cursor]
  exact ⟨rfl, rfl, rfl, rfl, rfl, rfl, rfl⟩

theorem Indexed.replays (h : Indexed C cfg chain σ db) : Replays C cfg chain σ := by
  induction h with
  | new => exact .new
  | persist _ hb h ih =>
    obtain ⟨events, ha⟩ := h.applied
    exact ih.step hb ha

theorem Indexed.synced (h : Indexed C cfg chain σ db) : Synced C cfg chain σ db := by
  induction h with
  | new => exact .new C cfg
  | @persist chain σ σ' db db' block rebuilding hi hb h ih =>
    obtain ⟨events, ha⟩ := h.applied
    obtain ⟨undo, hu, hp⟩ := h.persisted
    obtain ⟨undo', db'', hu', hp', hS, -⟩ :=
      persistBlock_synced rebuilding ih hi.replays.inv hb ha
    rw [hu, Option.some.injEq] at hu'
    subst hu'
    rw [hp, Except.ok.injEq] at hp'
    rwa [hp']

theorem Indexed.last_step (h : Indexed C cfg (chain ++ [block]) σ db) :
    ∃ σ₀ db₀ rebuilding, Indexed C cfg chain σ₀ db₀ ∧ ActiveBlock C cfg chain block ∧
      Persisted C cfg block rebuilding σ₀ db₀ σ db := by
  generalize hl : chain ++ [block] = l at h
  cases h with
  | new => simp at hl
  | @persist chain' σ₀ _ db₀ _ block' rebuilding hi hb hp =>
    obtain ⟨rfl, hblock⟩ := List.append_inj' hl rfl
    obtain rfl := List.singleton_inj.mp hblock
    exact ⟨σ₀, db₀, rebuilding, hi, hb, hp⟩

theorem Indexed.eq_new (h : Indexed C cfg [] σ db) : σ = .new C cfg ∧ db = Db.empty := by
  generalize hl : ([] : List V3BlockInput) = l at h
  cases h with
  | new => exact ⟨rfl, rfl⟩
  | persist => simp at hl

/-- Undoing the last block and rolling it back gives the indexer of the shorter chain. -/
theorem Indexed.unwind {undo : BlockUndo} (h : Indexed C cfg (chain ++ [block]) σ db)
    (hu : σ.undoByHeight.get block.height = some undo) :
    ∃ σ₀ db₀, Indexed C cfg chain σ₀ db₀ ∧ undoBlock C cfg σ block.height = .ok σ₀ ∧
      SameProjection C cfg (rollback db undo σ₀.cursor) db₀ := by
  obtain ⟨σ₀, db₀, rebuilding, hi, hb, hp⟩ := h.last_step
  obtain ⟨events, ha⟩ := hp.applied
  obtain ⟨undo', hu', hpersist⟩ := hp.persisted
  obtain ⟨undo'', db'', hu'', hpersist'', -, hback⟩ :=
    persistBlock_synced rebuilding hi.synced hi.replays.inv hb ha
  rw [hu, Option.some.injEq] at hu' hu''
  subst hu' hu''
  rw [hpersist, Except.ok.injEq] at hpersist''
  rw [← hpersist''] at hback
  exact ⟨σ₀, db₀, hi, undoBlock_applyBlock hi.replays.inv hb ha, hback⟩

/-- Rolling blocks back never leads outside what clean replays build. -/
theorem Lockstep.indexed (h : Lockstep C cfg chain σ db) :
    ∃ db₀, Indexed C cfg chain σ db₀ ∧ SameProjection C cfg db db₀ := by
  induction h with
  | new => exact ⟨_, .new, .refl _⟩
  | persist _ hb h ih =>
    obtain ⟨db₀, hi, hsame⟩ := ih
    exact ⟨_, .persist hi hb (h.of_same hsame), .refl _⟩
  | rollback _ hu h ih =>
    obtain ⟨db₁, hi, hsame⟩ := ih
    obtain ⟨σ₀, db₀, hi₀, hundo, hback⟩ := hi.unwind hu
    rw [h, Except.ok.injEq] at hundo
    subst hundo
    exact ⟨db₀, hi₀, (hsame.rollback _ _).trans hback⟩

theorem Lockstep.synced (h : Lockstep C cfg chain σ db) : Synced C cfg chain σ db := by
  obtain ⟨db₀, hi, hsame⟩ := h.indexed
  exact hi.synced.of_same hsame.symm

theorem Lockstep.replays (h : Lockstep C cfg chain σ db) : Replays C cfg chain σ := by
  obtain ⟨db₀, hi, -⟩ := h.indexed
  exact hi.replays

theorem Lockstep.inv (h : Lockstep C cfg chain σ db) : StateInv C cfg chain σ := h.replays.inv

/-- Every state the state machine reaches has tables in step with it. -/
theorem Reachable.lockstep (h : Reachable C cfg chain σ) : ∃ db, Lockstep C cfg chain σ db := by
  have hr := h.replays
  clear h
  induction hr with
  | new => exact ⟨_, .new⟩
  | step hσ hb h ih =>
    obtain ⟨db, hl⟩ := ih
    obtain ⟨undo, db', hu, hp, -, -⟩ := persistBlock_synced false hl.synced hl.inv hb h
    exact ⟨db', .persist hl hb ⟨⟨_, h⟩, undo, hu, hp⟩⟩

/-- The projection commutes with the state machine: after the next block is persisted the
tables are the projection of the staged state, and after its rollback that of the undone one. -/
theorem projection_commutes {staged : V3IndexerState} {events : List V3Event} (rebuilding : Bool)
    (hl : Lockstep C cfg chain σ db) (hb : ActiveBlock C cfg chain block)
    (h : applyBlock C cfg σ block = .ok (staged, events)) :
    ∃ undo undone db',
      staged.undoByHeight.get block.height = some undo ∧
      persistBlock C db staged block (staged.events.filter fun e => e.blockHeight = block.height)
        undo rebuilding = .ok db' ∧
      Projects C cfg db' staged ∧
      undoBlock C cfg staged block.height = .ok undone ∧
      Projects C cfg (rollback db' undo undone.cursor) undone := by
  obtain ⟨undo, db', hu, hp, hS, hback⟩ := persistBlock_synced rebuilding hl.synced hl.inv hb h
  refine ⟨undo, σ, db', hu, hp, hS.projects (hl.inv.step hb h), undoBlock_applyBlock hl.inv hb h, ?_⟩
  exact (hl.synced.of_same hback.symm).projects hl.inv

end

theorem projection_commutes_sample : ∃ σ db staged events undo db',
    Lockstep sampleCrypto sampleConfig [deployBlock] σ db ∧
      applyBlock sampleCrypto sampleConfig σ mintBlock = .ok (staged, events) ∧
      persistBlock sampleCrypto db staged mintBlock
        (staged.events.filter fun e => e.blockHeight = 2) undo false = .ok db' ∧
      Projects sampleCrypto sampleConfig db' staged := by
  obtain ⟨σ₁, σ₂, _, events₂, -, h₁, h₂, -⟩ := sample_applies
  have hσ₁ : Reachable sampleCrypto sampleConfig [deployBlock] σ₁ :=
    .apply .new deployBlock_active h₁
  obtain ⟨db, hl⟩ := hσ₁.lockstep
  obtain ⟨undo, _, db', -, hp, hproj, -⟩ := projection_commutes false hl mintBlock_active h₂
  exact ⟨σ₁, db, σ₂, events₂, undo, db', hl, h₂, hp, hproj⟩

end Cove
