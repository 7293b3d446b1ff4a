import Cove.Indexer.Verify
import Cove.Lib.Blind

/-! The rebuild of the tables: `packages/cove-indexer/src/v3/reindex.ts`, with `fullVerify` of
`verify.ts` and `computeStateRootFromDb` of `hydrate.ts`. -/

namespace Cove

open Checked

section

variable (C : Crypto) (cfg : V3IndexerConfig)

def computeStateRootFromDb (sel : Selection) : Except Fault Bytes := do
  let state ← hydrateState C cfg sel
  return computeStateRoot C state.toLedger

def verifyCursorHash (core : CoreState) (cursor : V3Cursor) : Except Unverified Unit :=
  if 0 < cursor.height then do
    let coreHash ← (core.getBlockHash cursor.height).mapError .fault
    ensure (coreHash = cursor.blockHash)
      (.refused ("cursor hash mismatch at " ++ toString cursor.height))
  else .ok ()

/-- Replays the best chain from height 1 on, whatever the activation height. -/
def fullVerify (core : CoreState) (σ : V3IndexerState) : Except Unverified Unit := do
  verifyCursorHash core σ.cursor
  let (fresh, _) ← (applyFrom C cfg core.toStaticCore 1 σ.cursor.height (.new C cfg)).mapError .fault
  let replayRoot := computeStateRoot C fresh.toLedger
  let dbRoot := computeStateRoot C σ.toLedger
  ensure (dbRoot = σ.cursor.stateRoot)
    (.refused ("db root " ++ hexName dbRoot ++ " != cursor root " ++ hexName σ.cursor.stateRoot))
  ensure (replayRoot = dbRoot)
    (.refused ("replay root " ++ hexName replayRoot ++ " != db root " ++ hexName dbRoot))

/-! The steps of the rebuild. -/

def setTables (f : Db → Db) : Worker Unit := fun w => .ok () { w with db := f w.db }

def setState (σ : V3IndexerState) : Worker Unit := fun w => .ok () { w with state := σ }

def tables : Worker Db := fun w => .ok w.db w

def lifted {α : Type} (x : Except Fault α) : Worker α := fun w =>
  match x with
  | .ok a => .ok a w
  | .error f => .error f w

def markRebuilding (db : Db) : Db := { db with cursor := some ⟨0, [], [], true⟩ }

/-- Of the tables of the projection only the cursor is left. -/
def clearProjection (db : Db) : Db := { Db.empty with cursor := db.cursor }

def verifyFault (msg : String) : Fault := ⟨none, "REINDEX_VERIFY_FAILED: " ++ msg⟩

/-- A refused verification is thrown under the name of the check. -/
def verified (check : String) (x : Except Unverified Unit) : Except Fault Unit :=
  x.mapError fun u => match u with
    | .refused reason => verifyFault (check ++ " " ++ reason)
    | .fault f => f

/-- The update finds no row to change where none was inserted. -/
def markHealthy (cursor : V3Cursor) (stateRoot : Bytes) (db : Db) : Db :=
  { db with cursor := db.cursor.map fun _ => ⟨cursor.height, cursor.blockHash, stateRoot, false⟩ }

/-- `rows` and `listing` are the orders in which the database returns its rows and the maps their
values. The worker's calls go to `node`; `core` is the node at the verification. -/
def reindexDb (node : CoreNode) (core : CoreState) (rows : Db → Selection)
    (listing : (σ : V3IndexerState) → σ.toLedger.Listing) : Worker Unit := do
  setTables markRebuilding
  setTables clearProjection
  setState (.new C cfg)
  persistentWorker C cfg node true
  let state ← indexerState
  let stateRoot := computeStateRoot C state.toLedger
  let db ← tables
  let dbRoot ← lifted (computeStateRootFromDb C cfg (rows db))
  lifted (ensure (dbRoot = stateRoot)
    (verifyFault ("db root " ++ hexName dbRoot ++ " != worker root " ++ hexName stateRoot)))
  lifted (verified "quick" (quickVerify C cfg core state (listing state)))
  lifted (verified "full" (fullVerify C cfg core state))
  setTables (markHealthy state.cursor stateRoot)

end

/-! The worker does not read the cursor row. -/

/-- The worlds differ in the cursor row at most. -/
def CursorAside (w w' : World) : Prop := ∃ c, w' = { w with db := { w.db with cursor := c } }

section Blindness

variable {C : Crypto} {cfg : V3IndexerConfig} {node : CoreNode}

theorem getBlockchainInfo_blind : Blind CursorAside (getBlockchainInfo node) := by
  intro w w' h
  obtain ⟨c, rfl⟩ := h
  exact ⟨_, rfl, c, rfl⟩

theorem getBlockHash_blind (h : Nat) : Blind CursorAside (getBlockHash node h) := by
  intro w w' hw
  obtain ⟨c, rfl⟩ := hw
  unfold getBlockHash
  cases (node.best w.calls)[h]? with
  | some b => exact ⟨_, rfl, c, rfl⟩
  | none => exact ⟨_, rfl, c, rfl⟩

theorem getBlock_blind (hash : Bytes) : Blind CursorAside (getBlock node hash) := by
  intro w w' hw
  obtain ⟨c, rfl⟩ := hw
  unfold getBlock
  cases node.block hash with
  | some b => exact ⟨_, rfl, c, rfl⟩
  | none => exact ⟨_, rfl, c, rfl⟩

theorem indexerState_blind : Blind CursorAside indexerState := by
  intro w w' h
  obtain ⟨c, rfl⟩ := h
  exact ⟨_, rfl, c, rfl⟩

/-- What a block writes, the cursor included, does not depend on the cursor before it. -/
theorem stageBlock_blind (input : V3BlockInput) (rebuilding : Bool) :
    Blind CursorAside (stageBlock C cfg input rebuilding) := by
  intro w w' h
  obtain ⟨c, rfl⟩ := h
  unfold stageBlock
  dsimp only
  cases applyBlock C cfg w.state input with
  | error f => exact ⟨_, rfl, c, rfl⟩
  | ok p =>
    obtain ⟨staged, events⟩ := p
    dsimp only
    cases staged.undoByHeight.get input.height with
    | none => exact ⟨_, rfl, c, rfl⟩
    | some undo =>
      have hsame := @persistBlock_cursor C input rebuilding w.db c staged
        (staged.events.filter fun e => e.blockHeight = input.height) undo
      dsimp only at hsame ⊢
      rw [hsame]
      cases persistBlock C w.db staged input
        (staged.events.filter fun e => e.blockHeight = input.height) undo rebuilding with
      | error f => exact ⟨_, rfl, c, rfl⟩
      | ok db => exact ⟨_, rfl, db.cursor, rfl⟩

theorem indexBlocks_blind (rebuilding : Bool) (h n : Nat) :
    Blind CursorAside (indexBlocks C cfg node rebuilding h n) := by
  induction n generalizing h with
  | zero => exact .pure ()
  | succ n ih =>
    unfold indexBlocks indexBlock
    refine .bind (.bind (getBlockHash_blind h) fun hash => .bind indexerState_blind fun state => ?_)
      fun _ => ih (h + 1)
    apply Blind.ite
    · exact .pure ()
    · exact .bind (getBlock_blind hash) fun block => stageBlock_blind _ rebuilding

theorem persistentWorker_blind (rebuilding : Bool) :
    Blind CursorAside (persistentWorker C cfg node rebuilding) :=
  .bind getBlockchainInfo_blind fun _ => .bind indexerState_blind fun _ =>
    indexBlocks_blind rebuilding _ _

end Blindness

/-! The cursor row while the tables are rebuilt. -/

/-- The row says the tables are being rebuilt, and how far they are. -/
def RowRebuilding (C : Crypto) (cfg : V3IndexerConfig) (w : World) : Prop :=
  ∃ c, w.db.cursor = some c ∧ c.rebuilding = true ∧
    (c.toCursor cfg = w.state.cursor ∨ (w.state = .new C cfg ∧ c.height = 0))

section Rows

variable {C : Crypto} {cfg : V3IndexerConfig} {node : CoreNode}

theorem persistBlock_row {db db' : Db} {staged : V3IndexerState} {block : V3BlockInput}
    {events : List V3Event} {undo : BlockUndo} {rebuilding : Bool}
    (h : persistBlock C db staged block events undo rebuilding = .ok db') :
    db'.cursor = some ⟨block.height, block.hash, computeStateRoot C staged.toLedger, rebuilding⟩ := by
  simp only [persistBlock, bind_eq_ok, pure_eq_ok] at h
  obtain ⟨_, -, _, -, _, -, _, -, rfl⟩ := h
  rfl

theorem stageBlock_row {input : V3BlockInput} (hh : cfg.genesisHeight ≤ input.height) :
    Triple (RowRebuilding C cfg) (stageBlock C cfg input true) (fun _ => RowRebuilding C cfg)
      (RowRebuilding C cfg) := by
  intro w hw
  rcases stageBlock_cases C cfg input true w with
    ⟨f, hf⟩ | ⟨staged, events, undo, db, happly, -, hpersist, hok⟩
  · rw [hf]
    exact hw
  · rw [hok]
    obtain ⟨run, -, -, rfl⟩ := (applyBlock_eq_ok hh).mp happly
    exact ⟨_, persistBlock_row hpersist, rfl, Or.inl rfl⟩

/-- A call leaves the tables and the state alone. -/
theorem RowRebuilding.call {w : World} (h : RowRebuilding C cfg w) : RowRebuilding C cfg w.call := h

theorem indexBlocks_row (h n : Nat) (hh : cfg.genesisHeight ≤ h) :
    Triple (RowRebuilding C cfg) (indexBlocks C cfg node true h n) (fun _ => RowRebuilding C cfg)
      (RowRebuilding C cfg) := by
  induction n generalizing h with
  | zero => exact .pure fun _ hw => hw
  | succ n ih =>
    have hhash : Triple (RowRebuilding C cfg) (getBlockHash node h) (fun _ => RowRebuilding C cfg)
        (RowRebuilding C cfg) := by
      intro w hw
      unfold getBlockHash
      cases (node.best w.calls)[h]? with
      | some b => exact hw.call
      | none => exact hw.call
    have hblock (hash : Bytes) : Triple (RowRebuilding C cfg) (getBlock node hash)
        (fun _ => RowRebuilding C cfg) (RowRebuilding C cfg) := by
      intro w hw
      unfold getBlock
      cases node.block hash with
      | some b => exact hw.call
      | none => exact hw.call
    have hstate : Triple (RowRebuilding C cfg) indexerState (fun _ => RowRebuilding C cfg)
        (RowRebuilding C cfg) := fun _ hw => hw
    unfold indexBlocks indexBlock
    refine .bind (.bind hhash fun hash => .bind hstate fun state => ?_) fun _ => ih (h + 1) (by omega)
    apply Triple.ite
    · exact fun _ => .pure fun _ hw => hw
    · exact fun _ => .bind (hblock hash) fun block => stageBlock_row hh

theorem persistentWorker_row :
    Triple (RowRebuilding C cfg) (persistentWorker C cfg node true) (fun _ => RowRebuilding C cfg)
      (RowRebuilding C cfg) := by
  have hinfo : Triple (RowRebuilding C cfg) (getBlockchainInfo node) (fun _ => RowRebuilding C cfg)
      (RowRebuilding C cfg) := fun _ hw => hw.call
  have hstate : Triple (RowRebuilding C cfg) indexerState (fun _ => RowRebuilding C cfg)
      (RowRebuilding C cfg) := fun _ hw => hw
  exact .bind hinfo fun tip => .bind hstate fun state => indexBlocks_row _ _ (Nat.le_max_right _ _)

theorem lifted_row {α : Type} (x : Except Fault α) :
    Triple (RowRebuilding C cfg) (lifted x) (fun _ => RowRebuilding C cfg) (RowRebuilding C cfg) := by
  intro w hw
  unfold lifted
  cases x with
  | ok a => exact hw
  | error f => exact hw

/-- Whatever the node answers, and wherever a rebuild throws, the row says so. -/
theorem reindexDb_fails_closed (core : CoreState) (rows : Db → Selection)
    (listing : (σ : V3IndexerState) → σ.toLedger.Listing) :
    Triple (fun _ => True) (reindexDb C cfg node core rows listing) (fun _ _ => True)
      (RowRebuilding C cfg) := by
  have hstate : Triple (RowRebuilding C cfg) indexerState (fun _ => RowRebuilding C cfg)
      (RowRebuilding C cfg) := fun _ hw => hw
  have htables : Triple (RowRebuilding C cfg) tables (fun _ => RowRebuilding C cfg)
      (RowRebuilding C cfg) := fun _ hw => hw
  have hmark : Triple (fun _ => True) (setTables markRebuilding)
      (fun _ w => w.db.cursor = some ⟨0, [], [], true⟩) (RowRebuilding C cfg) := fun _ _ => rfl
  have hclear : Triple (fun w : World => w.db.cursor = some ⟨0, [], [], true⟩)
      (setTables clearProjection) (fun _ w => w.db.cursor = some ⟨0, [], [], true⟩)
      (RowRebuilding C cfg) := fun _ hw => hw
  have hnew : Triple (fun w : World => w.db.cursor = some ⟨0, [], [], true⟩)
      (setState (.new C cfg)) (fun _ => RowRebuilding C cfg) (RowRebuilding C cfg) :=
    fun _ hw => ⟨_, hw, rfl, Or.inr ⟨rfl, rfl⟩⟩
  unfold reindexDb
  refine .bind hmark fun _ => .bind hclear fun _ => .bind hnew fun _ =>
    .bind persistentWorker_row fun _ => .bind hstate fun state => .bind htables fun db =>
      .bind (lifted_row _) fun dbRoot => .bind (lifted_row _) fun _ => .bind (lifted_row _) fun _ =>
        .bind (lifted_row _) fun _ => ?_
  exact fun _ _ => trivial

end Rows

/-! The verifications of a state of the best chain. -/

section Verified

variable {C : Crypto} {cfg : V3IndexerConfig} {core : CoreState} {σ fresh : V3IndexerState} {db : Db}

/-- One block of a replay from height 1 on. Below the activation height nothing is applied. -/
theorem replay_block {h : Nat} (hpos : 1 ≤ h) {b : CoreBlock} (hb : core.best[h]? = some b)
    (hfresh : Replays C cfg (segment cfg core.best) fresh)
    (hσ : Replays C cfg (segment cfg (core.best.take h)) σ) :
    ∃ σ' events, applyBlock C cfg σ (inputAt h b) = .ok (σ', events) ∧
      Replays C cfg (segment cfg (core.best.take (h + 1))) σ' := by
  by_cases hg : h < cfg.genesisHeight
  · have hshort (k : Nat) (hk : k ≤ h + 1) : segment cfg (core.best.take k) = [] := by
      apply segment_short
      rw [List.length_take, startHeight]
      omega
    rw [hshort h (by omega)] at hσ
    refine ⟨σ, [], if_pos hg, ?_⟩
    rw [hshort (h + 1) (le_refl _)]
    exact hσ
  · have hstart : startHeight cfg ≤ h := by
      rw [startHeight]
      omega
    obtain ⟨rest, hrest⟩ := segment_prefix cfg core.best (h + 1)
    rw [hrest] at hfresh
    obtain ⟨σ', hσ'⟩ := hfresh.of_append
    have hstep := hσ'
    rw [segment_take_succ hstart hb] at hstep
    obtain ⟨σ₀, events, hσ₀, -, happly⟩ := hstep.last_step
    rw [hσ₀.unique hσ] at happly
    exact ⟨σ', events, happly, hσ'⟩

theorem applyFrom_replays {h n : Nat} (hlink : HashLinked core.block core.best) (hpos : 1 ≤ h)
    (hn : h + n = core.best.length) (hfresh : Replays C cfg (segment cfg core.best) fresh)
    (hσ : Replays C cfg (segment cfg (core.best.take h)) σ) :
    ∃ replayed, applyFrom C cfg core.toStaticCore h n σ = .ok (fresh, replayed) := by
  induction n generalizing h σ with
  | zero =>
    rw [List.take_of_length_le (by omega)] at hσ
    rw [hσ.unique hfresh]
    exact ⟨[], rfl⟩
  | succ n ih =>
    have hb : core.best[h]? = some core.best[h] := List.getElem?_eq_getElem (by omega)
    have hhash : core.getBlockHash h = .ok core.best[h].hash := by
      rw [StaticCore.getBlockHash, hb]
      rfl
    have hblock : core.getBlock core.best[h].hash = .ok core.best[h] := by
      rw [StaticCore.getBlock, hlink.known _ (List.mem_of_getElem? hb)]
      rfl
    obtain ⟨σ', events, happly, hσ'⟩ := replay_block hpos hb hfresh hσ
    obtain ⟨replayed, hrest⟩ := ih (by omega) (by omega) hσ'
    refine ⟨h :: replayed, ?_⟩
    simp only [applyFrom, bind_eq_ok, pure_eq_ok, Prod.exists]
    exact ⟨_, hhash, _, hblock, σ', events, happly, fresh, replayed, hrest, rfl⟩

/-- A full verification passes on every state of the best chain, indexed to the tip. -/
theorem fullVerify_ok (hu : Upto C cfg core.block core.best
    (max (startHeight cfg) core.best.length) σ db) : fullVerify C cfg core σ = .ok () := by
  have hσ := hu.replays
  have hroot : computeStateRoot C σ.toLedger = σ.cursor.stateRoot := by
    rw [hσ.inv.cursor, cursorAt]
    split <;> rfl
  have hnew : Replays C cfg (segment cfg (core.best.take 1)) (.new C cfg) := by
    have hnil : segment cfg (core.best.take 1) = [] := by
      apply segment_short
      rw [List.length_take, startHeight]
      omega
    rw [hnil]
    exact .new
  have hwhole : Replays C cfg (segment cfg core.best) σ := by
    rwa [List.take_of_length_le (Nat.le_max_right _ _)] at hσ
  by_cases hlen : core.best.length ≤ startHeight cfg
  · -- Nothing is indexed yet.
    rw [max_eq_left hlen] at hu
    obtain ⟨hheight, -⟩ := hu.cursor_start rfl
    have hempty : σ = .new C cfg := by
      rw [segment_short hlen] at hwhole
      exact hwhole.eq_new
    have hcursor : verifyCursorHash core σ.cursor = .ok () := by
      rw [verifyCursorHash, if_neg (by omega)]
    simp only [fullVerify, hheight, bind_eq_ok, mapError_eq_ok, ensure_eq_ok, Prod.exists]
    refine ⟨(), hcursor, σ, [], ?_, (), hroot, rfl⟩
    rw [hempty]
    rfl
  · have hlt : startHeight cfg < max (startHeight cfg) core.best.length := by omega
    obtain ⟨b, hb, hheight, hhash⟩ := hu.cursor_last hlt
    rw [max_eq_right (by omega)] at hb hheight
    have hpos : 0 < core.best.length - 1 := by
      rw [startHeight] at hlen
      omega
    obtain ⟨replayed, happly⟩ := applyFrom_replays (n := core.best.length - 1) hu.valid.link
      (le_refl 1) (by omega) hwhole hnew
    have hcore : core.getBlockHash (core.best.length - 1) = .ok b.hash := by
      rw [StaticCore.getBlockHash, hb]
      rfl
    have hcursor : verifyCursorHash core σ.cursor = .ok () := by
      rw [verifyCursorHash, hheight, if_pos hpos]
      simp only [bind_eq_ok, mapError_eq_ok, ensure_eq_ok]
      exact ⟨b.hash, hcore, hhash.symm⟩
    simp only [fullVerify, hheight, bind_eq_ok, mapError_eq_ok, ensure_eq_ok, Prod.exists]
    exact ⟨(), hcursor, σ, replayed, happly, (), hroot, rfl⟩

/-- The row reads as the state's cursor, or as a cursor at height 0. -/
theorem hydrateState_ledger {c : CursorRow} {chain : List V3BlockInput} {sel : Selection}
    (hS : Synced C cfg chain σ db) (hI : StateInv C cfg chain σ)
    (hc : c.toCursor cfg = σ.cursor ∨ c.height = 0)
    (hsel : Selects { db with cursor := some c } sel) :
    ∃ h, hydrateState C cfg sel = .ok h ∧ h.toLedger = σ.toLedger := by
  let own : Selection := { sel with cursor := db.cursor.toList }
  have hown : Selects db own :=
    ⟨hsel.tokens, hsel.backings, hsel.utxos, hsel.events, hsel.undos, rfl⟩
  have hcursor : ∃ cursor, hydrateCursor cfg (V3IndexerState.new C cfg).cursor sel.cursor = .ok cursor := by
    rw [hsel.cursor]
    rcases hc with hread | hzero
    · have hread' : Synced C cfg chain σ { db with cursor := some c } :=
        hS.of_same ⟨rfl, rfl, rfl, rfl, rfl, rfl, hS.cursor.trans hread.symm⟩
      have hok := hydrateCursor_ok hread' hI hsel
      rw [hsel.cursor] at hok
      exact ⟨_, hok⟩
    · refine ⟨c.toCursor cfg, ?_⟩
      simp [hydrateCursor, ensure, hzero, CursorRow.toCursor, bind, Except.bind, pure, Except.pure]
  obtain ⟨cursor, hcursor⟩ := hcursor
  have htokens := load_tokens hS hI hown
  have hbacking := load_backing hS hI hown
  have hbacked := checkBacked_ok hS hI hown
  have hutxos := load_utxos hS hI hown
  have hundos := load_undos hS hown
  simp only [hydrateState, bind_eq_ok, pure_eq_ok]
  exact ⟨_, ⟨_, htokens, _, hbacking, (), hbacked, _, hutxos, _, hundos, cursor, hcursor, rfl⟩, rfl⟩

end Verified

/-! The rebuild against a best chain that stays put. -/

section Rebuild

variable {C : Crypto} {cfg : V3IndexerConfig} {node : CoreNode} {core : CoreState}
  {rows : Db → Selection} {listing : (σ : V3IndexerState) → σ.toLedger.Listing} {σ : V3IndexerState}

/-- The worker on cleared tables: it indexes the best chain, and the row says how far. -/
theorem worker_rebuilds (hbest : ∀ k, node.best k = core.best)
    (hv : ValidChain C cfg node.block core.best) (hσ : Replays C cfg (segment cfg core.best) σ)
    {w : World} (hstate : w.state = .new C cfg)
    (hcleared : w.db = { Db.empty with cursor := some ⟨0, [], [], true⟩ }) :
    ∃ w' db, persistentWorker C cfg node true w = .ok () w' ∧ w'.state = σ ∧
      Upto C cfg node.block core.best (max (startHeight cfg) core.best.length) σ db ∧
      w'.db = { db with cursor := w'.db.cursor } ∧ RowRebuilding C cfg w' := by
  let fresh : World := { w with db := .empty }
  have haside : CursorAside fresh w := by
    refine ⟨some ⟨0, [], [], true⟩, ?_⟩
    rw [show fresh.db = Db.empty from rfl, ← hcleared]
  have hrun : Triple _ (persistentWorker C cfg node true) _ fun _ => False :=
    (persistentWorker_static History.trivial (fun v _ => hbest v.calls) core.best true
      (startHeight cfg) hv.nonempty).consequence (fun _ h => h) (fun _ _ h => h)
      fun _ h => h trivial ⟨σ, hσ⟩
  have hstart : Upto C cfg node.block core.best (startHeight cfg) fresh.state fresh.db := by
    rw [show fresh.state = .new C cfg from hstate]
    exact Upto.new hv
  obtain ⟨⟨⟩, v, hok, hupto⟩ := hrun.returns (s := fresh) fun _ => ⟨hstart, fun _ => rfl⟩
  obtain ⟨hu, -⟩ := hupto trivial
  obtain ⟨w', hok', c, hw'⟩ := (persistentWorker_blind true).ok haside hok
  have hrow : RowRebuilding C cfg w' := by
    have hfirst : RowRebuilding C cfg w := ⟨_, by rw [hcleared], rfl, Or.inr ⟨hstate, rfl⟩⟩
    exact persistentWorker_row.ok hfirst hok'
  have hreplays := hu.replays
  rw [List.take_of_length_le (Nat.le_max_right _ _)] at hreplays
  have hvσ : v.state = σ := hreplays.unique hσ
  rw [hvσ] at hu
  refine ⟨w', v.db, hok', ?_, hu, ?_, hrow⟩
  · rw [hw']
    exact hvσ
  · rw [hw']

theorem run_bind {E S α β : Type} {x : EStateM E S α} {f : α → EStateM E S β} {s s' : S} {a : α}
    (h : x s = .ok a s') : (x >>= f) s = f a s' := by
  change EStateM.bind x f s = _
  unfold EStateM.bind
  rw [h]

/-- Once the worker is through, the quick verification alone decides. -/
theorem reindexDb_run {w w' : World}
    (hworker : persistentWorker C cfg node true { w with
        state := .new C cfg, db := { Db.empty with cursor := some ⟨0, [], [], true⟩ } } = .ok () w')
    (hroot : computeStateRootFromDb C cfg (rows w'.db) = .ok (computeStateRoot C w'.state.toLedger))
    (hfull : fullVerify C cfg core w'.state = .ok ()) :
    reindexDb C cfg node core rows listing w =
      match verified "quick" (quickVerify C cfg core w'.state (listing w'.state)) with
      | .ok _ => .ok () { w' with
          db := markHealthy w'.state.cursor (computeStateRoot C w'.state.toLedger) w'.db }
      | .error f => .error f w' := by
  have hmark : setTables markRebuilding w = .ok () { w with db := markRebuilding w.db } := rfl
  have hclear (v : World) : setTables clearProjection v = .ok () { v with db := clearProjection v.db } :=
    rfl
  have hnew (v : World) : setState (.new C cfg) v = .ok () { v with state := .new C cfg } := rfl
  have hstate (v : World) : indexerState v = .ok v.state v := rfl
  have htables (v : World) : tables v = .ok v.db v := rfl
  unfold reindexDb
  rw [run_bind hmark, run_bind (hclear _), run_bind (hnew _)]
  refine (run_bind hworker).trans ?_
  rw [run_bind (hstate _), run_bind (htables _)]
  have hdb : lifted (computeStateRootFromDb C cfg (rows w'.db)) w' =
      .ok (computeStateRoot C w'.state.toLedger) w' := by
    rw [hroot]
    rfl
  refine (run_bind hdb).trans ?_
  have hsame : lifted (ensure (computeStateRoot C w'.state.toLedger = computeStateRoot C w'.state.toLedger)
      (verifyFault ("db root " ++ hexName (computeStateRoot C w'.state.toLedger) ++ " != worker root " ++
        hexName (computeStateRoot C w'.state.toLedger)))) w' = .ok () w' := by
    simp [lifted, ensure]
  refine (run_bind hsame).trans ?_
  cases hquick : verified "quick" (quickVerify C cfg core w'.state (listing w'.state)) with
  | error f =>
    rw [show lifted (.error f : Except Fault Unit) = fun v => .error f v from rfl]
    rfl
  | ok u =>
    refine (run_bind (a := u) rfl).trans ?_
    rw [hfull]
    rfl

/-- From any tables and any memory, a rebuild leaves the clean replay of the best chain in both. It
ends well, and says so in the cursor row, exactly where the recovery profile enters no vault script;
elsewhere it throws and the row still says that the tables are being rebuilt. -/
theorem reindex_rebuilds (hbest : ∀ k, node.best k = core.best) (hsource : node.block = core.block)
    (hv : ValidChain C cfg core.block core.best) (hσ : Replays C cfg (segment cfg core.best) σ)
    (hknown : ∀ tx ∈ chainTxs (segment cfg core.best), core.transaction (tx.getId C) = some tx)
    (hrows : ∀ db, Selects db (rows db)) (w : World) :
    ∃ w', w'.state = σ ∧ HoldsChain C cfg core.best σ w'.db ∧
      ((ProfileUnseen C cfg σ.toLedger ∧
          reindexDb C cfg node core rows listing w = .ok () w' ∧
          w'.db.cursor =
            some ⟨σ.cursor.height, σ.cursor.blockHash, σ.cursor.stateRoot, false⟩) ∨
        (¬ ProfileUnseen C cfg σ.toLedger ∧
          (∃ f, reindexDb C cfg node core rows listing w = .error f w') ∧
          w'.db.cursor =
            some ⟨σ.cursor.height, σ.cursor.blockHash, σ.cursor.stateRoot, true⟩)) := by
  have hvnode : ValidChain C cfg node.block core.best := by
    rw [hsource]
    exact hv
  obtain ⟨w', db, hworker, hstate, hu, hdb, c, hrow, hrebuilding, hreads⟩ :=
    worker_rebuilds (w := { w with
      state := .new C cfg, db := { Db.empty with cursor := some ⟨0, [], [], true⟩ } })
      hbest hvnode hσ rfl rfl
  subst hstate
  have hwhole := hu.holdsChain
  have hreplays := hu.replays
  obtain ⟨db₀, hindexed, hprojection⟩ := id hwhole
  have hS := hindexed.synced.of_same hprojection.symm
  have hroot : computeStateRootFromDb C cfg (rows w'.db) =
      .ok (computeStateRoot C w'.state.toLedger) := by
    have hsel : Selects { db with cursor := some c } (rows w'.db) := by
      rw [← hrow, ← hdb]
      exact hrows _
    have hc : c.toCursor cfg = w'.state.cursor ∨ c.height = 0 := hreads.imp id And.right
    obtain ⟨h, hok, hledger⟩ := hydrateState_ledger hS hindexed.replays.inv hc hsel
    simp only [computeStateRootFromDb, bind_eq_ok, pure_eq_ok]
    exact ⟨h, hok, by rw [hledger]⟩
  have hcursor : w'.state.cursor = ⟨cfg.network, w'.state.cursor.height, w'.state.cursor.blockHash,
      computeStateRoot C w'.state.toLedger⟩ := by
    rw [hσ.inv.cursor, cursorAt]
    split <;> rfl
  have hstateRoot : w'.state.cursor.stateRoot = computeStateRoot C w'.state.toLedger :=
    congrArg V3Cursor.stateRoot hcursor
  -- A table of the rebuilt database is the replay's; only the cursor row may differ.
  have hholds (db' : Db) (htables : db' = { db with cursor := db'.cursor })
      (hread : db'.readCursor C cfg = w'.state.cursor) : HoldsChain C cfg core.best w'.state db' := by
    refine ⟨db₀, hindexed, ?_⟩
    rw [htables]
    refine ⟨hprojection.blocks, hprojection.tokens, hprojection.backingStates, hprojection.tokenUtxos,
      hprojection.events, hprojection.undo, ?_⟩
    rw [← htables, hread]
    exact hindexed.synced.cursor.symm
  have hfollows : core.Follows C (segment cfg core.best) := by
    refine ⟨?_, hknown⟩
    intro b hb
    obtain ⟨k, blk, -, hget, rfl⟩ := mem_segment.mp hb
    rw [show (inputAt k blk).height = k from rfl, hget]
    rfl
  have hquick : quickVerify C cfg core w'.state (listing w'.state) = .ok () ↔
      ProfileUnseen C cfg w'.state.toLedger :=
    (quickVerify_eq_ok (listing w'.state)).trans (agreesWithKnown_iff hσ hfollows)
  have hfull : fullVerify C cfg core w'.state = .ok () := by
    rw [hsource] at hu
    exact fullVerify_ok hu
  have hrun : reindexDb C cfg node core rows listing w = _ := reindexDb_run hworker hroot hfull
  by_cases hprofile : ProfileUnseen C cfg w'.state.toLedger
  · rw [hquick.mpr hprofile] at hrun
    let healthy := markHealthy w'.state.cursor (computeStateRoot C w'.state.toLedger) w'.db
    have hhealthy : healthy.cursor = some ⟨w'.state.cursor.height, w'.state.cursor.blockHash,
        computeStateRoot C w'.state.toLedger, false⟩ := by
      change (w'.db.cursor.map _) = _
      rw [hrow]
      rfl
    refine ⟨{ w' with db := healthy }, rfl, ?_, Or.inl ⟨hprofile, hrun, ?_⟩⟩
    · apply hholds healthy
      · change { w'.db with cursor := healthy.cursor } = _
        rw [hdb]
      · rw [Db.readCursor, hhealthy, hcursor]
        rfl
    · rw [hstateRoot]
      exact hhealthy
  · have hcurrent : c.toCursor cfg = w'.state.cursor := by
      rcases hreads with hread | hnew
      · exact hread
      · exfalso
        apply hprofile
        rw [hnew.1]
        intro t b hb
        cases hb
    obtain ⟨u, hu⟩ : ∃ u, quickVerify C cfg core w'.state (listing w'.state) = .error u := by
      cases hq : quickVerify C cfg core w'.state (listing w'.state) with
      | ok r => exact absurd (hquick.mp hq) hprofile
      | error u => exact ⟨u, rfl⟩
    rw [hu] at hrun
    refine ⟨w', rfl, ?_, Or.inr ⟨hprofile, ⟨_, hrun⟩, ?_⟩⟩
    · apply hholds w'.db hdb
      rw [Db.readCursor, hrow]
      exact hcurrent
    · rw [hrow, ← hcurrent, ← hrebuilding]
      rfl

end Rebuild

/-- A node on the chain of the deploy and the mint. -/
def mintedNode : CoreNode := ⟨fun _ => mintedChain, mintedCore.block⟩

/-- Tables of nothing, with a cursor far beyond the chain. -/
def strayWorld : World :=
  ⟨.new sampleCrypto sampleConfig, { Db.empty with cursor := some ⟨9, [], [], false⟩ }, 0, []⟩

theorem reindex_rebuilds_sample : ∃ rows listing w',
    reindexDb sampleCrypto sampleConfig mintedNode mintedCore rows listing strayWorld = .ok () w' ∧
    HoldsChain sampleCrypto sampleConfig mintedChain w'.state w'.db := by
  obtain ⟨σ, _, hσ, -⟩ := sample_reachable
  have hvalid : ValidChain sampleCrypto sampleConfig mintedCore.block mintedCore.best := by
    decide +kernel
  obtain ⟨w', hstate, hholds, hends⟩ := @reindex_rebuilds sampleCrypto sampleConfig mintedNode
    mintedCore _ (fun _ => Classical.choice inferInstance) σ (fun _ => rfl) rfl hvalid hσ.replays
    mintedCore_follows.transactions (fun db => (exists_selection db).choose_spec) strayWorld
  rw [← hstate] at hholds
  rcases hends with hok | hthrown
  · exact ⟨_, _, w', hok.2.1, hholds⟩
  · exact absurd (profileUnseen_of_default hσ.replays (Or.inl rfl)) hthrown.1

end Cove
