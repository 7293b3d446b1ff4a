import Cove.Indexer.Projection
import Cove.Lib.Hoare

/-! The persistent indexing loop and the persistent reorg: `packages/cove-indexer/src/v3/persistent.ts`,
with the tick of `apps/worker/src/v3.ts` that drives them. -/

namespace Cove

open Checked

/-- A block as `getBlock` returns it. -/
structure CoreBlock where
  hash : Bytes
  previousBlockHash : Bytes
  rawTxs : List Transaction
  deriving DecidableEq, Repr

/-- Bitcoin Core as the worker sees it: the best chain, from block 0, at the time of each call, and
the block behind a hash, on whatever branch it lies. -/
structure CoreNode where
  best : Nat → List CoreBlock
  block : Bytes → Option CoreBlock

/-- Bitcoin Core over a run: the best chain at each call of each tick. -/
structure CoreHistory where
  best : Nat → Nat → List CoreBlock
  block : Bytes → Option CoreBlock

def CoreHistory.node (core : CoreHistory) (n : Nat) : CoreNode := ⟨core.best n, core.block⟩

/-- The worker's memory and its database. The calls made in this tick and the blocks applied so
far, each with the cursor it was applied at, are kept to speak about runs. -/
structure World where
  state : V3IndexerState
  db : Db
  calls : Nat
  applied : List (V3Cursor × V3BlockInput)

abbrev Worker := EStateM Fault World

def World.call (w : World) : World := { w with calls := w.calls + 1 }

def World.newTick (w : World) : World := { w with calls := 0 }

section Rpc

variable (node : CoreNode)

/-- The height of the tip. -/
def getBlockchainInfo : Worker Nat := fun w => .ok ((node.best w.calls).length - 1) w.call

def getBlockHash (height : Nat) : Worker Bytes := fun w =>
  match (node.best w.calls)[height]? with
  | some b => .ok b.hash w.call
  | none => .error ⟨some "-8", "Block height out of range"⟩ w.call

def getBlock (hash : Bytes) : Worker CoreBlock := fun w =>
  match node.block hash with
  | some b => .ok b w.call
  | none => .error ⟨some "-5", "Block not found"⟩ w.call

end Rpc

def indexerState : Worker V3IndexerState := fun w => .ok w.state w

variable (C : Crypto) (cfg : V3IndexerConfig) (node : CoreNode)

def inputAt (h : Nat) (block : CoreBlock) : V3BlockInput :=
  ⟨h, block.hash, block.previousBlockHash, block.rawTxs⟩

/-- Apply a block to a clone, persist it, and adopt the clone once the transaction committed. -/
def stageBlock (input : V3BlockInput) (rebuilding : Bool) : Worker Unit := fun w =>
  match applyBlock C cfg w.state input with
  | .error f => .error f w
  | .ok (staged, _) =>
    match staged.undoByHeight.get input.height with
    | none => .error (undefinedFault "ops") w
    | some undo =>
      let events := staged.events.filter fun e => e.blockHeight = input.height
      match persistBlock C w.db staged input events undo rebuilding with
      | .error f => .error f w
      | .ok db =>
        .ok () { w with state := staged, db, applied := w.applied ++ [(w.state.cursor, input)] }

section

variable {C cfg} {input : V3BlockInput} {rebuilding : Bool} {w : World}

theorem stageBlock_of_ok {staged : V3IndexerState} {events : List V3Event} {undo : BlockUndo}
    {db : Db} (ha : applyBlock C cfg w.state input = .ok (staged, events))
    (hu : staged.undoByHeight.get input.height = some undo)
    (hp : persistBlock C w.db staged input
      (staged.events.filter fun e => e.blockHeight = input.height) undo rebuilding = .ok db) :
    stageBlock C cfg input rebuilding w = .ok () { w with
      state := staged, db, applied := w.applied ++ [(w.state.cursor, input)] } := by
  simp only [stageBlock, ha, hu, hp]

/-- A block is adopted with everything it wrote, or nothing has changed. -/
theorem stageBlock_cases (C : Crypto) (cfg : V3IndexerConfig) (input : V3BlockInput)
    (rebuilding : Bool) (w : World) :
    (∃ f, stageBlock C cfg input rebuilding w = .error f w) ∨
    ∃ staged events undo db, applyBlock C cfg w.state input = .ok (staged, events) ∧
      staged.undoByHeight.get input.height = some undo ∧
      persistBlock C w.db staged input
        (staged.events.filter fun e => e.blockHeight = input.height) undo rebuilding = .ok db ∧
      stageBlock C cfg input rebuilding w = .ok () { w with
        state := staged, db, applied := w.applied ++ [(w.state.cursor, input)] } := by
  cases ha : applyBlock C cfg w.state input with
  | error f => exact Or.inl ⟨f, by simp only [stageBlock, ha]⟩
  | ok p =>
    obtain ⟨staged, events⟩ := p
    cases hu : staged.undoByHeight.get input.height with
    | none => exact Or.inl ⟨undefinedFault "ops", by simp only [stageBlock, ha, hu]⟩
    | some undo =>
      cases hp : persistBlock C w.db staged input
          (staged.events.filter fun e => e.blockHeight = input.height) undo rebuilding with
      | error f => exact Or.inl ⟨f, by simp only [stageBlock, ha, hu, hp]⟩
      | ok db => exact Or.inr ⟨staged, events, undo, db, rfl, hu, hp, stageBlock_of_ok ha hu hp⟩

end

/-- One turn of the loop of `persistentWorker`. -/
def indexBlock (rebuilding : Bool) (h : Nat) : Worker Unit := do
  let hash ← getBlockHash node h
  let state ← indexerState
  if (state.undoByHeight.get h).map BlockUndo.blockHash = some hash then return ()
  let block ← getBlock node hash
  stageBlock C cfg (inputAt h block) rebuilding

def indexBlocks (rebuilding : Bool) : Nat → Nat → Worker Unit
  | _, 0 => pure ()
  | h, n + 1 => do
    indexBlock C cfg node rebuilding h
    indexBlocks rebuilding (h + 1) n

/-- The loop runs from the block after the cursor, never below the activation height. -/
def persistentWorker (rebuilding : Bool) : Worker Unit := do
  let tip ← getBlockchainInfo node
  let state ← indexerState
  let start := max (state.cursor.height + 1) cfg.genesisHeight
  indexBlocks C cfg node rebuilding start (tip + 1 - start)

/-- The walk down to the common ancestor. -/
def findAncestor (floor : Nat) : Nat → Worker Nat
  | 0 => pure 0
  | ancestor + 1 =>
    if ancestor + 1 ≤ floor then pure (ancestor + 1)
    else do
      let coreHash ← getBlockHash node (ancestor + 1)
      let state ← indexerState
      if (state.undoByHeight.get (ancestor + 1)).map BlockUndo.blockHash = some coreHash then
        return ancestor + 1
      findAncestor floor ancestor

/-- Undo one block on a clone, roll the tables back, and adopt the clone. -/
def orphanBlock (h : Nat) : Worker Unit := fun w =>
  match undoBlock C cfg w.state h with
  | .error f => .error f w
  | .ok staged =>
    match w.state.undoByHeight.get h with
    | none => .error (undefinedFault "ops") w
    | some undo => .ok () { w with state := staged, db := rollback w.db undo staged.cursor }

def orphanBlocks (ancestor : Nat) : Nat → Worker Unit
  | 0 => pure ()
  | h + 1 =>
    if ancestor < h + 1 then do
      orphanBlock C cfg (h + 1)
      orphanBlocks ancestor h
    else pure ()

def replayBlock (h : Nat) : Worker Unit := do
  let hash ← getBlockHash node h
  let block ← getBlock node hash
  stageBlock C cfg (inputAt h block) false

def replayBlocks : Nat → Nat → Worker Unit
  | _, 0 => pure ()
  | h, n + 1 => do
    replayBlock C cfg node h
    replayBlocks (h + 1) n

/-- The height below which no block was ever read. -/
def reorgFloor : Nat := cfg.genesisHeight - 1

def reorgPersistentToTip : Worker Unit := do
  let tipHeight ← getBlockchainInfo node
  let state ← indexerState
  let capped := min state.cursor.height tipHeight
  let ancestor ← findAncestor node (reorgFloor cfg) (max capped (reorgFloor cfg))
  orphanBlocks C cfg ancestor state.cursor.height
  replayBlocks C cfg node (ancestor + 1) (tipHeight - ancestor)

/-- The first part of a tick: look for a reorg at the cursor. -/
def checkReorg : Worker Unit := do
  let coreHeight ← getBlockchainInfo node
  let state ← indexerState
  if 0 < state.cursor.height ∧ state.cursor.height ≤ coreHeight then
    let coreHashAtCursor ← getBlockHash node state.cursor.height
    if coreHashAtCursor ≠ state.cursor.blockHash then
      reorgPersistentToTip C cfg node

/-- The indexing part of a tick. -/
def tickBody : Worker Unit := do
  checkReorg C cfg node
  persistentWorker C cfg node false

/-- A tick logs what it catches; the memory and the database stay as they were left. -/
def tick (w : World) : World :=
  match tickBody C cfg node w.newTick with
  | .ok _ w' => w'
  | .error _ w' => w'

def ticks (core : CoreHistory) : Nat → World → World
  | 0, w => w
  | n + 1, w => tick C cfg (core.node n) (ticks core n w)

end Cove
