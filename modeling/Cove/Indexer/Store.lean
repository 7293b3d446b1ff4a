import Cove.Indexer.State
import Cove.Indexer.UndoJson
import Cove.Lib.Table

/-! The database projection of one network: `packages/cove-indexer/src/v3/store.ts` over the
`cove_v3_*` tables of `packages/db/src/schema.ts`. -/

namespace Cove

open Checked

structure BlockRow where
  hash : Bytes
  parentHash : Bytes
  deriving DecidableEq, Repr

structure TokenRow where
  ticker : Bytes
  policyVersion : Nat
  nonce : Bytes
  deployTxid : Bytes
  deployHeight : Nat
  deployBlockHash : Bytes
  creatorScript : Bytes
  deriving DecidableEq, Repr

structure BackingRow where
  stateHash : Bytes
  stateVersion : Nat
  policyVersion : Nat
  issuedSupplyAtoms : Int
  backingSats : Int
  curveStage : Nat
  txid : Bytes
  vout : Nat
  scriptPubKey : Bytes
  btcValue : Int
  blockHeight : Nat
  blockHash : Bytes
  deriving DecidableEq, Repr

structure UtxoRow where
  tokenId : Bytes
  amountAtoms : Int
  scriptPubKey : Bytes
  createdHeight : Nat
  createdBlockHash : Bytes
  spentByTxid : Option Bytes
  spentHeight : Option Nat
  spentBlockHash : Option Bytes
  burned : Bool
  deriving DecidableEq, Repr

structure EventRow where
  blockHeight : Nat
  blockHash : Bytes
  txIndex : Nat
  operation : Option V3Operation
  valid : Bool
  reason : Option String
  tokenId : Option Bytes
  amountAtoms : Option Int
  grossSats : Option Int
  feeSats : Option Int
  supplyAfterAtoms : Option Int
  backingAfterSats : Option Int
  deriving DecidableEq, Repr

structure UndoRow where
  blockHash : Bytes
  undoJson : Bytes
  deriving DecidableEq, Repr

structure CursorRow where
  height : Nat
  blockHash : Bytes
  stateRoot : Bytes
  rebuilding : Bool
  deriving DecidableEq, Repr

/-- The tables of one network, each under its unique index. -/
@[ext] structure Db where
  blocks : Dict Nat BlockRow
  tokens : Dict Bytes TokenRow
  backingStates : Dict Bytes BackingRow
  tokenUtxos : Dict OutPoint UtxoRow
  events : Dict Bytes EventRow
  undo : Dict Nat UndoRow
  cursor : Option CursorRow
  deriving DecidableEq

def Db.empty : Db := ⟨∅, ∅, ∅, ∅, ∅, ∅, none⟩

/-! Records as rows. -/

def tokenRow (t : V3TokenMeta) : TokenRow where
  ticker := t.ticker
  policyVersion := t.policyVersion
  nonce := t.tokenNonce
  deployTxid := t.deployTxid
  deployHeight := t.deployHeight
  deployBlockHash := t.deployBlockHash
  creatorScript := t.creatorScript

def backingRow (b : V3Backing) : BackingRow where
  stateHash := b.stateHash
  stateVersion := b.state.stateVersion
  policyVersion := b.state.policyVersion
  issuedSupplyAtoms := b.state.issuedPublicSupplyAtoms
  backingSats := b.state.backingSats
  curveStage := b.state.curveStage
  txid := b.outpoint.txid
  vout := b.outpoint.vout
  scriptPubKey := b.scriptPubKey
  btcValue := b.btcValue
  blockHeight := b.updatedHeight
  blockHash := b.updatedBlockHash

/-- A new row is unspent, and `burned` has its default. -/
def utxoRow (u : V3TokenUtxo) : UtxoRow where
  tokenId := u.tokenId
  amountAtoms := u.amountAtoms
  scriptPubKey := u.scriptPubKey
  createdHeight := u.createdHeight
  createdBlockHash := u.createdBlockHash
  spentByTxid := none
  spentHeight := none
  spentBlockHash := none
  burned := false

def utxoEntry (u : V3TokenUtxo) : OutPoint × UtxoRow := (u.outpoint, utxoRow u)

def eventRow (e : V3Event) : EventRow where
  blockHeight := e.blockHeight
  blockHash := e.blockHash
  txIndex := e.txIndex
  operation := e.operation
  valid := e.valid
  reason := e.reason
  tokenId := e.tokenId
  amountAtoms := e.curve.map V3CurveTrade.amountAtoms
  grossSats := e.curve.map V3CurveTrade.grossSats
  feeSats := e.curve.map V3CurveTrade.protocolFeeSats
  supplyAfterAtoms := e.curve.map V3CurveTrade.supplyAfterAtoms
  backingAfterSats := e.curve.map V3CurveTrade.backingAfterSats

def undoRow (undo : BlockUndo) : UndoRow := ⟨undo.blockHash, encodeUndo undo⟩

/-- Every column `backingSet` writes is one `backingRow` has, so a conflict replaces the row. -/
def Db.upsertBacking (db : Db) (b : V3Backing) : Db :=
  { db with
    backingStates := Table.upsert db.backingStates b.tokenId (backingRow b) fun _ => backingRow b }

/-! The deltas of a block. -/

/-- What an `UPDATE` of a spent carrier sets. -/
def UtxoRow.spend (txid : Bytes) (block : V3BlockInput) (r : UtxoRow) : UtxoRow :=
  { r with
    spentByTxid := some txid
    spentHeight := some block.height
    spentBlockHash := some block.hash }

def UtxoRow.burn (txid : Bytes) (block : V3BlockInput) (r : UtxoRow) : UtxoRow :=
  { r.spend txid block with burned := true }

def UtxoRow.unspend (r : UtxoRow) : UtxoRow :=
  { r with spentByTxid := none, spentHeight := none, spentBlockHash := none }

def UtxoRow.unburn (r : UtxoRow) : UtxoRow := { r.unspend with burned := false }

/-- The throw of a member access on a lookup that found nothing. -/
def undefinedFault (member : String) : Fault :=
  ⟨none, s!"Cannot read properties of undefined (reading {member})"⟩

/-- The rows one recorded operation writes. Token and backing rows come from the
state after the whole block. -/
def applyForward (staged : Ledger) (block : V3BlockInput) (db : Db) : UndoOp → Except Fault Db
  | .deploy tokenId => do
    let tokenMeta ← demand (staged.tokens.get tokenId) (undefinedFault "ticker")
    let tokens ← Table.insert db.tokens tokenId (tokenRow tokenMeta)
    let backing ← demand (staged.backing.get tokenId) (undefinedFault "tokenId")
    let backingStates ← Table.insert db.backingStates backing.tokenId (backingRow backing)
    return { db with tokens, backingStates }
  | .mint tokenId _ createdUtxo => do
    let backing ← demand (staged.backing.get tokenId) (undefinedFault "tokenId")
    let tokenUtxos ← Table.insert db.tokenUtxos createdUtxo.outpoint (utxoRow createdUtxo)
    return { db.upsertBacking backing with tokenUtxos }
  | .transfer spendingTxid spentUtxos createdUtxos => do
    let spent := Table.updateAll db.tokenUtxos (spentUtxos.map V3TokenUtxo.outpoint)
      (UtxoRow.spend spendingTxid block)
    let tokenUtxos ← Table.insertAll spent (createdUtxos.map utxoEntry)
    return { db with tokenUtxos }
  | .redeem tokenId spendingTxid _ spentUtxos createdUtxos => do
    let backing ← demand (staged.backing.get tokenId) (undefinedFault "tokenId")
    let spent := Table.updateAll db.tokenUtxos (spentUtxos.map V3TokenUtxo.outpoint)
      (UtxoRow.spend spendingTxid block)
    let tokenUtxos ← Table.insertAll spent (createdUtxos.map utxoEntry)
    return { db.upsertBacking backing with tokenUtxos }
  | .burn spendingTxid spentUtxos =>
    .ok { db with
      tokenUtxos := Table.updateAll db.tokenUtxos (spentUtxos.map V3TokenUtxo.outpoint)
        (UtxoRow.burn spendingTxid block) }

def applyForwardAll (staged : Ledger) (block : V3BlockInput) :
    List UndoOp → Db → Except Fault Db
  | [], db => .ok db
  | op :: ops, db => do
    let db ← applyForward staged block db op
    applyForwardAll staged block ops db

/-- Write a block in one transaction: a failed statement leaves the tables as they were. -/
def persistBlock (C : Crypto) (db : Db) (staged : V3IndexerState) (block : V3BlockInput)
    (events : List V3Event) (undo : BlockUndo) (rebuilding : Bool) : Except Fault Db := do
  let blocks ← Table.insert db.blocks block.height ⟨block.hash, block.parentHash⟩
  let events ← Table.insertAll db.events (events.map fun e => (e.txid, eventRow e))
  let undoRows ← Table.insert db.undo block.height ⟨block.hash, encodeUndo undo⟩
  let db ← applyForwardAll staged.toLedger block undo.ops
    { db with blocks, events, undo := undoRows }
  return { db with
    cursor := some ⟨block.height, block.hash, computeStateRoot C staged.toLedger, rebuilding⟩ }

/-- The rows of one recorded operation, taken back. -/
def rollbackOp (db : Db) : UndoOp → Db
  | .deploy tokenId =>
    { db with
      tokens := db.tokens.delete tokenId
      backingStates := db.backingStates.delete tokenId }
  | .mint _ priorBacking createdUtxo =>
    { db.upsertBacking priorBacking with
      tokenUtxos := db.tokenUtxos.delete createdUtxo.outpoint }
  | .transfer _ spentUtxos createdUtxos =>
    { db with
      tokenUtxos := Table.upsertAll
        (db.tokenUtxos.deleteAll (createdUtxos.map V3TokenUtxo.outpoint))
        (spentUtxos.map utxoEntry) UtxoRow.unspend }
  | .redeem _ _ priorBacking spentUtxos createdUtxos =>
    { db.upsertBacking priorBacking with
      tokenUtxos := Table.upsertAll
        (db.tokenUtxos.deleteAll (createdUtxos.map V3TokenUtxo.outpoint))
        (spentUtxos.map utxoEntry) UtxoRow.unspend }
  | .burn _ spentUtxos =>
    { db with
      tokenUtxos := Table.upsertAll db.tokenUtxos (spentUtxos.map utxoEntry) UtxoRow.unburn }

/-- Take a block's rows back and move the cursor to the block before it. -/
def rollback (db : Db) (undo : BlockUndo) (newCursor : V3Cursor) : Db :=
  let db := undo.ops.reverse.foldl rollbackOp db
  { db with
    undo := db.undo.delete undo.height
    blocks := db.blocks.delete undo.height
    events := Table.deleteWhere db.events fun e => e.blockHeight = undo.height
    cursor := some ⟨newCursor.height, newCursor.blockHash, newCursor.stateRoot,
      (db.cursor.map CursorRow.rebuilding).getD false⟩ }

end Cove
