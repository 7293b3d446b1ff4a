import Cove.Indexer.Store

/-! From the database back to a state: `packages/cove-indexer/src/v3/hydrate.ts`. -/

namespace Cove

open Checked

/-- The rows the queries of `hydrateState` return, in whatever order the database has them. -/
structure Selection where
  tokens : List (Bytes × TokenRow)
  backings : List (Bytes × BackingRow)
  utxos : List (OutPoint × UtxoRow)
  events : List (Bytes × EventRow)
  undos : List (Nat × UndoRow)
  cursor : List CursorRow
  deriving DecidableEq, Repr

/-- The queries answer from the tables. Only unspent carriers are asked for. -/
structure Selects (db : Db) (sel : Selection) : Prop where
  tokens : Table.Lists sel.tokens db.tokens
  backings : Table.Lists sel.backings db.backingStates
  utxos : Table.Lists sel.utxos (db.tokenUtxos.filter fun _ r => r.spentByTxid.isNone)
  events : Table.Lists sel.events db.events
  undos : Table.Lists sel.undos db.undo
  cursor : sel.cursor = db.cursor.toList

def hexName (b : Bytes) : String := String.ofList (b.hexText.map fun c => Char.ofNat c.toNat)

def hydrationFault (msg : String) : Fault := ⟨none, "HYDRATION_FAILED: " ++ msg⟩

/-! Rows as records. -/

def TokenRow.toMeta (tokenId : Bytes) (t : TokenRow) : V3TokenMeta where
  tokenId := tokenId
  ticker := t.ticker
  policyVersion := t.policyVersion
  tokenNonce := t.nonce
  deployTxid := t.deployTxid
  deployHeight := t.deployHeight
  deployBlockHash := t.deployBlockHash
  creatorScript := t.creatorScript

def BackingRow.toState (tokenId : Bytes) (b : BackingRow) : CoveStateV2 where
  stateVersion := b.stateVersion
  policyVersion := b.policyVersion
  tokenId := tokenId
  issuedPublicSupplyAtoms := b.issuedSupplyAtoms
  backingSats := b.backingSats
  curveStage := b.curveStage

/-- The table has no column for the updating transaction: it is the one that made the vault
output. -/
def BackingRow.toBacking (tokenId : Bytes) (b : BackingRow) : V3Backing where
  tokenId := tokenId
  state := b.toState tokenId
  stateHash := b.stateHash
  outpoint := ⟨b.txid, b.vout⟩
  scriptPubKey := b.scriptPubKey
  btcValue := b.btcValue
  updatedTxid := b.txid
  updatedHeight := b.blockHeight
  updatedBlockHash := b.blockHash

def UtxoRow.toUtxo (key : OutPoint) (u : UtxoRow) : V3TokenUtxo where
  txid := key.txid
  vout := key.vout
  tokenId := u.tokenId
  amountAtoms := u.amountAtoms
  scriptPubKey := u.scriptPubKey
  createdHeight := u.createdHeight
  createdBlockHash := u.createdBlockHash

/-- An event as it is read back. The trade figures stay in the table. -/
def EventRow.toEvent (txid : Bytes) (e : EventRow) : V3Event where
  txid := txid
  blockHeight := e.blockHeight
  blockHash := e.blockHash
  txIndex := e.txIndex
  operation := e.operation
  valid := e.valid
  reason := e.reason
  tokenId := e.tokenId
  curve := none

/-! The loops of `hydrateState`. -/

def hydrateToken (tokens : Dict Bytes V3TokenMeta) (tokenId : Bytes) (t : TokenRow) :
    Except Fault V3TokenMeta := do
  ensure (tokens.has tokenId = false) (hydrationFault ("duplicate tokenId " ++ hexName tokenId))
  return t.toMeta tokenId

def hydrateBacking (tokens : Dict Bytes V3TokenMeta) (backing : Dict Bytes V3Backing)
    (tokenId : Bytes) (b : BackingRow) : Except Fault V3Backing := do
  ensure (tokens.has tokenId) (hydrationFault ("backing without token " ++ hexName tokenId))
  (validateStateV2 (b.toState tokenId)).mapError fun e =>
    hydrationFault ("backing R(s) mismatch for " ++ hexName tokenId ++ ": " ++ e.message)
  ensure (backing.has tokenId = false) (hydrationFault ("duplicate backing " ++ hexName tokenId))
  return b.toBacking tokenId

def checkBacked (backing : Dict Bytes V3Backing) : List (Bytes × TokenRow) → Except Fault Unit
  | [] => .ok ()
  | (tokenId, _) :: rows => do
    ensure (backing.has tokenId)
      (hydrationFault ("missing backing for token " ++ hexName tokenId))
    checkBacked backing rows

def hydrateUtxo (tokens : Dict Bytes V3TokenMeta) (utxos : Dict OutPoint V3TokenUtxo)
    (key : OutPoint) (u : UtxoRow) : Except Fault V3TokenUtxo := do
  ensure (utxos.has key = false)
    (hydrationFault ("duplicate outpoint " ++ hexName key.txid ++ ":" ++ toString key.vout))
  ensure (tokens.has u.tokenId) (hydrationFault ("utxo for unknown token " ++ hexName u.tokenId))
  return u.toUtxo key

/-- A decoded record is stored under its own height. -/
def hydrateUndos : List (Nat × UndoRow) → Dict Nat BlockUndo → Except Fault (Dict Nat BlockUndo)
  | [], m => .ok m
  | (_, u) :: rows, m => do
    let decoded ← decodeUndo u.undoJson
    hydrateUndos rows (m.set decoded.height decoded)

def hydrateCursor (cfg : V3IndexerConfig) (initial : V3Cursor) :
    List CursorRow → Except Fault V3Cursor
  | [] => .ok initial
  | [c] => do
    ensure (c.blockHash.length = 32 ∨ c.height = 0) (hydrationFault "malformed cursor blockHash")
    return ⟨cfg.network, c.height, c.blockHash, c.stateRoot⟩
  | _ => .error (hydrationFault "multiple cursors")

def hydrateState (C : Crypto) (cfg : V3IndexerConfig) (sel : Selection) :
    Except Fault V3IndexerState := do
  let tokens ← Table.load hydrateToken sel.tokens ∅
  let backing ← Table.load (hydrateBacking tokens) sel.backings ∅
  checkBacked backing sel.tokens
  let tokenUtxos ← Table.load (hydrateUtxo tokens) sel.utxos ∅
  let undoByHeight ← hydrateUndos sel.undos ∅
  let cursor ← hydrateCursor cfg (V3IndexerState.new C cfg).cursor sel.cursor
  return {
    tokens, backing, tokenUtxos, undoByHeight, cursor
    events := sel.events.map fun e => e.2.toEvent e.1 }

end Cove
