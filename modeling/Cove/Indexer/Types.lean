import Cove.Covenant.State
import Cove.Lib.Dict
import Cove.Vault.BackingVault

/-! The records of the V3 indexer: `packages/cove-indexer/src/v3/types.ts`. -/

namespace Cove

inductive Network
  | regtest
  | signet
  | testnet
  | mainnet
  deriving DecidableEq, Repr

@[ext] structure V3TokenMeta where
  tokenId : Bytes
  ticker : Bytes
  policyVersion : Nat
  tokenNonce : Bytes
  deployTxid : Bytes
  deployHeight : Nat
  deployBlockHash : Bytes
  creatorScript : Bytes
  deriving DecidableEq, Repr

@[ext] structure V3Backing where
  tokenId : Bytes
  state : CoveStateV2
  stateHash : Bytes
  outpoint : OutPoint
  scriptPubKey : Bytes
  btcValue : Int
  updatedTxid : Bytes
  updatedHeight : Nat
  updatedBlockHash : Bytes
  deriving DecidableEq, Repr

@[ext] structure V3TokenUtxo where
  txid : Bytes
  vout : Nat
  tokenId : Bytes
  amountAtoms : Int
  scriptPubKey : Bytes
  createdHeight : Nat
  createdBlockHash : Bytes
  deriving DecidableEq, Repr

/-- `outpointKey(u.txid, u.vout)`: the key a carrier is stored under. -/
def V3TokenUtxo.outpoint (u : V3TokenUtxo) : OutPoint := ⟨u.txid, u.vout⟩

/-- A carrier beside its key. -/
def V3TokenUtxo.entry (u : V3TokenUtxo) : OutPoint × V3TokenUtxo := (u.outpoint, u)

inductive V3Operation
  | deploy
  | mint
  | transfer
  | redeem
  deriving DecidableEq, Repr

structure V3CurveTrade where
  amountAtoms : Int
  grossSats : Int
  protocolFeeSats : Int
  supplyAfterAtoms : Int
  backingAfterSats : Int
  deriving DecidableEq, Repr

structure V3Event where
  txid : Bytes
  blockHeight : Nat
  blockHash : Bytes
  txIndex : Nat
  operation : Option V3Operation
  valid : Bool
  reason : Option String
  tokenId : Option Bytes
  curve : Option V3CurveTrade
  deriving DecidableEq, Repr

structure V3Cursor where
  network : Network
  height : Nat
  blockHash : Bytes
  stateRoot : Bytes
  deriving DecidableEq, Repr

/-- A block handed to the indexer. Its transactions stand as `fromHex` parses them. -/
structure V3BlockInput where
  height : Nat
  hash : Bytes
  parentHash : Bytes
  txs : List Transaction
  deriving DecidableEq, Repr

structure V3IndexerConfig where
  network : Network
  chainIdentity : Bytes
  guardianXOnly : Bytes
  recoveryKeyXOnly : Bytes
  recoveryProfile : Option VaultRecoveryProfile
  feeScript : Bytes
  genesisHeight : Nat
  buyFeeBps : Option Int
  buyFeeFlatSats : Option Int
  creatorFeeBps : Option Int
  redeemFeeBps : Option Int
  redeemFeeFlatSats : Option Int
  deriving DecidableEq, Repr

def V3IndexerConfig.vaultKeys (cfg : V3IndexerConfig) : VaultKeys where
  guardianXOnly := cfg.guardianXOnly
  recoveryKeyXOnly := cfg.recoveryKeyXOnly
  recoveryProfile := cfg.recoveryProfile

/-- An inverse operation of the undo journal. A burn holds the carriers that were
spent without being validly moved. -/
inductive UndoOp
  | deploy (tokenId : Bytes)
  | mint (tokenId : Bytes) (priorBacking : V3Backing) (createdUtxo : V3TokenUtxo)
  | redeem (tokenId spendingTxid : Bytes) (priorBacking : V3Backing)
      (spentUtxos createdUtxos : List V3TokenUtxo)
  | transfer (spendingTxid : Bytes) (spentUtxos createdUtxos : List V3TokenUtxo)
  | burn (spendingTxid : Bytes) (spentUtxos : List V3TokenUtxo)
  deriving DecidableEq, Repr

structure BlockUndo where
  height : Nat
  blockHash : Bytes
  ops : List UndoOp
  deriving DecidableEq, Repr

/-- The three maps the indexer derives from the chain. -/
@[ext] structure Ledger where
  tokens : Dict Bytes V3TokenMeta
  backing : Dict Bytes V3Backing
  tokenUtxos : Dict OutPoint V3TokenUtxo
  deriving DecidableEq

/-- `V3IndexerState`, its configuration apart. Maps are compared as maps, so a
deep clone and its adoption leave no trace. -/
@[ext] structure V3IndexerState extends Ledger where
  events : List V3Event
  undoByHeight : Dict Nat BlockUndo
  cursor : V3Cursor
  deriving DecidableEq

end Cove
