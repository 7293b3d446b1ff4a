import Cove.Lib.Machine
import Cove.Lib.Table
import Cove.Market.Finalize

/-! The market service: `packages/cove-market/src/service.ts`. A statement outside a transaction
and a whole transaction are each one write; what a handler read before it stays with the handler.
Signatures, key ownership, readiness and the PSBT builder only ever stop a request, and a stopped
request is one that ends early. -/

namespace Cove

open Checked

/-! The tables. -/

/-- At most one listing with an indexed status offers an outpoint. -/
def SourceUnique (listings : Dict Bytes Listing) : Prop :=
  ∀ k l, listings.get k = some l → l.status.indexed →
    ∀ k' l', listings.get k' = some l' → l'.status.indexed → l.source = l'.source → k = k'

/-- No two fills have one transaction. -/
def TxidUnique (fills : Dict Nat Fill) : Prop :=
  ∀ k f, fills.get k = some f → f.txid ≠ none →
    ∀ k' f', fills.get k' = some f' → f.txid = f'.txid → k = k'

instance : DecidablePred SourceUnique := fun listings => inferInstanceAs
  (Decidable (∀ k l, listings.get k = some l → l.status.indexed →
    ∀ k' l', listings.get k' = some l' → l'.status.indexed → l.source = l'.source → k = k'))

instance : DecidablePred TxidUnique := fun fills => inferInstanceAs
  (Decidable (∀ k f, fills.get k = some f → f.txid ≠ none →
    ∀ k' f', fills.get k' = some f' → f.txid = f'.txid → k = k'))

@[ext] structure MarketRows where
  listings : Dict Bytes Listing
  fills : Dict Nat Fill
  cancellations : List (Bytes × Bytes)
  trades : Dict Bytes MarketTrade
  deriving DecidableEq

/-- The market tables, under their unique indexes. -/
@[ext] structure MarketDb extends MarketRows where
  sources : SourceUnique listings
  txids : TxidUnique fills

def MarketDb.empty : MarketDb where
  listings := ∅
  fills := ∅
  cancellations := []
  trades := ∅
  sources := by
    intro k l h
    cases h
  txids := by
    intro k f h
    cases h

/-- A write that would break a unique index fails and leaves nothing behind. -/
def MarketRows.commit (rows : MarketRows) : Except Fault MarketDb :=
  if hs : SourceUnique rows.listings then
    if ht : TxidUnique rows.fills then .ok ⟨rows, hs, ht⟩
    else .error (marketFault "23505" "cove_v3_market_fills_txid_uq")
  else .error (marketFault "23505" "cove_v3_market_listings_source_active_uq")

theorem commit_eq_ok {rows : MarketRows} {db : MarketDb} (h : rows.commit = .ok db) :
    db.toMarketRows = rows := by
  unfold MarketRows.commit at h
  split at h
  · split at h
    · rw [← Except.ok.inj h]
    · cases h
  · cases h

def Listing.set (s : ListingStatus) (l : Listing) : Listing := { l with status := s }

def Fill.set (s : FillStatus) (f : Fill) : Fill := { f with status := s }

@[simp] theorem Listing.set_status (s : ListingStatus) (l : Listing) : (l.set s).status = s := rfl

@[simp] theorem Fill.set_status (s : FillStatus) (f : Fill) : (f.set s).status = s := rfl

namespace MarketRows

def setListing (rows : MarketRows) (listingId : Bytes) (s : ListingStatus) : MarketRows :=
  { rows with listings := Table.update rows.listings listingId (Listing.set s) }

def setFill (rows : MarketRows) (fillId : Nat) (f : Fill → Fill) : MarketRows :=
  { rows with fills := Table.update rows.fills fillId f }

end MarketRows

/-! What the node, the indexer's tables and the clock say. -/

structure ChainView where
  tip : Int
  now : Nat
  indexer : Db
  /-- `gettxout`, which counts the mempool's spends. -/
  txouts : Dict OutPoint TxOut
  /-- The transactions `getrawtransaction` finds. -/
  transactions : List Bytes

def sourceUtxoRow (c : ChainView) (o : OutPoint) : Option UtxoRow := c.indexer.tokenUtxos.get o

/-- The value of the seller's carrier, still unspent for the indexer and the node. -/
def resolveSource (c : ChainView) (listing : ListingV1) : Except Fault Int := do
  let bad := marketFault "LISTING_BAD_SOURCE" "source token UTXO not canonical/unspent"
  let row ← demand (sourceUtxoRow c listing.source) bad
  ensure (row.tokenId = listing.tokenId ∧ row.scriptPubKey = listing.sellerTokenScript ∧
    row.spentByTxid = none) bad
  ensure (row.amountAtoms = listing.sourceAmountAtoms)
    (marketFault "LISTING_SOURCE_MISMATCH" "source amount mismatch vs indexer")
  let txout ← demand (c.txouts.get listing.source)
    (marketFault "LISTING_SOURCE_SPENT" "source outpoint already spent")
  ensure (txout.script = listing.sellerTokenScript)
    (marketFault "LISTING_SOURCE_MISMATCH" "source script mismatch vs Core")
  return txout.value

def FillStatus.text : FillStatus → String
  | reserved => "RESERVED"
  | psbtBuilt => "PSBT_BUILT"
  | buyerSigned => "BUYER_SIGNED"
  | sellerSigned => "SELLER_SIGNED"
  | broadcast => "BROADCAST"
  | confirmed => "CONFIRMED"
  | reorged => "REORGED"
  | failed => "FAILED"
  | expired => "EXPIRED"
  | cancelled => "CANCELLED"

def ListingStatus.text : ListingStatus → String
  | active => "ACTIVE"
  | reserved => "RESERVED"
  | broadcast => "BROADCAST"
  | filled => "FILLED"
  | cancelled => "CANCELLED"
  | expired => "EXPIRED"
  | invalidated => "INVALIDATED"
  | reorged => "REORGED"

def stateChanged (detail : String) : Fault := marketFault "STATE_CHANGED" detail

def marketFeeFor (cfg : MarketConfig) (totalPriceSats : Int) : Except Fault Int :=
  deterministicFee totalPriceSats cfg.p2pFeeBps 0 cfg.p2pFeeMinSats

structure ReserveListingInput where
  listingId : Bytes
  buyerTokenScript : Bytes
  buyerChangeScript : Bytes
  buyerFundInputs : List BuyerFundInput
  deriving DecidableEq, Repr

/-! The writes. -/

inductive Write
  | createListing (listingId : Bytes) (input : ListingV1)
  | cancelListing (listingId cancelHash : Bytes)
  | reserveListing (fillId : Nat) (input : ReserveListingInput) (tip : Int) (startedAt : Nat)
  | buildFillPsbt (fillId : Nat) (psbt : Bytes) (minerFeeSats extraCarrierSats marketFeeSats : Int)
  | submitBuyerSignedPsbt (fillId : Nat) (psbt : Bytes)
  | submitSellerSignedPsbt (fillId : Nat) (psbt : Bytes)
  | finalizeP2PFill (fillId : Nat) (txid : Bytes)
  | broadcastP2PFill (validated : ValidatedP2PFill)
  | promoteFill (fillId : Nat) (fill : Fill) (listing : ListingV1) (utxo : UtxoRow) (tip : Int)
  | reorgFill (fillId : Nat) (fill : Fill)
  | invalidateListing (listingId : Bytes)
  | reactivateListing (listingId : Bytes)
  | rependFill (listingId txid : Bytes)
  | expireFill (fillId : Nat) (listingId : Bytes)
  | expireListing (listingId : Bytes)
  deriving DecidableEq

def createListing (listingId : Bytes) (input : ListingV1) (db : MarketDb) :
    Except Fault MarketDb := do
  ensure (db.listings.get listingId = none) (stateChanged "listingId already exists")
  { db.toMarketRows with listings := db.listings.set listingId ⟨input, .active⟩ }.commit

def cancelListing (listingId cancelHash : Bytes) (db : MarketDb) : Except Fault MarketDb := do
  let row ← demand (db.listings.get listingId) (stateChanged "listing not found")
  ensure (row.status ≠ .filled ∧ row.status ≠ .cancelled)
    (marketFault "LISTING_CANCELLED" s!"cannot cancel {row.status.text} listing")
  ensure ((listingId, cancelHash) ∉ db.cancellations)
    (marketFault "23505" "cove_v3_market_cancellations_hash_uq")
  { db.toMarketRows.setListing listingId .cancelled with
    cancellations := (listingId, cancelHash) :: db.cancellations
    fills := Table.updateWhere db.fills
      (fun f => f.listingId = listingId ∧ f.status.awaiting) (Fill.set .cancelled) }.commit

/-- The row a reservation inserts. -/
def ReserveListingInput.fill (input : ReserveListingInput) (row : Listing) (marketFee : Int)
    (expiresAt startedAt : Nat) : Fill where
  listingId := input.listingId
  buyerTokenScript := input.buyerTokenScript
  buyerChangeScript := input.buyerChangeScript
  buyerFundInputs := input.buyerFundInputs
  amountAtoms := row.amountAtoms
  totalPriceSats := row.totalPriceSats
  marketFeeSats := marketFee
  extraCarrierSats := 0
  minerFeeSats := 0
  psbt := none
  status := .reserved
  txid := none
  reservationExpiresAt := some expiresAt
  createdAt := startedAt

/-- The write of an expired listing's status is undone by the throw after it. -/
def reserveListing (cfg : MarketConfig) (c : ChainView) (fillId : Nat) (input : ReserveListingInput)
    (tip : Int) (startedAt : Nat) (db : MarketDb) : Except Fault MarketDb := do
  let row ← demand (db.listings.get input.listingId) (stateChanged "listing not found")
  ensure (row.status = .active) (marketFault "LISTING_RESERVED" s!"listing is {row.status.text}")
  ensure (tip < row.expiryHeight) (marketFault "LISTING_EXPIRED" "listing expired")
  let _ ← resolveSource c row.toListingV1
  let marketFee ← marketFeeFor cfg row.totalPriceSats
  let fill := input.fill row marketFee (c.now + cfg.reservationTtlSeconds * 1000) startedAt
  let fills ← Table.insert db.fills fillId fill
  { db.toMarketRows.setListing input.listingId .reserved with fills }.commit

def broadcastP2PFill (validated : ValidatedP2PFill) (db : MarketDb) : Except Fault MarketDb :=
  ((db.toMarketRows.setFill validated.fillId
    fun f => { f with status := .broadcast, txid := some validated.txid }).setListing
      validated.listingId .broadcast).commit

def tradeOf (fillId : Nat) (fill : Fill) (listing : ListingV1) (blockHeight : Int)
    (blockHash : Option Bytes) : MarketTrade where
  tokenId := listing.tokenId
  listingId := fill.listingId
  fillId := fillId
  sellerTokenScript := listing.sellerTokenScript
  buyerTokenScript := fill.buyerTokenScript
  amountAtoms := fill.amountAtoms
  totalPriceSats := fill.totalPriceSats
  marketFeeSats := fill.marketFeeSats
  minerFeeSats := fill.minerFeeSats
  blockHeight := blockHeight
  blockHash := blockHash
  canonical := true

/-- A trade that is recorded already becomes canonical again, at its new height. -/
def ensureTrade (trades : Dict Bytes MarketTrade) (fillId : Nat) (fill : Fill) (listing : ListingV1)
    (blockHeight : Int) (blockHash : Option Bytes) : Except Fault (Dict Bytes MarketTrade) := do
  let txid ← demand fill.txid (marketFault "23502" "null value in column txid")
  return Table.upsert trades txid (tradeOf fillId fill listing blockHeight blockHash)
    fun t => { t with canonical := true, blockHeight, blockHash }

/-- Pass (A): the fill's transaction is confirmed. -/
def promoteFill (fillId : Nat) (fill : Fill) (listing : ListingV1) (utxo : UtxoRow) (tip : Int)
    (db : MarketDb) : Except Fault MarketDb := do
  let trades ← ensureTrade db.trades fillId fill listing
    (utxo.spentHeight.elim tip fun h => (h : Int)) utxo.spentBlockHash
  { (db.toMarketRows.setFill fillId (Fill.set .confirmed)).setListing fill.listingId .filled with
    trades }.commit

/-- Pass (B): the fill's transaction is no longer the confirmed spender. -/
def reorgFill (fillId : Nat) (fill : Fill) (db : MarketDb) : Except Fault MarketDb :=
  { (db.toMarketRows.setFill fillId (Fill.set .reorged)).setListing fill.listingId .reorged with
    trades := fill.txid.elim db.trades fun txid =>
      Table.update db.trades txid fun t => { t with canonical := false } }.commit

def invalidateListing (listingId : Bytes) (db : MarketDb) : Except Fault MarketDb :=
  { db.toMarketRows.setListing listingId .invalidated with
    fills := Table.updateWhere db.fills (fun f => f.listingId = listingId ∧ f.status.live)
      (Fill.set .failed) }.commit

/-- Pass (C): the fill is in the mempool again after a reorg. -/
def rependFill (listingId txid : Bytes) (db : MarketDb) : Except Fault MarketDb :=
  { db.toMarketRows.setListing listingId .broadcast with
    fills := Table.updateWhere db.fills (fun f => f.listingId = listingId ∧ f.txid = some txid)
      (Fill.set .broadcast) }.commit

/-- Passes (C2) and (D): the fill is given up, and its listing released if it is reserved. -/
def expireFill (fillId : Nat) (listingId : Bytes) (db : MarketDb) : Except Fault MarketDb :=
  { db.toMarketRows.setFill fillId (Fill.set .expired) with
    listings := Table.update db.listings listingId
      fun l => if l.status = ListingStatus.reserved then l.set .active else l }.commit

def Write.run (cfg : MarketConfig) (c : ChainView) : Write → MarketDb → Except Fault MarketDb
  | .createListing listingId input, db => Cove.createListing listingId input db
  | .cancelListing listingId cancelHash, db => Cove.cancelListing listingId cancelHash db
  | .reserveListing fillId input tip startedAt, db =>
    Cove.reserveListing cfg c fillId input tip startedAt db
  | .buildFillPsbt fillId psbt minerFeeSats extraCarrierSats marketFeeSats, db =>
    (db.toMarketRows.setFill fillId fun f =>
      { f with psbt := some psbt, minerFeeSats, extraCarrierSats, marketFeeSats,
               status := .psbtBuilt }).commit
  | .submitBuyerSignedPsbt fillId psbt, db =>
    (db.toMarketRows.setFill fillId fun f =>
      { f with psbt := some psbt, status := .buyerSigned,
               reservationExpiresAt := some (c.now + cfg.sellerSignTtlSeconds * 1000) }).commit
  | .submitSellerSignedPsbt fillId psbt, db =>
    (db.toMarketRows.setFill fillId fun f =>
      { f with psbt := some psbt, status := .sellerSigned }).commit
  | .finalizeP2PFill fillId txid, db =>
    (db.toMarketRows.setFill fillId fun f => { f with txid := some txid }).commit
  | .broadcastP2PFill validated, db => Cove.broadcastP2PFill validated db
  | .promoteFill fillId fill listing utxo tip, db =>
    Cove.promoteFill fillId fill listing utxo tip db
  | .reorgFill fillId fill, db => Cove.reorgFill fillId fill db
  | .invalidateListing listingId, db => Cove.invalidateListing listingId db
  | .reactivateListing listingId, db => (db.toMarketRows.setListing listingId .active).commit
  | .rependFill listingId txid, db => Cove.rependFill listingId txid db
  | .expireFill fillId listingId, db => Cove.expireFill fillId listingId db
  | .expireListing listingId, db => (db.toMarketRows.setListing listingId .expired).commit

end Cove
