import Cove.Market.Service

/-! The handlers of the market as tasks that run side by side: between two statements of one,
any statement of another can run, the chain can move and the task can stop. -/

namespace Cove

open Checked

/-- The height and the time `reconcileMarket` reads once, at its start. -/
structure Clock where
  tip : Int
  now : Nat
  deriving DecidableEq, Repr

/-- What the PSBT builder returned, and the fee it was asked for. -/
structure BuiltFill where
  psbt : Bytes
  minerFeeSats : Int
  settledMinerFeeSats : Int
  deriving DecidableEq, Repr

/-- Where a handler is, with the rows it has read. -/
inductive Task
  | done
  | write (w : Write) (next : Task)
  | build (fillId : Nat) (fill : Fill) (built : BuiltFill)
  | countersign (fillId : Nat) (fill : Fill) (psbt : Bytes)
  | validate (fillId : Nat) (fill : Fill)
  | validated (validated : ValidatedP2PFill)
  | reconcile (clock : Clock)
  | promote (clock : Clock) (fills : List (Nat × Fill))
  | reorg (clock : Clock) (fills : List (Nat × Fill))
  | survey (clock : Clock) (listings : List (Bytes × Listing))
  | surveySpent (clock : Clock) (listingId spentByTxid : Bytes) (rest : List (Bytes × Listing))
  | surveyTxout (clock : Clock) (listingId : Bytes) (listing : Listing)
      (rest : List (Bytes × Listing))
  | surveyLatest (clock : Clock) (listingId : Bytes) (listing : Listing)
      (rest : List (Bytes × Listing))
  | surveyMempool (clock : Clock) (listingId : Bytes) (listing : Listing) (ourTxid : Option Bytes)
      (rest : List (Bytes × Listing))
  | sweep (clock : Clock) (fills : List (Nat × Fill))
  | sweepFunds (clock : Clock) (fillId : Nat) (fill : Fill) (inputs : List BuyerFundInput)
      (rest : List (Nat × Fill))
  | expireListings (clock : Clock) (listings : List (Bytes × Listing))
  | expireFills (clock : Clock) (fills : List (Nat × Fill))
  deriving DecidableEq

/-- The service's configuration, and the node library that finalizes and extracts a PSBT. -/
structure MarketEnv where
  crypto : Crypto
  config : MarketConfig
  extract : Bytes → Option Transaction

/-- The order the database returns rows in. -/
structure RowOrder where
  listings : List Bytes
  fills : List Nat
  deriving DecidableEq, Repr

def selectRows {K R : Type} [DecidableEq K] (order : List K) (t : Dict K R) (p : R → Bool) :
    Except Fault (List (K × R)) :=
  demand (Table.select order t p) (stateChanged "rows in no order")

/-! The reads of `reconcileMarket`. -/

/-- The source's row, when the transaction is its confirmed spender. Every row of the indexer is
canonical. -/
def spentBy (c : ChainView) (listing : ListingV1) (txid : Option Bytes) : Option UtxoRow :=
  (sourceUtxoRow c listing.source).filter (·.spentByTxid = txid)

def listingFillTxid (db : MarketDb) (listingId spentByTxid : Bytes) : Bool :=
  decide (∃ fillId fill, db.fills.get fillId = some fill ∧
    fill.listingId = listingId ∧ fill.txid = some spentByTxid)

/-- The later of two fills. Fills of one instant go by their ids. -/
def laterFill (a b : Nat × Fill) : Nat × Fill :=
  if a.2.createdAt < b.2.createdAt ∨ a.2.createdAt = b.2.createdAt ∧ a.1 < b.1 then b else a

def latestFill : List (Nat × Fill) → Option (Nat × Fill)
  | [] => none
  | e :: rows => some (rows.foldl laterFill e)

def reservationOver (now : Nat) (f : Fill) : Bool :=
  f.status.awaiting ∧ ∃ t ∈ f.reservationExpiresAt, t ≤ now

def buildTerms (cfg : MarketConfig) (fillId : Nat) (listing : Listing) (fill : Fill) :
    P2PFillTerms where
  listingId := fill.listingId
  fillId := fillId
  tokenId := listing.tokenId
  sourceTxid := listing.sourceTxid
  sourceVout := listing.sourceVout
  sourceAmountAtoms := listing.sourceAmountAtoms
  sellerTokenScript := listing.sellerTokenScript
  sellerTokenChangeScript := listing.sellerTokenChangeScript
  sellerPayoutScript := listing.sellerPayoutScript
  amountAtoms := listing.amountAtoms
  totalPriceSats := listing.totalPriceSats
  marketFeeSats := fill.marketFeeSats
  minerFeeSats := fill.minerFeeSats
  buyerTokenScript := fill.buyerTokenScript
  buyerChangeScript := fill.buyerChangeScript
  feeScript := cfg.feeScript
  buyerFundInputs := fill.buyerFundInputs

/-- The amounts `buildFillPsbt` writes: the seller's carrier counts towards the carriers made. -/
def fillCosts (cfg : MarketConfig) (c : ChainView) (listing : Listing) (fill : Fill)
    (minerFeeSats : Int) : Except Fault (Int × Int) := do
  let valueSats ← resolveSource c listing.toListingV1
  let tokenOutputs : Int := if 0 < listing.sourceAmountAtoms - listing.amountAtoms then 2 else 1
  let extraCarrierSats := tokenOutputs * tokenCarrierSats - valueSats
  let marketFee ← marketFeeFor cfg listing.totalPriceSats
  let requiredFunding := listing.totalPriceSats + marketFee + extraCarrierSats + minerFeeSats
  let change := (fill.buyerFundInputs.map BuyerFundInput.valueSats).sum - requiredFunding
  ensure (0 ≤ change) (marketFault "BUYER_FUNDS_INSUFFICIENT" s!"short {-change} sats")
  return (extraCarrierSats, marketFee)

variable (env : MarketEnv) (c : ChainView) (order : RowOrder) (db : MarketDb)

/-- The validation of `finalizeP2PFill`, on the fill as it was loaded. -/
def validateFill (fillId : Nat) (fill : Fill) : Except Fault ValidatedP2PFill := do
  let psbt ← demand fill.psbt (stateChanged "fill has no PSBT")
  let listing ← demand (db.listings.get fill.listingId) (stateChanged "listing not found")
  assertSettlementCap listing.totalPriceSats env.config.maxP2pSettlementSats
  let tx ← demand (env.extract psbt) (marketFault "PSBT_MUTATED" "cannot finalize the PSBT")
  validateFinalizedP2PFill env.crypto tx (buildTerms env.config fillId listing fill)
    (loadView c.indexer listing.tokenId listing.sourceTxid listing.sourceVout)

/-- Where a task is after a statement that only reads. -/
def Task.read : Task → Except Fault Task
  | .done => .ok .done
  | .write w next => .ok (.write w next)
  | .build fillId fill built => do
    let listing ← demand (db.listings.get fill.listingId) (stateChanged "listing not found")
    let (extraCarrierSats, marketFee) ← fillCosts env.config c listing fill built.minerFeeSats
    return .write (.buildFillPsbt fillId built.psbt built.settledMinerFeeSats extraCarrierSats
      marketFee) .done
  | .countersign fillId fill psbt => do
    let listing ← demand (db.listings.get fill.listingId) (stateChanged "listing not found")
    let _ ← resolveSource c listing.toListingV1
    return .write (.submitSellerSignedPsbt fillId psbt) .done
  | .validate fillId fill => do
    let v ← validateFill env c db fillId fill
    return .write (.finalizeP2PFill fillId v.txid) (.validated v)
  | .validated v => .ok (.write (.broadcastP2PFill v) .done)
  | .reconcile clock => do
    let rows ← selectRows order.fills db.fills (·.status = .broadcast)
    return .promote clock rows
  -- (A) Promote BROADCAST fills that the indexer has confirmed.
  | .promote clock ((fillId, fill) :: rest) =>
    match db.listings.get fill.listingId with
    | none => .ok (.promote clock rest)
    | some listing =>
      match spentBy c listing.toListingV1 fill.txid with
      | some utxo => .ok (.write
          (.promoteFill fillId fill listing.toListingV1 utxo clock.tip) (.promote clock rest))
      | none => .ok (.promote clock rest)
  | .promote clock [] => do
    let rows ← selectRows order.fills db.fills (·.status = .confirmed)
    return .reorg clock rows
  -- (B) CONFIRMED fills whose source is no longer spent by their transaction.
  | .reorg clock ((fillId, fill) :: rest) =>
    match db.listings.get fill.listingId with
    | none => .ok (.reorg clock rest)
    | some listing =>
      match spentBy c listing.toListingV1 fill.txid with
      | some _ => .ok (.reorg clock rest)
      | none => .ok (.write (.reorgFill fillId fill) (.reorg clock rest))
  | .reorg clock [] => do
    let rows ← selectRows order.listings db.listings (·.status.isOpen)
    return .survey clock rows
  -- (C) External spends, and listings after a reorg.
  | .survey clock ((listingId, listing) :: rest) =>
    match (sourceUtxoRow c listing.source).bind UtxoRow.spentByTxid with
    | some spentByTxid => .ok (.surveySpent clock listingId spentByTxid rest)
    | none => .ok (.surveyTxout clock listingId listing rest)
  | .surveySpent clock listingId spentByTxid rest =>
    if listingFillTxid db listingId spentByTxid then .ok (.survey clock rest)
    else .ok (.write (.invalidateListing listingId) (.survey clock rest))
  | .surveyTxout clock listingId listing rest =>
    match c.txouts.get listing.source with
    | some _ =>
      if listing.status = .reorged then
        .ok (.write (.reactivateListing listingId) (.survey clock rest))
      else .ok (.survey clock rest)
    | none => .ok (.surveyLatest clock listingId listing rest)
  | .surveyLatest clock listingId listing rest => do
    let rows ← selectRows order.fills db.fills (·.listingId = listingId)
    return .surveyMempool clock listingId listing ((latestFill rows).bind (·.2.txid)) rest
  | .surveyMempool clock listingId listing ourTxid rest =>
    match ourTxid.filter (· ∈ c.transactions) with
    | some txid =>
      if listing.status = .reorged then
        .ok (.write (.rependFill listingId txid) (.survey clock rest))
      else .ok (.survey clock rest)
    | none => .ok (.write (.invalidateListing listingId) (.survey clock rest))
  | .survey clock [] => do
    let rows ← selectRows order.fills db.fills (·.status = .buyerSigned)
    return .sweep clock rows
  -- (C2) A signed fill is dead once one of the buyer's coins is spent.
  | .sweep clock ((fillId, fill) :: rest) =>
    .ok (.sweepFunds clock fillId fill fill.buyerFundInputs rest)
  | .sweepFunds clock fillId fill (i :: inputs) rest =>
    match c.txouts.get i.outpoint with
    | some _ => .ok (.sweepFunds clock fillId fill inputs rest)
    | none => .ok (.write (.expireFill fillId fill.listingId) (.sweep clock rest))
  | .sweepFunds clock _ _ [] rest => .ok (.sweep clock rest)
  | .sweep clock [] => do
    let rows ← selectRows order.listings db.listings
      fun l => l.status = .active ∧ l.expiryHeight ≤ clock.tip
    return .expireListings clock rows
  -- (D) Expire listings, then reservations.
  | .expireListings clock ((listingId, _) :: rest) =>
    .ok (.write (.expireListing listingId) (.expireListings clock rest))
  | .expireListings clock [] => do
    let rows ← selectRows order.fills db.fills (reservationOver clock.now)
    return .expireFills clock rows
  | .expireFills clock ((fillId, fill) :: rest) =>
    .ok (.write (.expireFill fillId fill.listingId) (.expireFills clock rest))
  | .expireFills _ [] => .ok .done

/-- A task's next statement: the tables after it, and where the task is then. -/
def Task.turn : Task → Except Fault (MarketDb × Task)
  | .write w next => do
    let db ← w.run env.config c db
    return (db, next)
  | t => do
    let t ← t.read env c order db
    return (db, t)

/-! Requests. -/

inductive Request
  | createListing (listingId : Bytes) (input : ListingV1)
  | cancelListing (listingId cancelHash : Bytes)
  | reserveListing (fillId : Nat) (input : ReserveListingInput)
  | buildFillPsbt (fillId : Nat) (built : BuiltFill)
  | submitBuyerSignedPsbt (fillId : Nat) (psbt : Bytes)
  | submitSellerSignedPsbt (fillId : Nat) (psbt : Bytes)
  | finalizeP2PFill (fillId : Nat)
  | reconcileMarket
  deriving DecidableEq

/-- `validateListingShape`, where the fields are bytes and numbers already. -/
def validateListingShape (l : ListingV1) : Except Fault Unit := do
  ensure (l.tokenId.length = 32) (marketFault "LISTING_TOKEN_MISMATCH" "bad tokenId")
  ensure (l.sourceTxid.length = 32) (marketFault "LISTING_BAD_SOURCE" "bad sourceTxid")
  ensure ((isP2WPKH l.sellerTokenScript || isP2TR l.sellerTokenScript) = true)
    (marketFault "LISTING_BAD_SOURCE" "seller token script not standard")
  ensure (isCreatorScript l.sellerPayoutScript = true)
    (marketFault "LISTING_BAD_SOURCE" "seller payout script not standard")
  ensure (l.sellerTokenChangeScript = l.sellerTokenScript)
    (marketFault "LISTING_BAD_SOURCE" "V1 requires the change script to equal the token script")
  ensure (0 < l.amountAtoms) (marketFault "LISTING_AMOUNT_INVALID" "zero amount")
  ensure (l.amountAtoms ≤ l.sourceAmountAtoms)
    (marketFault "LISTING_AMOUNT_INVALID" "amount > source amount")
  ensure (0 < l.totalPriceSats) (marketFault "LISTING_PRICE_INVALID" "zero price")
  ensure (l.creationHeight < l.expiryHeight) (marketFault "LISTING_EXPIRED" "expiry <= creation")

/-- What `createListing` checks before its transaction. -/
def checkListing (l : ListingV1) : Except Fault Unit := do
  validateListingShape l
  ensure (l.expiryHeight - l.creationHeight ≤ env.config.maxListingBlocks)
    (marketFault "LISTING_EXPIRY_TOO_FAR"
      s!"listing would stay open for {l.expiryHeight - l.creationHeight} blocks")
  let _ ← resolveSource c l
  ensure (dustThreshold l.sellerPayoutScript ≤ l.totalPriceSats)
    (marketFault "SELLER_PAYOUT_DUST" "seller payout below relay dust")
  assertSettlementCap l.totalPriceSats env.config.maxP2pSettlementSats
  let marketFee ← marketFeeFor env.config l.totalPriceSats
  ensure (dustThreshold env.config.feeScript ≤ marketFee)
    (marketFault "MARKET_FEE_DUST" "p2p fee below relay dust")

/-- The buyer's coins are all under the change script, and none is a carrier the indexer has
there. -/
def checkFunds (input : ReserveListingInput) : Except Fault Unit := do
  ensure (∀ f ∈ input.buyerFundInputs, f.script = input.buyerChangeScript)
    (marketFault "BUYER_FUNDS_INSUFFICIENT"
      "every funding coin must belong to the buyer's payment address")
  ensure (∀ f ∈ input.buyerFundInputs, ∀ row ∈ sourceUtxoRow c f.outpoint,
      ¬ (row.spentByTxid = none ∧ row.scriptPubKey = input.buyerChangeScript))
    (marketFault "BUYER_FUNDS_INSUFFICIENT"
      "a funding coin holds tokens and cannot pay for a purchase")

def loadFill (fillId : Nat) (allowed : FillStatus → Bool) : Except Fault Fill := do
  let fill ← demand (db.fills.get fillId) (stateChanged "fill not found")
  ensure (allowed fill.status = true) (stateChanged s!"fill is {fill.status.text}")
  return fill

/-- A request up to the first point where its handler has to wait. -/
def Request.begin : Request → Except Fault Task
  | .createListing listingId input => do
    checkListing env c input
    return .write (.createListing listingId input) .done
  | .cancelListing listingId cancelHash => do
    let _ ← demand (db.listings.get listingId) (stateChanged "listing not found")
    return .write (.cancelListing listingId cancelHash) .done
  | .reserveListing fillId input => do
    checkFunds c input
    return .write (.reserveListing fillId input c.tip c.now) .done
  | .buildFillPsbt fillId built => do
    let fill ← loadFill db fillId fun s => s = .reserved ∨ s = .psbtBuilt
    return .build fillId fill built
  | .submitBuyerSignedPsbt fillId psbt => do
    let _ ← loadFill db fillId fun s => s = .psbtBuilt
    return .write (.submitBuyerSignedPsbt fillId psbt) .done
  | .submitSellerSignedPsbt fillId psbt => do
    let fill ← loadFill db fillId fun s => s = .buyerSigned
    return .countersign fillId fill psbt
  | .finalizeP2PFill fillId => do
    let fill ← loadFill db fillId fun s => s = .sellerSigned ∨ s = .broadcast
    return .validate fillId fill
  | .reconcileMarket => return .reconcile ⟨c.tip, c.now⟩

/-! The system. -/

structure System where
  chain : ChainView
  db : MarketDb
  tasks : List Task

inductive Move
  /-- Blocks, reorgs, the mempool and the clock. -/
  | observe (c : ChainView)
  | call (r : Request)
  | turn (i : Nat) (order : RowOrder)
  | crash (i : Nat)

/-- A refused request leaves no task, and a statement that throws ends its task. -/
def System.step (env : MarketEnv) (s : System) : Move → Option System
  | .observe c => some { s with chain := c }
  | .call r =>
    match r.begin env s.chain s.db with
    | .ok t => some { s with tasks := s.tasks ++ [t] }
    | .error _ => some s
  | .turn i order =>
    match s.tasks[i]? with
    | none => none
    | some t =>
      match t.turn env s.chain order s.db with
      | .ok (db, t') => some { s with db, tasks := s.tasks.set i t' }
      | .error _ => some { s with tasks := s.tasks.set i .done }
  | .crash i => some { s with tasks := s.tasks.set i .done }

def System.init (c : ChainView) : System := ⟨c, .empty, []⟩

/-! What a move can do. -/

section

variable {env : MarketEnv} {c : ChainView} {order : RowOrder} {db db' : MarketDb} {t t' : Task}

/-- Only a pending write changes the tables. -/
theorem Task.turn_cases (h : t.turn env c order db = .ok (db', t')) :
    (∃ w, t = .write w t' ∧ w.run env.config c db = .ok db') ∨
      t.read env c order db = .ok t' ∧ db' = db := by
  unfold Task.turn at h
  split at h
  · rename_i w next
    simp only [bind_eq_ok, pure_eq_ok, Prod.mk.injEq] at h
    obtain ⟨_, hrun, rfl, rfl⟩ := h
    exact Or.inl ⟨w, rfl, hrun⟩
  · simp only [bind_eq_ok, pure_eq_ok, Prod.mk.injEq] at h
    obtain ⟨_, hread, rfl, rfl⟩ := h
    exact Or.inr ⟨hread, rfl⟩

end

/-- A move either commits one pending write, or leaves the tables alone and changes one task. -/
inductive System.Effect (env : MarketEnv) (s : System) : Move → System → Prop
  | observe (c : ChainView) : Effect env s (.observe c) { s with chain := c }
  | began (r : Request) (t : Task) (h : r.begin env s.chain s.db = .ok t) :
      Effect env s (.call r) { s with tasks := s.tasks ++ [t] }
  | refused (r : Request) : Effect env s (.call r) s
  | committed (i : Nat) (order : RowOrder) (w : Write) (next : Task) (db : MarketDb)
      (ht : s.tasks[i]? = some (.write w next)) (h : w.run env.config s.chain s.db = .ok db) :
      Effect env s (.turn i order) { s with db, tasks := s.tasks.set i next }
  | read (i : Nat) (order : RowOrder) (t t' : Task) (ht : s.tasks[i]? = some t)
      (h : t.read env s.chain order s.db = .ok t') :
      Effect env s (.turn i order) { s with tasks := s.tasks.set i t' }
  | threw (i : Nat) (order : RowOrder) :
      Effect env s (.turn i order) { s with tasks := s.tasks.set i .done }
  | crashed (i : Nat) : Effect env s (.crash i) { s with tasks := s.tasks.set i .done }

theorem System.step_effect {env : MarketEnv} {s s' : System} {m : Move}
    (h : s.step env m = some s') : s.Effect env m s' := by
  cases m with
  | observe c =>
    cases h
    exact .observe c
  | call r =>
    simp only [step] at h
    split at h
    · cases h
      exact .began r _ ‹_›
    · cases h
      exact .refused r
  | turn i order =>
    simp only [step] at h
    split at h
    · cases h
    · rename_i t ht
      split at h
      · rename_i db t' hturn
        cases h
        rcases Task.turn_cases hturn with ⟨w, rfl, hrun⟩ | ⟨hread, rfl⟩
        · exact .committed i order w t' db ht hrun
        · exact .read i order t t' ht hread
      · cases h
        exact .threw i order
  | crash i =>
    cases h
    exact .crashed i

/-! A market with one listing of ALPHA, and a buyer's fill of it. -/

def sampleMarket : MarketConfig where
  p2pFeeBps := 200
  p2pFeeMinSats := 1000
  feeScript := sampleConfig.feeScript
  reservationTtlSeconds := 300
  sellerSignTtlSeconds := 86400
  maxListingBlocks := 21000
  maxP2pSettlementSats := none

def listedOutpoint : OutPoint := ⟨List.replicate 32 9, 2⟩

def sampleListing : ListingV1 where
  tokenId := alphaId
  sellerTokenScript := sampleOwner
  sellerPayoutScript := sampleOwner
  sellerTokenChangeScript := sampleOwner
  sourceTxid := listedOutpoint.txid
  sourceVout := listedOutpoint.vout
  sourceAmountAtoms := 100000000000
  amountAtoms := 60000000000
  totalPriceSats := 50000
  creationHeight := 100
  expiryHeight := 200

def sampleListingId : Bytes := List.replicate 32 0x1d

/-- What the indexer has of the listed carrier. -/
def listedRow (spentByTxid : Option Bytes) : UtxoRow where
  tokenId := alphaId
  amountAtoms := 100000000000
  scriptPubKey := sampleOwner
  createdHeight := 90
  createdBlockHash := List.replicate 32 0xb0
  spentByTxid := spentByTxid
  spentHeight := spentByTxid.map fun _ => 110
  spentBlockHash := spentByTxid.map fun _ => List.replicate 32 0xb1
  burned := false

/-- The listed carrier is unspent, or spent by a confirmed transaction. -/
def sampleView (tip : Int) (now : Nat) (spentByTxid : Option Bytes) : ChainView where
  tip := tip
  now := now
  indexer := { Db.empty with
    tokenUtxos := (∅ : Dict OutPoint UtxoRow).set listedOutpoint (listedRow spentByTxid) }
  txouts :=
    if spentByTxid = none then
      ((∅ : Dict OutPoint TxOut).set listedOutpoint ⟨sampleOwner, 1000⟩).set buyerCoin.outpoint
        ⟨sampleOwner, 100000⟩
    else ∅
  transactions := spentByTxid.toList

def sampleReserve : ReserveListingInput where
  listingId := sampleListingId
  buyerTokenScript := sampleBuyer
  buyerChangeScript := sampleOwner
  buyerFundInputs := [buyerCoin]

def sampleBuilt : BuiltFill := ⟨[1], 2000, 2000⟩

/-- The fill the PSBT extracts to. -/
def listedFill : Transaction :=
  { fillTransaction [] with
    ins := [listedOutpoint, buyerCoin.outpoint].map
      fun o => { hash := o.txid.reverse, index := o.vout } }

/-- A PSBT of three bytes is the signed one. -/
def sampleEnv : MarketEnv where
  crypto := sampleCrypto
  config := sampleMarket
  extract psbt := if psbt.length = 3 then some listedFill else none

def sampleOrder : RowOrder := ⟨[sampleListingId], [1, 2]⟩

def sampleTurns (i n : Nat) : List Move := List.replicate n (.turn i sampleOrder)

/-- The listing is made, reserved, built and signed by the buyer and the seller. -/
def signedRun : List Move :=
  [Move.call (.createListing sampleListingId sampleListing)] ++ sampleTurns 0 1 ++
  [Move.call (.reserveListing 1 sampleReserve)] ++ sampleTurns 1 1 ++
  [Move.call (.buildFillPsbt 1 sampleBuilt)] ++ sampleTurns 2 2 ++
  [Move.call (.submitBuyerSignedPsbt 1 [1, 2])] ++ sampleTurns 3 1 ++
  [Move.call (.submitSellerSignedPsbt 1 [1, 2, 3])] ++ sampleTurns 4 2

end Cove
