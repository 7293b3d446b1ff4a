import Cove.Bitcoin.Transaction
import Cove.Lib.Checked
import Cove.Lib.Dict

/-! The market's rows: `packages/cove-market/src/types.ts` and the market tables of the schema.
The rows of one network. -/

namespace Cove

inductive ListingStatus
  | active
  | reserved
  | broadcast
  | filled
  | cancelled
  | expired
  | invalidated
  | reorged
  deriving DecidableEq, Repr

inductive FillStatus
  | reserved
  | psbtBuilt
  | buyerSigned
  | sellerSigned
  | broadcast
  | confirmed
  | reorged
  | failed
  | expired
  | cancelled
  deriving DecidableEq, Repr

namespace ListingStatus

/-- The statuses the unique index on source outpoints covers. -/
def indexed (s : ListingStatus) : Prop := s = active ∨ s = reserved ∨ s = broadcast

/-- The listings `reconcileMarket` looks at again. -/
def isOpen (s : ListingStatus) : Prop := s.indexed ∨ s = reorged

instance : DecidablePred indexed := fun s =>
  inferInstanceAs (Decidable (s = active ∨ s = reserved ∨ s = broadcast))

instance : DecidablePred isOpen := fun s => inferInstanceAs (Decidable (s.indexed ∨ s = reorged))

end ListingStatus

namespace FillStatus

/-- A fill on its way to the broadcast; its reservation can run out. -/
def awaiting (s : FillStatus) : Prop :=
  s = reserved ∨ s = psbtBuilt ∨ s = buyerSigned ∨ s = sellerSigned

def live (s : FillStatus) : Prop := s.awaiting ∨ s = broadcast

/-- A fill that holds its listing. -/
def engaged (s : FillStatus) : Prop := s.live ∨ s = confirmed

/-- A fill that has been given up. -/
def terminal (s : FillStatus) : Prop := s = cancelled ∨ s = expired ∨ s = failed

instance : DecidablePred awaiting := fun s =>
  inferInstanceAs (Decidable (s = reserved ∨ s = psbtBuilt ∨ s = buyerSigned ∨ s = sellerSigned))

instance : DecidablePred live := fun s => inferInstanceAs (Decidable (s.awaiting ∨ s = broadcast))

instance : DecidablePred engaged := fun s => inferInstanceAs (Decidable (s.live ∨ s = confirmed))

instance : DecidablePred terminal := fun s =>
  inferInstanceAs (Decidable (s = cancelled ∨ s = expired ∨ s = failed))

end FillStatus

/-- A coin the buyer pays with. -/
structure BuyerFundInput where
  txid : Bytes
  vout : Nat
  script : Bytes
  valueSats : Int
  deriving DecidableEq, Repr

def BuyerFundInput.outpoint (f : BuyerFundInput) : OutPoint := ⟨f.txid, f.vout⟩

/-- What the seller signs. -/
structure ListingV1 where
  tokenId : Bytes
  sellerTokenScript : Bytes
  sellerPayoutScript : Bytes
  sellerTokenChangeScript : Bytes
  sourceTxid : Bytes
  sourceVout : Nat
  sourceAmountAtoms : Int
  amountAtoms : Int
  totalPriceSats : Int
  creationHeight : Int
  expiryHeight : Int
  deriving DecidableEq, Repr

def ListingV1.source (l : ListingV1) : OutPoint := ⟨l.sourceTxid, l.sourceVout⟩

structure Listing extends ListingV1 where
  status : ListingStatus
  deriving DecidableEq, Repr

structure Fill where
  listingId : Bytes
  buyerTokenScript : Bytes
  buyerChangeScript : Bytes
  buyerFundInputs : List BuyerFundInput
  amountAtoms : Int
  totalPriceSats : Int
  marketFeeSats : Int
  extraCarrierSats : Int
  minerFeeSats : Int
  psbt : Option Bytes
  status : FillStatus
  txid : Option Bytes
  reservationExpiresAt : Option Nat
  createdAt : Nat
  deriving DecidableEq, Repr

structure MarketTrade where
  tokenId : Bytes
  listingId : Bytes
  fillId : Nat
  sellerTokenScript : Bytes
  buyerTokenScript : Bytes
  amountAtoms : Int
  totalPriceSats : Int
  marketFeeSats : Int
  minerFeeSats : Int
  blockHeight : Int
  blockHash : Option Bytes
  canonical : Bool
  deriving DecidableEq, Repr

/-- The `MarketConfig` values the handlers use. -/
structure MarketConfig where
  p2pFeeBps : Int
  p2pFeeMinSats : Int
  feeScript : Bytes
  reservationTtlSeconds : Nat
  sellerSignTtlSeconds : Nat
  maxListingBlocks : Int
  maxP2pSettlementSats : Option Int
  deriving DecidableEq, Repr

def marketFault (code message : String) : Fault := ⟨some code, message⟩

end Cove
