import Cove.App.Transfer
import Cove.Market.Types

/-! Final validation of a fill: `packages/cove-market/src/finalize.ts`. -/

namespace Cove

open Checked

structure P2PFillTerms where
  listingId : Bytes
  fillId : Nat
  tokenId : Bytes
  sourceTxid : Bytes
  sourceVout : Nat
  sourceAmountAtoms : Int
  sellerTokenScript : Bytes
  sellerTokenChangeScript : Bytes
  sellerPayoutScript : Bytes
  amountAtoms : Int
  totalPriceSats : Int
  marketFeeSats : Int
  minerFeeSats : Int
  buyerTokenScript : Bytes
  buyerChangeScript : Bytes
  feeScript : Bytes
  buyerFundInputs : List BuyerFundInput
  deriving DecidableEq, Repr

structure ValidatedP2PFill where
  validatedTransfer : ValidatedCoveTransaction
  txid : Bytes
  listingId : Bytes
  fillId : Nat
  tokenId : Bytes
  deriving DecidableEq, Repr

def assertSettlementCap (totalPriceSats : Int) (cap : Option Int) : Except Fault Unit :=
  ensure (∀ c ∈ cap, totalPriceSats ≤ c) (marketFault "P2P_SETTLEMENT_CAP_EXCEEDED"
    s!"settlement {totalPriceSats} > canary cap {cap.getD 0}")

def rejectFill (code detail : String) : Fault :=
  marketFault "MARKET_VALIDATION_FAILED" (code ++ ": " ++ detail)

namespace P2PFillTerms

variable (terms : P2PFillTerms)

def source : OutPoint := ⟨terms.sourceTxid, terms.sourceVout⟩

/-- The source is taken to be worth a carrier. A later entry of an outpoint wins. -/
def prevouts : Dict OutPoint ResolvedPrevout :=
  ((∅ : Dict OutPoint ResolvedPrevout).set terms.source
    ⟨terms.sellerTokenScript, tokenCarrierSats⟩).setAll
      (terms.buyerFundInputs.map fun f => (f.outpoint, ⟨f.script, f.valueSats⟩))

def changeAtoms : Int := terms.sourceAmountAtoms - terms.amountAtoms

def expectedAllocs : Nat := if 0 < terms.changeAtoms then 2 else 1

end P2PFillTerms

def ParsedCoveTx.kind : ParsedCoveTx → String
  | .nonCove => "NON_COVE"
  | .invalid _ => "INVALID"
  | .cove (.deploy _ _ _) => "DEPLOY"
  | .cove (.mint _ _ _) => "MINT"
  | .cove (.transfer _ _) => "TRANSFER"
  | .cove (.redeem _ _ _) => "REDEEM"

def baseRefused : FinalRefusal → Fault
  | .rejected reason => rejectFill "TRANSFER_VALIDATION" reason
  | .fault f => f

def transferAllocations (tx : Transaction) : Except Fault (List TokenAllocation) :=
  match parseCoveTx tx with
  | .cove (.transfer _ allocations) => .ok allocations
  | wire => .error (rejectFill "NOT_TRANSFER" ("kind=" ++ wire.kind))

/-- (c) Token allocations: the buyer's amount and the seller's change. -/
def checkFillAllocations (terms : P2PFillTerms) (allocations : List TokenAllocation) :
    Except Fault Unit := do
  ensure (allocations.length = terms.expectedAllocs)
    (rejectFill "ALLOCATION_COUNT" s!"{allocations.length} != {terms.expectedAllocs}")
  let buyerAlloc := allocations.getD 0 ⟨0, 0⟩
  ensure (buyerAlloc.vout = 1 ∧ buyerAlloc.amount = terms.amountAtoms)
    (rejectFill "BUYER_ALLOCATION" s!"vout={buyerAlloc.vout} amount={buyerAlloc.amount}")
  if 0 < terms.changeAtoms then
    let changeAlloc := allocations.getD 1 ⟨0, 0⟩
    ensure (changeAlloc.vout = 2 ∧ changeAlloc.amount = terms.changeAtoms)
      (rejectFill "SELLER_CHANGE_ALLOCATION" s!"vout={changeAlloc.vout} amount={changeAlloc.amount}")

/-- An output pays to a script. -/
def hasScript (outs : List TxOut) (vout : Nat) (script : Bytes) : Prop :=
  outs[vout]?.map TxOut.script = some script

instance (outs : List TxOut) (vout : Nat) (script : Bytes) : Decidable (hasScript outs vout script) :=
  inferInstanceAs (Decidable (_ = _))

/-- (d) The scripts of the token carriers. -/
def checkFillCarriers (terms : P2PFillTerms) (outs : List TxOut) : Except Fault Unit := do
  ensure (hasScript outs 1 terms.buyerTokenScript)
    (rejectFill "BUYER_CARRIER_SCRIPT" "vout 1 is not the buyer token carrier")
  if 0 < terms.changeAtoms then
    ensure (hasScript outs 2 terms.sellerTokenChangeScript)
      (rejectFill "SELLER_CHANGE_CARRIER_SCRIPT" "vout 2 is not the seller change carrier")

/-- (e) The seller's payout, the market fee and at most one change output. -/
def checkFillPayments (terms : P2PFillTerms) (outs : List TxOut) : Except Fault Unit := do
  let sellerPayoutVout := 1 + terms.expectedAllocs
  let feeVout := sellerPayoutVout + 1
  let payout : TxOut ← demand outs[sellerPayoutVout]?
    (rejectFill "SELLER_PAYOUT" "seller payout output mismatch")
  ensure (payout.script = terms.sellerPayoutScript ∧ (payout.value : Int) = terms.totalPriceSats)
    (rejectFill "SELLER_PAYOUT" "seller payout output mismatch")
  let feeOut : TxOut ← demand outs[feeVout]? (rejectFill "P2P_FEE" "p2p fee output mismatch")
  ensure (feeOut.script = terms.feeScript ∧ (feeOut.value : Int) = terms.marketFeeSats)
    (rejectFill "P2P_FEE" "p2p fee output mismatch")
  ensure (feeVout + 1 < outs.length → hasScript outs (feeVout + 1) terms.buyerChangeScript)
    (rejectFill "BUYER_CHANGE" "unexpected buyer change output")
  ensure (outs.length ≤ feeVout + 2) (rejectFill "UNEXPECTED_OUTPUT" "too many outputs")

/-- (f) and (g): no dust, and the miner fee to the satoshi. -/
def checkFillValues (terms : P2PFillTerms) (tx : Transaction) : Except Fault Unit := do
  ensure (dustThreshold terms.sellerPayoutScript ≤ terms.totalPriceSats)
    (rejectFill "SELLER_PAYOUT_DUST" s!"payout {terms.totalPriceSats} < dust")
  ensure (dustThreshold terms.feeScript ≤ terms.marketFeeSats)
    (rejectFill "MARKET_FEE_DUST" s!"fee {terms.marketFeeSats} < dust")
  let minerFee := terms.prevouts.total (fun _ p => p.valueSats) - tx.totalOut
  ensure (minerFee = terms.minerFeeSats)
    (rejectFill "MINER_FEE" s!"{minerFee} != {terms.minerFeeSats}")

def validateFinalizedP2PFill (C : Crypto) (tx : Transaction) (terms : P2PFillTerms)
    (view : CoveCanonicalView) : Except Fault ValidatedP2PFill := do
  ensure (tx.ins[0]?.map TxIn.outpoint = some terms.source)
    (rejectFill "SOURCE_INPUT" "input 0 is not the listing source outpoint")
  let base ← (validateFinalizedTransferTransaction C tx view (some terms.prevouts)
    (some terms.minerFeeSats)).mapError baseRefused
  let allocations ← transferAllocations tx
  ensure (∀ o ∈ tx.spends, view.getBackingOutpoint terms.tokenId ≠ some o)
    (rejectFill "BACKING_TOUCHED" "P2P fill must never spend the backing UTXO")
  checkFillAllocations terms allocations
  checkFillCarriers terms tx.outs
  checkFillPayments terms tx.outs
  checkFillValues terms tx
  return ⟨base, base.txid, terms.listingId, terms.fillId, terms.tokenId⟩

/-- `loadView`: the snapshot of the listing's token, restricted to its source outpoint. -/
def loadView (db : Db) (tokenId sourceTxid : Bytes) (sourceVout : Nat) : CoveCanonicalView :=
  loadCanonicalViewSnapshotFromDb db tokenId [⟨sourceTxid, sourceVout⟩]

/-! What an accepted fill is. -/

/-- The allocations the terms call for. -/
def P2PFillTerms.allocations (terms : P2PFillTerms) : List TokenAllocation :=
  if 0 < terms.changeAtoms then [⟨1, terms.amountAtoms⟩, ⟨2, terms.changeAtoms⟩]
  else [⟨1, terms.amountAtoms⟩]

theorem checkFillAllocations_eq_ok {terms : P2PFillTerms} {allocations : List TokenAllocation}
    {u : Unit} :
    checkFillAllocations terms allocations = .ok u ↔ allocations = terms.allocations := by
  by_cases hc : 0 < terms.changeAtoms
  · simp only [checkFillAllocations, P2PFillTerms.expectedAllocs, P2PFillTerms.allocations, if_pos hc,
      bind_eq_ok, ensure_eq_ok]
    constructor
    · intro h
      obtain ⟨_, hlen, _, ⟨hv1, ha1⟩, hv2, ha2⟩ := h
      obtain ⟨a, b, rfl⟩ := List.length_eq_two.mp hlen
      obtain ⟨v1, m1⟩ := a
      obtain ⟨v2, m2⟩ := b
      simp only [List.getD_cons_zero, List.getD_cons_succ] at hv1 ha1 hv2 ha2
      rw [hv1, ha1, hv2, ha2]
    · intro h
      rw [h]
      exact ⟨(), rfl, (), ⟨rfl, rfl⟩, rfl, rfl⟩
  · simp only [checkFillAllocations, P2PFillTerms.expectedAllocs, P2PFillTerms.allocations, if_neg hc,
      bind_eq_ok, ensure_eq_ok, pure_eq_ok]
    constructor
    · intro h
      obtain ⟨_, hlen, _, ⟨hv, ha⟩, -⟩ := h
      obtain ⟨a, rfl⟩ := List.length_eq_one_iff.mp hlen
      obtain ⟨v, m⟩ := a
      simp only [List.getD_cons_zero] at hv ha
      rw [hv, ha]
    · intro h
      rw [h]
      exact ⟨(), rfl, (), ⟨rfl, rfl⟩, trivial⟩

theorem transferAllocations_eq_ok {tx : Transaction} {tokenId : Bytes}
    {allocations l : List TokenAllocation}
    (h : decodeCoveOpReturnTx tx = .ok (.transfer tokenId allocations)) :
    transferAllocations tx = .ok l ↔ l = allocations := by
  rw [transferAllocations, decodeCoveOpReturnTx_parses h]
  simp [eq_comm]

/-- What the market validator has checked of a fill it accepts. -/
structure FillValidated (view : CoveCanonicalView) (tx : Transaction) (terms : P2PFillTerms)
    (tokenId : Bytes) : Prop where
  source : tx.ins[0]?.map TxIn.outpoint = some terms.source
  transfer : TransferValidated view tx tokenId terms.allocations
  minerFee : checkMinerFee tx (some terms.prevouts) terms.minerFeeSats = .ok ()
  backing : ∀ o ∈ tx.spends, view.getBackingOutpoint terms.tokenId ≠ some o
  buyer : hasScript tx.outs 1 terms.buyerTokenScript
  seller : 0 < terms.changeAtoms → hasScript tx.outs 2 terms.sellerTokenChangeScript
  payout : PaysTo tx.outs (1 + terms.expectedAllocs) terms.totalPriceSats terms.sellerPayoutScript
  fee : PaysTo tx.outs (1 + terms.expectedAllocs + 1) terms.marketFeeSats terms.feeScript
  change : 1 + terms.expectedAllocs + 1 + 1 < tx.outs.length →
    hasScript tx.outs (1 + terms.expectedAllocs + 1 + 1) terms.buyerChangeScript
  bounded : tx.outs.length ≤ 1 + terms.expectedAllocs + 1 + 2
  values : checkFillValues terms tx = .ok ()

theorem checkFillCarriers_eq_ok {terms : P2PFillTerms} {outs : List TxOut} {u : Unit} :
    checkFillCarriers terms outs = .ok u ↔ hasScript outs 1 terms.buyerTokenScript ∧
      (0 < terms.changeAtoms → hasScript outs 2 terms.sellerTokenChangeScript) := by
  by_cases hc : 0 < terms.changeAtoms
  · simp [checkFillCarriers, hc]
  · simp [checkFillCarriers, hc]

theorem checkFillPayments_eq_ok {terms : P2PFillTerms} {outs : List TxOut} {u : Unit} :
    checkFillPayments terms outs = .ok u ↔
      PaysTo outs (1 + terms.expectedAllocs) terms.totalPriceSats terms.sellerPayoutScript ∧
      PaysTo outs (1 + terms.expectedAllocs + 1) terms.marketFeeSats terms.feeScript ∧
      (1 + terms.expectedAllocs + 1 + 1 < outs.length →
        hasScript outs (1 + terms.expectedAllocs + 1 + 1) terms.buyerChangeScript) ∧
      outs.length ≤ 1 + terms.expectedAllocs + 1 + 2 := by
  simp only [checkFillPayments, bind_eq_ok, demand_eq_ok, ensure_eq_ok]
  constructor
  · intro h
    obtain ⟨payout, hp, _, ⟨hps, hpv⟩, feeOut, hf, _, ⟨hfs, hfv⟩, _, hchange, hbound⟩ := h
    exact ⟨⟨payout, hp, hpv, hps⟩, ⟨feeOut, hf, hfv, hfs⟩, hchange, hbound⟩
  · intro h
    obtain ⟨⟨payout, hp, hpv, hps⟩, ⟨feeOut, hf, hfv, hfs⟩, hchange, hbound⟩ := h
    exact ⟨payout, hp, (), ⟨hps, hpv⟩, feeOut, hf, (), ⟨hfs, hfv⟩, (), hchange, hbound⟩

theorem validateFinalizedP2PFill_eq_ok {C : Crypto} {tx : Transaction} {terms : P2PFillTerms}
    {view : CoveCanonicalView} {r : ValidatedP2PFill} :
    validateFinalizedP2PFill C tx terms view = .ok r ↔
      ∃ tokenId, FillValidated view tx terms tokenId ∧
        r = ⟨⟨tx.getId C, .transfer, tokenId⟩, tx.getId C, terms.listingId, terms.fillId,
          terms.tokenId⟩ := by
  simp only [validateFinalizedP2PFill, bind_eq_ok, ensure_eq_ok, mapError_eq_ok, pure_eq_ok,
    validateFinalizedTransfer_eq_ok, checkFillAllocations_eq_ok, checkFillCarriers_eq_ok,
    checkFillPayments_eq_ok, Option.getD_some]
  constructor
  · intro h
    obtain ⟨_, hsource, _, ⟨tokenId, allocations, ht, hfee, rfl⟩, l, hl, _, hback, _, halloc, _,
      ⟨hbuyer, hseller⟩, _, ⟨hpay, hmarket, hchange, hbound⟩, _, hvalues, rfl⟩ := h
    rw [(transferAllocations_eq_ok ht.wire).mp hl] at halloc
    subst halloc
    exact ⟨tokenId, ⟨hsource, ht, hfee, hback, hbuyer, hseller, hpay, hmarket, hchange, hbound,
      hvalues⟩, rfl⟩
  · intro h
    obtain ⟨tokenId, hv, rfl⟩ := h
    exact ⟨(), hv.source, _, ⟨tokenId, _, hv.transfer, hv.minerFee, rfl⟩, _,
      (transferAllocations_eq_ok hv.transfer.wire).mpr rfl, (), hv.backing, (), rfl, (),
      ⟨hv.buyer, hv.seller⟩, (), ⟨hv.payout, hv.fee, hv.change, hv.bounded⟩, (), hv.values, rfl⟩

/-- A live carrier of so many atoms of a token lies on the outpoint, under the script. -/
def HoldsTokens (σ : Ledger) (o : OutPoint) (tokenId : Bytes) (amountAtoms : Int) (script : Bytes) :
    Prop :=
  ∃ u, σ.tokenUtxos.get o = some u ∧ u.tokenId = tokenId ∧ u.amountAtoms = amountAtoms ∧
    u.scriptPubKey = script

/-- The fill is recorded, the buyer holds the amount bought, the seller holds the rest of the
source, and both the price and the market fee are paid. -/
structure FillSettles (C : Crypto) (cfg : V3IndexerConfig) (σ : V3IndexerState)
    (block : V3BlockInput) (tx : Transaction) (terms : P2PFillTerms) (σ' : V3IndexerState) :
    Prop where
  settles : TransferSettles C cfg σ block tx terms.tokenId terms.allocations σ'
  buyer : HoldsTokens σ'.toLedger ⟨tx.getId C, 1⟩ terms.tokenId terms.amountAtoms
    terms.buyerTokenScript
  seller : ∃ u, σ.tokenUtxos.get terms.source = some u ∧
    (terms.amountAtoms = u.amountAtoms ∨ terms.amountAtoms < u.amountAtoms ∧
      HoldsTokens σ'.toLedger ⟨tx.getId C, 2⟩ terms.tokenId (u.amountAtoms - terms.amountAtoms)
        terms.sellerTokenChangeScript)
  payout : PaysTo tx.outs (1 + terms.expectedAllocs) terms.totalPriceSats terms.sellerPayoutScript
  fee : PaysTo tx.outs (1 + terms.expectedAllocs + 1) terms.marketFeeSats terms.feeScript

/-- Only the source is a live carrier among the inputs. -/
def OnlySource (σ : Ledger) (tx : Transaction) (source : OutPoint) : Prop :=
  ∀ o ∈ tx.spends, o ≠ source → σ.tokenUtxos.get o = none

section

variable {C : Crypto} {cfg : V3IndexerConfig} {chain : List V3BlockInput} {σ σ' : V3IndexerState}
  {db : Db} {block : V3BlockInput} {tx : Transaction} {terms : P2PFillTerms} {tokenId : Bytes}

/-- The source comes first among the inputs. -/
theorem FillValidated.ins {view : CoveCanonicalView} (hv : FillValidated view tx terms tokenId) :
    ∃ i rest, tx.ins = i :: rest ∧ i.outpoint = terms.source := by
  have hsource := hv.source
  cases hins : tx.ins with
  | nil =>
    rw [hins] at hsource
    cases hsource
  | cons i rest =>
    rw [hins] at hsource
    exact ⟨i, rest, rfl, Option.some.inj hsource⟩

variable (hS : Synced C cfg chain σ db) (hI : StateInv C cfg chain σ)
  (hv : FillValidated (loadView db terms.tokenId terms.sourceTxid terms.sourceVout) tx terms tokenId)

include hS hI hv

/-- The market's view knows the source alone, so that is where the tokens come from. -/
theorem FillValidated.source_live : tokenId = terms.tokenId ∧
    ∃ u, σ.tokenUtxos.get terms.source = some u ∧ u.tokenId = terms.tokenId := by
  have htok : tokenId = terms.tokenId := hv.transfer.tokenId_eq hS hI rfl
  refine ⟨htok, ?_⟩
  by_contra hnone
  apply hv.transfer.nonzero
  have hnil : (loadView db terms.tokenId terms.sourceTxid terms.sourceVout).knownInputs tx.spends =
      [] := by
    apply List.filterMap_eq_nil_iff.mpr
    intro o _
    by_contra hne
    obtain ⟨tok, hget⟩ := Option.ne_none_iff_exists'.mp hne
    obtain ⟨u, hu, hut, hrel, -⟩ := (snapshot_getTokenUtxo hS hI _ _ o tok).mp hget
    obtain rfl : o = terms.source := by simpa [P2PFillTerms.source] using hrel
    exact hnone ⟨u, hu, hut⟩
  rw [hnil]
  rfl

omit hv in
/-- Among distinct inputs the market's view knows the first alone. -/
theorem loadView_knownInputs {source : OutPoint} {u : V3TokenUtxo} {T : Bytes} {rest : List OutPoint}
    (hu : σ.tokenUtxos.get source = some u) (htok : u.tokenId = T) (hn : (source :: rest).Nodup) :
    (loadView db T source.txid source.vout).knownInputs (source :: rest) = [u.toTokenUtxo] := by
  have hiff := snapshot_getTokenUtxo hS hI T [source]
  have hfirst : (loadView db T source.txid source.vout).getTokenUtxo source = some u.toTokenUtxo :=
    (hiff _ _).mpr ⟨u, hu, htok, Or.inr (List.mem_singleton.mpr rfl), rfl⟩
  have hothers : ∀ o ∈ rest, (loadView db T source.txid source.vout).getTokenUtxo o = none := by
    intro o ho
    by_contra hne
    obtain ⟨tok, hget⟩ := Option.ne_none_iff_exists'.mp hne
    obtain ⟨-, -, -, hrel, -⟩ := (hiff o tok).mp hget
    obtain rfl : o = source := by simpa using hrel
    exact (List.nodup_cons.mp hn).1 ho
  rw [CoveCanonicalView.knownInputs, List.filterMap_cons, hfirst,
    List.filterMap_eq_nil_iff.mpr hothers]

/-- The terms allot what the source holds. -/
theorem FillValidated.allots_source (hn : tx.spends.Nodup) {u : V3TokenUtxo}
    (hu : σ.tokenUtxos.get terms.source = some u) :
    sumAllocations terms.allocations = u.amountAtoms := by
  obtain ⟨i, rest, hins, hi⟩ := hv.ins
  obtain ⟨-, u', hu', htok⟩ := hv.source_live hS hI
  obtain rfl : u = u' := Option.some.inj (hu.symm.trans hu')
  have hspends : tx.spends = terms.source :: rest.map TxIn.outpoint := by
    rw [Transaction.spends, hins, List.map_cons, hi]
  have hknown := loadView_knownInputs hS hI hu htok (hspends ▸ hn)
  rw [hv.transfer.conserved, hspends]
  refine (congrArg (fun l => (l.map TokenUtxo.amountAtoms).sum) hknown).trans ?_
  simp [V3TokenUtxo.toTokenUtxo]

/-- A fill all of whose other inputs are plain coins settles. -/
theorem FillValidated.settles (hb : ActiveBlock C cfg chain block) (htxs : block.txs = [tx])
    (hn : tx.spends.Nodup) (honly : OnlySource σ.toLedger tx terms.source) :
    ∃ σ', FillSettles C cfg σ block tx terms σ' := by
  obtain ⟨rfl, u, hu, htok⟩ := hv.source_live hS hI
  have hsum := hv.allots_source hS hI hn hu
  have hsees : SeesInputs (loadView db terms.tokenId terms.sourceTxid terms.sourceVout)
      σ.toLedger tx := by
    apply snapshot_seesInputs hS hI
    intro o ho u' hu'
    by_cases hsource : o = terms.source
    · rw [hsource, hu] at hu'
      rw [← Option.some.inj hu', hsource]
      exact ⟨htok, Or.inr (List.mem_singleton.mpr rfl)⟩
    · rw [honly o ho hsource] at hu'
      cases hu'
  obtain ⟨σ', hs⟩ := hv.transfer.settles hsees hI hb htxs
  have hholds : ∀ a ∈ terms.allocations, ∀ script, hasScript tx.outs a.vout script →
      HoldsTokens σ'.toLedger ⟨tx.getId C, a.vout⟩ terms.tokenId a.amount script := by
    intro a ha script hscript
    refine ⟨_, hs.allocated a ha, rfl, rfl, ?_⟩
    rw [carrierAt, hscript]
    rfl
  refine ⟨σ', hs, ?_, ⟨u, hu, ?_⟩, hv.payout, hv.fee⟩
  · refine hholds ⟨1, terms.amountAtoms⟩ ?_ _ hv.buyer
    rw [P2PFillTerms.allocations]
    split <;> simp
  · by_cases hc : 0 < terms.changeAtoms
    · have hchange : u.amountAtoms - terms.amountAtoms = terms.changeAtoms := by
        simp only [P2PFillTerms.allocations, if_pos hc, sumAllocations, List.map_cons, List.map_nil,
          List.sum_cons, List.sum_nil] at hsum
        omega
      right
      refine ⟨by omega, ?_⟩
      rw [hchange]
      refine hholds ⟨2, terms.changeAtoms⟩ ?_ _ (hv.seller hc)
      rw [P2PFillTerms.allocations, if_pos hc]
      simp
    · left
      simpa [P2PFillTerms.allocations, if_neg hc, sumAllocations] using hsum

omit hS hI in
/-- A fill that settles spends the source's atoms and no others. -/
theorem FillValidated.onlySource {u : V3TokenUtxo} (hu : σ.tokenUtxos.get terms.source = some u)
    (hpos : CarriersPos σ.toLedger) (hsum : sumAllocations terms.allocations = u.amountAtoms)
    (hs : TransferSettles C cfg σ block tx terms.tokenId terms.allocations σ') :
    OnlySource σ.toLedger tx terms.source := by
  obtain ⟨i, rest, hins, hi⟩ := hv.ins
  have hlive : liveInputs σ.tokenUtxos tx.ins = u :: liveInputs σ.tokenUtxos rest := by
    rw [hins, liveInputs, List.filterMap_cons, hi, hu]
    rfl
  have hzero : sumAtoms (liveInputs σ.tokenUtxos rest) = 0 := by
    have h := hs.conserved
    rw [hsum, hlive, sumAtoms, List.map_cons, List.sum_cons] at h
    rw [sumAtoms]
    omega
  have hnil : liveInputs σ.tokenUtxos rest = [] := by
    cases hl : liveInputs σ.tokenUtxos rest with
    | nil => rfl
    | cons v vs =>
      have hall : ∀ w ∈ liveInputs σ.tokenUtxos rest, 0 < w.amountAtoms := by
        intro w hw
        obtain ⟨j, -, hj⟩ := List.mem_filterMap.mp hw
        exact hpos _ _ hj
      rw [hl] at hall hzero
      have hv0 := hall v List.mem_cons_self
      have hvs : 0 ≤ (vs.map V3TokenUtxo.amountAtoms).sum := by
        apply List.sum_nonneg
        intro x hx
        obtain ⟨w, hw, rfl⟩ := List.mem_map.mp hx
        exact (hall w (List.mem_cons_of_mem _ hw)).le
      rw [sumAtoms, List.map_cons, List.sum_cons] at hzero
      omega
  intro o ho hne
  obtain ⟨j, hj, rfl⟩ := List.mem_map.mp ho
  rw [hins] at hj
  rcases List.mem_cons.mp hj with rfl | hj
  · exact absurd hi hne
  · exact List.filterMap_eq_nil_iff.mp hnil j hj

omit hS hI hv in
/-- A fill the market accepts is settled as agreed and burns nothing, if and only if no input
beside the source spends a live carrier. -/
theorem fill_admission_iff {r : ValidatedP2PFill} (hl : Lockstep C cfg chain σ db)
    (hb : ActiveBlock C cfg chain block) (htxs : block.txs = [tx])
    (h : validateFinalizedP2PFill C tx terms
      (loadView db terms.tokenId terms.sourceTxid terms.sourceVout) = .ok r) :
    (∃ σ', FillSettles C cfg σ block tx terms σ') ↔ OnlySource σ.toLedger tx terms.source := by
  obtain ⟨tokenId, hv, -⟩ := validateFinalizedP2PFill_eq_ok.mp h
  have hc := hb.consensus
  rw [chainTxs_append, htxs] at hc
  obtain ⟨-, u, hu, -⟩ := hv.source_live hl.synced hl.inv
  have hsum := hv.allots_source hl.synced hl.inv hc.inputs hu
  constructor
  · intro hsettles
    obtain ⟨σ', hs⟩ := hsettles
    exact hv.onlySource hu hl.replays.carriersPos hsum hs.settles
  · exact hv.settles hl.synced hl.inv hb htxs hc.inputs

end

/-! A fill of a listing of ALPHA. -/

def sampleBuyer : Bytes := 0x00 :: 0x14 :: List.replicate 20 0xbb

def buyerCoin : BuyerFundInput := ⟨List.replicate 32 5, 0, sampleOwner, 100000⟩

/-- The lot of BETA, offered as a coin. -/
def betaCoin : BuyerFundInput := ⟨betaCarrier.txid, betaCarrier.vout, sampleOwner, 1000⟩

def fillTerms (funds : List BuyerFundInput) : P2PFillTerms where
  listingId := List.replicate 32 0x1d
  fillId := 1
  tokenId := alphaId
  sourceTxid := alphaCarrier.txid
  sourceVout := alphaCarrier.vout
  sourceAmountAtoms := 100000000000
  sellerTokenScript := sampleOwner
  sellerTokenChangeScript := sampleOwner
  sellerPayoutScript := sampleOwner
  amountAtoms := 60000000000
  totalPriceSats := 50000
  marketFeeSats := 1000
  minerFeeSats := (funds.map BuyerFundInput.valueSats).sum - 98000
  buyerTokenScript := sampleBuyer
  buyerChangeScript := sampleOwner
  feeScript := sampleConfig.feeScript
  buyerFundInputs := funds

def fillTransaction (funds : List BuyerFundInput) : Transaction where
  ins := (alphaCarrier :: funds.map BuyerFundInput.outpoint).map
    fun o => { hash := o.txid.reverse, index := o.vout }
  outs := [
    ⟨opReturnScript (Bytes.ofHex "43560202" ++ alphaId ++ [2, 1] ++ Bytes.ofNatBE 8 60000000000 ++
      [2] ++ Bytes.ofNatBE 8 40000000000), 0⟩,
    ⟨sampleBuyer, 1000⟩,
    ⟨sampleOwner, 1000⟩,
    ⟨sampleOwner, 50000⟩,
    ⟨sampleConfig.feeScript, 1000⟩,
    ⟨sampleOwner, 46000⟩]

def fillBlock (funds : List BuyerFundInput) : V3BlockInput :=
  ⟨3, List.replicate 32 0xb3, List.replicate 32 0xb2, [fillTransaction funds]⟩

theorem fillTerms_source (funds : List BuyerFundInput) : (fillTerms funds).source = alphaCarrier := by
  simp only [fillTerms, P2PFillTerms.source]

theorem betaCoin_outpoint : betaCoin.outpoint = betaCarrier := by
  simp only [betaCoin, BuyerFundInput.outpoint]

theorem fillTransaction_spends (funds : List BuyerFundInput) :
    (fillTransaction funds).spends = alphaCarrier :: funds.map BuyerFundInput.outpoint := by
  simp [fillTransaction, Transaction.spends, TxIn.outpoint, Function.comp_def]

theorem fillTransaction_wire (funds : List BuyerFundInput) :
    decodeCoveOpReturnTx (fillTransaction funds) =
      .ok (.transfer alphaId (fillTerms funds).allocations) := by
  have h : (fillTransaction funds).outs = (fillTransaction []).outs := rfl
  have hw : decodeCoveOpReturnTx (fillTransaction []) =
      .ok (.transfer alphaId (fillTerms []).allocations) := by
    decide +kernel
  simp only [decodeCoveOpReturnTx, h] at hw ⊢
  exact hw

theorem resolvedTotal_listed (prevouts : Dict OutPoint ResolvedPrevout)
    (l : List (OutPoint × ResolvedPrevout)) (h : ∀ e ∈ l, prevouts.get e.1 = some e.2) :
    resolvedTotal prevouts (l.map fun e => { hash := e.1.txid.reverse, index := e.1.vout }) =
      .ok (l.map fun e => e.2.valueSats).sum := by
  induction l with
  | nil => rfl
  | cons e l ih =>
    have he : prevouts.get e.1 = some e.2 := h e List.mem_cons_self
    have hrest := ih fun e' he' => h e' (List.mem_cons_of_mem _ he')
    simp only [List.map_cons, resolvedTotal, TxIn.outpoint, List.reverse_reverse, he, demand, hrest,
      List.sum_cons]
    rfl

/-- The prevouts of the sample fill, input by input. -/
def fillPrevouts (funds : List BuyerFundInput) : List (OutPoint × ResolvedPrevout) :=
  (alphaCarrier, ⟨sampleOwner, tokenCarrierSats⟩) ::
    funds.map fun f => (f.outpoint, ⟨f.script, f.valueSats⟩)

section

variable {funds : List BuyerFundInput}
  (hn : (alphaCarrier :: funds.map BuyerFundInput.outpoint).Nodup)

include hn

theorem fillTerms_prevouts : ∀ e ∈ fillPrevouts funds, (fillTerms funds).prevouts.get e.1 = some e.2 := by
  intro e he
  have hsource := (List.nodup_cons.mp hn).1
  have hfunds := (List.nodup_cons.mp hn).2
  rw [P2PFillTerms.prevouts, fillTerms_source]
  rcases List.mem_cons.mp he with rfl | he
  · rw [Dict.get_setAll_of_notMem, Dict.get_set_self]
    · rfl
    · rw [List.map_map]
      exact hsource
  · obtain ⟨f, hf, rfl⟩ := List.mem_map.mp he
    apply Dict.get_setAll_of_mem
    · intro e' he' hkey
      obtain ⟨g, hg, rfl⟩ := List.mem_map.mp he'
      rw [List.inj_on_of_nodup_map hfunds hg hf hkey]
    · exact List.mem_map.mpr ⟨f, hf, rfl⟩

theorem fillTerms_prevouts_total : (fillTerms funds).prevouts.total (fun _ p => p.valueSats) =
    1000 + (funds.map BuyerFundInput.valueSats).sum := by
  have hsource := (List.nodup_cons.mp hn).1
  have hfunds := (List.nodup_cons.mp hn).2
  rw [P2PFillTerms.prevouts, fillTerms_source, Dict.total_setAll, Dict.total_set_of_fresh]
  · have hempty : Dict.total (fun _ p => p.valueSats) (∅ : Dict OutPoint ResolvedPrevout) = 0 := rfl
    simp [hempty, fillTerms, tokenCarrierSats, Function.comp_def]
  · simp
  · intro e he
    obtain ⟨f, hf, rfl⟩ := List.mem_map.mp he
    rw [Dict.get_set_ne]
    · simp
    · intro heq
      apply hsource
      rw [← heq]
      exact List.mem_map.mpr ⟨f, hf, rfl⟩
  · rw [List.map_map]
    exact hfunds

/-- The sample fill pays its miner fee exactly. -/
theorem fillTransaction_fee (hfund : 98000 ≤ (funds.map BuyerFundInput.valueSats).sum) :
    checkMinerFee (fillTransaction funds) (some (fillTerms funds).prevouts)
        (fillTerms funds).minerFeeSats = .ok () ∧
      checkFillValues (fillTerms funds) (fillTransaction funds) = .ok () := by
  have hout : (fillTransaction funds).totalOut = 99000 := rfl
  have hins : (fillTransaction funds).ins = (fillPrevouts funds).map
      fun e => { hash := e.1.txid.reverse, index := e.1.vout } := by
    simp [fillTransaction, fillPrevouts, Function.comp_def]
  have hsum : ((fillPrevouts funds).map fun e => e.2.valueSats).sum =
      1000 + (funds.map BuyerFundInput.valueSats).sum := by
    simp [fillPrevouts, tokenCarrierSats, Function.comp_def]
  have hin : resolvedTotal (fillTerms funds).prevouts (fillTransaction funds).ins =
      .ok (1000 + (funds.map BuyerFundInput.valueSats).sum) := by
    rw [hins, resolvedTotal_listed _ _ (fillTerms_prevouts hn), hsum]
  have hfee : (fillTerms funds).minerFeeSats = (funds.map BuyerFundInput.valueSats).sum - 98000 := rfl
  constructor
  · simp only [checkMinerFee, hin, hout, hfee, bind_eq_ok, ensure_eq_ok, Except.ok.injEq,
      exists_eq_left']
    exact ⟨(), by omega, by omega⟩
  · simp only [checkFillValues, fillTerms_prevouts_total hn, hout, hfee, bind_eq_ok, ensure_eq_ok]
    refine ⟨(), ?_, (), ?_, by omega⟩
    · show dustThreshold sampleOwner ≤ 50000
      decide
    · show dustThreshold sampleConfig.feeScript ≤ 1000
      decide

end

theorem fillTransaction_carriers (funds : List BuyerFundInput) :
    ∀ a ∈ (fillTerms funds).allocations, CarriesTokens (fillTransaction funds).outs a.vout := by
  intro a ha
  have hcases : a.vout = 1 ∨ a.vout = 2 := by
    have h : a ∈ [(⟨1, 60000000000⟩ : TokenAllocation), ⟨2, 40000000000⟩] := ha
    simp only [List.mem_cons, List.not_mem_nil, or_false] at h
    rcases h with rfl | rfl
    · exact Or.inl rfl
    · exact Or.inr rfl
  rcases hcases with h | h
  · rw [h]
    exact ⟨_, rfl, rfl, by decide⟩
  · rw [h]
    exact ⟨_, rfl, rfl, by decide⟩

/-- The market accepts the fill when its coins suffice and are no vault. -/
theorem sampleFill_accepted {chain : List V3BlockInput} {σ : V3IndexerState} {db : Db}
    {a : V3TokenUtxo} (funds : List BuyerFundInput)
    (hl : Lockstep sampleCrypto sampleConfig chain σ db)
    (ha : σ.tokenUtxos.get alphaCarrier = some a) (htok : a.tokenId = alphaId)
    (hamt : a.amountAtoms = 100000000000)
    (hb : ActiveBlock sampleCrypto sampleConfig chain (fillBlock funds))
    (hfund : 98000 ≤ (funds.map BuyerFundInput.valueSats).sum)
    (hfunds : ∀ f ∈ funds, (∃ u, σ.tokenUtxos.get f.outpoint = some u) ∨
      f.outpoint.txid ∉ txidsOf sampleCrypto (chainTxs chain)) :
    ∃ r, validateFinalizedP2PFill sampleCrypto (fillTransaction funds) (fillTerms funds)
      (loadView db (fillTerms funds).tokenId (fillTerms funds).sourceTxid
        (fillTerms funds).sourceVout) = .ok r := by
  have hc := hb.consensus
  rw [chainTxs_append, fillBlock] at hc
  have hn := hc.inputs
  rw [fillTransaction_spends] at hn
  obtain ⟨hfee, hvalues⟩ := fillTransaction_fee hn hfund
  have hknown : (loadView db alphaId alphaCarrier.txid alphaCarrier.vout).knownInputs
      (fillTransaction funds).spends = [a.toTokenUtxo] := by
    rw [fillTransaction_spends]
    exact loadView_knownInputs hl.synced hl.inv ha htok hn
  have hsum : (((loadView db alphaId alphaCarrier.txid alphaCarrier.vout).knownInputs
      (fillTransaction funds).spends).map TokenUtxo.amountAtoms).sum = 100000000000 := by
    rw [hknown]
    simpa [V3TokenUtxo.toTokenUtxo] using hamt
  have htotal : sumAllocations (fillTerms funds).allocations = 100000000000 := rfl
  have hview : loadView db (fillTerms funds).tokenId (fillTerms funds).sourceTxid
      (fillTerms funds).sourceVout = loadView db alphaId alphaCarrier.txid alphaCarrier.vout := by
    simp only [fillTerms]
  rw [hview]
  refine ⟨_, validateFinalizedP2PFill_eq_ok.mpr ⟨alphaId, ?_, rfl⟩⟩
  constructor
  case source => simp [fillTransaction, fillTerms, P2PFillTerms.source, TxIn.outpoint]
  case transfer =>
    refine ⟨fillTransaction_wire funds, ?_, ?_, ?_, fillTransaction_carriers funds⟩
    · intro tok hmem
      rw [hknown] at hmem
      rw [List.mem_singleton.mp hmem]
      exact htok
    · rw [hsum]
      decide
    · rw [hsum, htotal]
  case minerFee => exact hfee
  case backing =>
    intro o ho
    rw [fillTransaction_spends] at ho
    apply snapshot_backing_ne hl.synced hl.inv
    rcases List.mem_cons.mp ho with rfl | ho
    · exact Or.inl ⟨a, ha⟩
    · obtain ⟨f, hf, rfl⟩ := List.mem_map.mp ho
      exact hfunds f hf
  case buyer => rfl
  case seller => exact fun _ => rfl
  case payout => exact ⟨_, rfl, rfl, rfl⟩
  case fee => exact ⟨_, rfl, rfl, rfl⟩
  case change => exact fun _ => rfl
  case bounded => exact Nat.le_refl 6
  case values => exact hvalues

/-- The block of either fill may follow the chain, which does not know the buyer's coin. -/
theorem fillBlocks_active : (ActiveBlock sampleCrypto sampleConfig [bothDeployed, bothMinted]
      (fillBlock [buyerCoin]) ∧
    ActiveBlock sampleCrypto sampleConfig [bothDeployed, bothMinted]
      (fillBlock [buyerCoin, betaCoin])) ∧
    buyerCoin.outpoint.txid ∉ txidsOf sampleCrypto (chainTxs [bothDeployed, bothMinted]) := by
  decide +kernel

theorem fillBlock_active : ActiveBlock sampleCrypto sampleConfig [bothDeployed, bothMinted]
    (fillBlock [buyerCoin]) :=
  fillBlocks_active.1.1

theorem mixedFillBlock_active : ActiveBlock sampleCrypto sampleConfig [bothDeployed, bothMinted]
    (fillBlock [buyerCoin, betaCoin]) :=
  fillBlocks_active.1.2

theorem buyerCoin_unseen : buyerCoin.outpoint.txid ∉
    txidsOf sampleCrypto (chainTxs [bothDeployed, bothMinted]) :=
  fillBlocks_active.2

/-- The buyer pays with a plain coin: the fill settles. -/
theorem fill_admission_sample : ∃ σ σ',
    Reachable sampleCrypto sampleConfig [bothDeployed, bothMinted] σ ∧
    FillSettles sampleCrypto sampleConfig σ (fillBlock [buyerCoin]) (fillTransaction [buyerCoin])
      (fillTerms [buyerCoin]) σ' := by
  obtain ⟨σ, a, -, hσ, ha, htok, hamt, -⟩ := bothMinted_live
  obtain ⟨db, hl⟩ := hσ.lockstep
  obtain ⟨r, hr⟩ := sampleFill_accepted [buyerCoin] hl ha htok hamt fillBlock_active
    (by decide) (by
      intro f hf
      rw [List.mem_singleton.mp hf]
      exact Or.inr buyerCoin_unseen)
  have honly : OnlySource σ.toLedger (fillTransaction [buyerCoin])
      (fillTerms [buyerCoin]).source := by
    intro o ho hne
    rw [fillTransaction_spends] at ho
    rcases List.mem_cons.mp ho with rfl | ho
    · exact absurd (fillTerms_source _).symm hne
    · rw [List.mem_singleton.mp ho]
      by_contra hlive
      obtain ⟨u, hu⟩ := Option.ne_none_iff_exists'.mp hlive
      exact buyerCoin_unseen (hl.inv.ledger.carrier_seen _ u hu)
  obtain ⟨σ', hs⟩ := (fill_admission_iff hl fillBlock_active rfl hr).mpr honly
  exact ⟨σ, σ', hσ, hs⟩

/-- The buyer pays with a lot of BETA as well: the market accepts the fill, and the indexer does
not record it as valid. -/
theorem mixed_fill_accepted : ∃ σ db r,
    Lockstep sampleCrypto sampleConfig [bothDeployed, bothMinted] σ db ∧
    ActiveBlock sampleCrypto sampleConfig [bothDeployed, bothMinted]
      (fillBlock [buyerCoin, betaCoin]) ∧
    validateFinalizedP2PFill sampleCrypto (fillTransaction [buyerCoin, betaCoin])
      (fillTerms [buyerCoin, betaCoin])
      (loadView db (fillTerms [buyerCoin, betaCoin]).tokenId
        (fillTerms [buyerCoin, betaCoin]).sourceTxid
        (fillTerms [buyerCoin, betaCoin]).sourceVout) = .ok r ∧
    ¬ ∃ σ', RecordsValid sampleCrypto sampleConfig σ (fillBlock [buyerCoin, betaCoin])
      (fillTransaction [buyerCoin, betaCoin]) .transfer alphaId σ' := by
  obtain ⟨σ, a, b, hσ, ha, htok, hamt, hb, hbtok, -⟩ := bothMinted_live
  obtain ⟨db, hl⟩ := hσ.lockstep
  obtain ⟨r, hr⟩ := sampleFill_accepted [buyerCoin, betaCoin] hl ha htok hamt
    mixedFillBlock_active (by decide) (by
      intro f hf
      simp only [List.mem_cons, List.not_mem_nil, or_false] at hf
      rcases hf with rfl | rfl
      · exact Or.inr buyerCoin_unseen
      · exact Or.inl ⟨b, betaCoin_outpoint ▸ hb⟩)
  refine ⟨σ, db, r, hl, mixedFillBlock_active, hr, ?_⟩
  intro hrec
  obtain ⟨σ', h⟩ := hrec
  have hown := onlySpends_of_recorded mixedFillBlock_active rfl
    (decodeCoveOpReturnTx_parses (fillTransaction_wire _)) h
  have hne : betaId ≠ alphaId := by decide
  have hbeta : b.tokenId = alphaId := by
    apply hown betaCarrier _ b hb
    rw [fillTransaction_spends, ← betaCoin_outpoint]
    simp
  exact hne (hbtok.symm.trans hbeta)

end Cove
