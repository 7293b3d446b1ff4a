import Cove.Market.Tasks

/-! What each write does to the rows it finds, and which rows it adds. -/

namespace Cove

open Checked

/-- A fill's row after a write. -/
def Write.onFill (cfg : MarketConfig) (now : Nat) : Write → Nat → Fill → Fill
  | .createListing _ _, _, f => f
  | .cancelListing listingId _, _, f =>
    if f.listingId = listingId ∧ f.status.awaiting then f.set .cancelled else f
  | .reserveListing _ _ _ _, _, f => f
  | .buildFillPsbt fillId psbt minerFeeSats extraCarrierSats marketFeeSats, k, f =>
    if k = fillId then
      { f with psbt := some psbt, minerFeeSats, extraCarrierSats, marketFeeSats,
               status := .psbtBuilt }
    else f
  | .submitBuyerSignedPsbt fillId psbt, k, f =>
    if k = fillId then
      { f with psbt := some psbt, status := .buyerSigned,
               reservationExpiresAt := some (now + cfg.sellerSignTtlSeconds * 1000) }
    else f
  | .submitSellerSignedPsbt fillId psbt, k, f =>
    if k = fillId then { f with psbt := some psbt, status := .sellerSigned } else f
  | .finalizeP2PFill fillId txid, k, f => if k = fillId then { f with txid := some txid } else f
  | .broadcastP2PFill v, k, f =>
    if k = v.fillId then { f with status := .broadcast, txid := some v.txid } else f
  | .promoteFill fillId _ _ _ _, k, f => if k = fillId then f.set .confirmed else f
  | .reorgFill fillId _, k, f => if k = fillId then f.set .reorged else f
  | .invalidateListing listingId, _, f =>
    if f.listingId = listingId ∧ f.status.live then f.set .failed else f
  | .reactivateListing _, _, f => f
  | .rependFill listingId txid, _, f =>
    if f.listingId = listingId ∧ f.txid = some txid then f.set .broadcast else f
  | .expireFill fillId _, k, f => if k = fillId then f.set .expired else f
  | .expireListing _, _, f => f

/-- A listing's row after a write. -/
def Write.onListing : Write → Bytes → Listing → Listing
  | .cancelListing listingId _, k, l => if k = listingId then l.set .cancelled else l
  | .reserveListing _ input _ _, k, l => if k = input.listingId then l.set .reserved else l
  | .broadcastP2PFill v, k, l => if k = v.listingId then l.set .broadcast else l
  | .promoteFill _ fill _ _ _, k, l => if k = fill.listingId then l.set .filled else l
  | .reorgFill _ fill, k, l => if k = fill.listingId then l.set .reorged else l
  | .invalidateListing listingId, k, l => if k = listingId then l.set .invalidated else l
  | .reactivateListing listingId, k, l => if k = listingId then l.set .active else l
  | .rependFill listingId _, k, l => if k = listingId then l.set .broadcast else l
  | .expireFill _ listingId, k, l =>
    if k = listingId ∧ l.status = .reserved then l.set .active else l
  | .expireListing listingId, k, l => if k = listingId then l.set .expired else l
  | _, _, l => l

section

variable {cfg : MarketConfig} {c : ChainView} {db db' : MarketDb} {w : Write}

theorem setFill_get {rows : MarketRows} {fillId k : Nat} {f : Fill → Fill} :
    (rows.setFill fillId f).fills.get k =
      (rows.fills.get k).map fun r => if k = fillId then f r else r := by
  rw [MarketRows.setFill, Table.get_update]
  split <;> simp

theorem setListing_get {rows : MarketRows} {listingId k : Bytes} {s : ListingStatus} :
    (rows.setListing listingId s).listings.get k =
      (rows.listings.get k).map fun l => if k = listingId then l.set s else l := by
  rw [MarketRows.setListing, Table.get_update]
  split <;> simp

theorem createListing_eq_ok {listingId : Bytes} {input : ListingV1}
    (h : createListing listingId input db = .ok db') :
    db.listings.get listingId = none ∧ db'.toMarketRows =
      { db.toMarketRows with listings := db.listings.set listingId ⟨input, .active⟩ } := by
  simp only [createListing, bind_eq_ok, ensure_eq_ok] at h
  obtain ⟨_, hnone, hcommit⟩ := h
  exact ⟨hnone, commit_eq_ok hcommit⟩

theorem cancelListing_eq_ok {listingId cancelHash : Bytes}
    (h : cancelListing listingId cancelHash db = .ok db') :
    (∃ row, db.listings.get listingId = some row ∧ row.status ≠ .filled ∧
      row.status ≠ .cancelled) ∧
    db'.toMarketRows = { db.toMarketRows.setListing listingId .cancelled with
      cancellations := (listingId, cancelHash) :: db.cancellations
      fills := Table.updateWhere db.fills
        (fun f => f.listingId = listingId ∧ f.status.awaiting) (Fill.set .cancelled) } := by
  simp only [cancelListing, bind_eq_ok, demand_eq_ok, ensure_eq_ok] at h
  obtain ⟨row, hrow, _, hstatus, _, -, hcommit⟩ := h
  exact ⟨⟨row, hrow, hstatus⟩, commit_eq_ok hcommit⟩

/-- A reservation takes an ACTIVE listing and adds one RESERVED fill. -/
theorem reserveListing_eq_ok {fillId : Nat} {input : ReserveListingInput} {tip : Int}
    {startedAt : Nat} (h : reserveListing cfg c fillId input tip startedAt db = .ok db') :
    ∃ row fill, db.listings.get input.listingId = some row ∧ row.status = .active ∧
      db.fills.get fillId = none ∧ fill.listingId = input.listingId ∧ fill.status = .reserved ∧
      fill.txid = none ∧
      db'.toMarketRows = { db.toMarketRows.setListing input.listingId .reserved with
        fills := db.fills.set fillId fill } := by
  simp only [reserveListing, Table.insert, bind_eq_ok, demand_eq_ok, ensure_eq_ok, pure_eq_ok] at h
  obtain ⟨row, hrow, _, hactive, _, -, _, -, fee, -, _, ⟨_, hnone, rfl⟩, hcommit⟩ := h
  exact ⟨row, _, hrow, hactive, hnone, rfl, rfl, rfl, commit_eq_ok hcommit⟩

theorem promoteFill_eq_ok {fillId : Nat} {fill : Fill} {listing : ListingV1} {utxo : UtxoRow}
    {tip : Int} (h : promoteFill fillId fill listing utxo tip db = .ok db') :
    ∃ txid trades, fill.txid = some txid ∧
      trades = Table.upsert db.trades txid (tradeOf fillId fill listing
          (utxo.spentHeight.elim tip fun h => (h : Int)) utxo.spentBlockHash)
        (fun t => { t with canonical := true
                           blockHeight := utxo.spentHeight.elim tip fun h => (h : Int)
                           blockHash := utxo.spentBlockHash }) ∧
      db'.toMarketRows = { (db.toMarketRows.setFill fillId (Fill.set .confirmed)).setListing
        fill.listingId .filled with trades } := by
  simp only [promoteFill, ensureTrade, bind_eq_ok, demand_eq_ok, pure_eq_ok] at h
  obtain ⟨_, ⟨txid, htxid, rfl⟩, hcommit⟩ := h
  exact ⟨txid, _, htxid, rfl, commit_eq_ok hcommit⟩

/-- A reservation's fill: the listing was ACTIVE, and the row is new. -/
structure Reserves (db db' : MarketDb) (w : Write) (fillId : Nat) (fill : Fill) : Prop where
  input : ∃ input tip startedAt row, w = .reserveListing fillId input tip startedAt ∧
    db.listings.get input.listingId = some row ∧ row.status = .active ∧
    fill.listingId = input.listingId
  fresh : db.fills.get fillId = none
  added : db'.fills.get fillId = some fill
  reserved : fill.status = .reserved
  unsent : fill.txid = none

/-- The fills after a write: the same ones, changed as `onFill` says, and a reserved one. -/
theorem Write.run_fills (h : w.run cfg c db = .ok db') (k : Nat) :
    db'.fills.get k = (db.fills.get k).map (w.onFill cfg c.now k) ∨
      ∃ fill, Reserves db db' w k fill := by
  cases w with
  | createListing listingId input =>
    obtain ⟨-, hrows⟩ := createListing_eq_ok h
    left
    rw [congrArg MarketRows.fills hrows]
    cases db.fills.get k <;> rfl
  | cancelListing listingId cancelHash =>
    obtain ⟨-, hrows⟩ := cancelListing_eq_ok h
    left
    rw [congrArg MarketRows.fills hrows]
    cases hf : db.fills.get k <;> simp [Table.get_updateWhere, hf, onFill]
  | reserveListing fillId input tip startedAt =>
    obtain ⟨row, fill, hrow, hactive, hnone, hid, hstatus, htxid, hrows⟩ := reserveListing_eq_ok h
    have hfills := congrArg MarketRows.fills hrows
    by_cases hk : k = fillId
    · subst hk
      refine Or.inr ⟨fill, ⟨input, tip, startedAt, row, rfl, hrow, hactive, hid⟩, hnone, ?_, hstatus,
        htxid⟩
      rw [hfills]
      exact Dict.get_set_self _ _ _
    · left
      rw [hfills, Dict.get_set_ne _ _ hk]
      cases db.fills.get k <;> rfl
  | promoteFill fillId fill listing utxo tip =>
    obtain ⟨txid, trades, -, -, hrows⟩ := promoteFill_eq_ok h
    left
    rw [congrArg MarketRows.fills hrows]
    exact setFill_get
  | invalidateListing | rependFill =>
    left
    rw [congrArg MarketRows.fills (commit_eq_ok h)]
    cases hf : db.fills.get k <;> simp [Table.get_updateWhere, hf, onFill]
  | reactivateListing | expireListing =>
    left
    rw [congrArg MarketRows.fills (commit_eq_ok h)]
    show db.fills.get k = _
    cases db.fills.get k <;> rfl
  | buildFillPsbt | submitBuyerSignedPsbt | submitSellerSignedPsbt | finalizeP2PFill
  | broadcastP2PFill | reorgFill | expireFill =>
    left
    rw [congrArg MarketRows.fills (commit_eq_ok h)]
    exact setFill_get

/-- The listings after a write: the same ones, changed as `onListing` says, and a new one. -/
theorem Write.run_listings (h : w.run cfg c db = .ok db') (k : Bytes) :
    db'.listings.get k = (db.listings.get k).map (w.onListing k) ∨
      ∃ input, w = .createListing k input ∧ db.listings.get k = none ∧
        db'.listings.get k = some ⟨input, .active⟩ := by
  cases w with
  | createListing listingId input =>
    obtain ⟨hnone, hrows⟩ := createListing_eq_ok h
    have hlistings := congrArg MarketRows.listings hrows
    by_cases hk : k = listingId
    · subst hk
      right
      refine ⟨input, rfl, hnone, ?_⟩
      rw [hlistings]
      exact Dict.get_set_self _ _ _
    · left
      rw [hlistings, Dict.get_set_ne _ _ hk]
      cases db.listings.get k <;> rfl
  | cancelListing listingId cancelHash =>
    obtain ⟨-, hrows⟩ := cancelListing_eq_ok h
    left
    rw [congrArg MarketRows.listings hrows]
    exact setListing_get
  | reserveListing fillId input tip startedAt =>
    obtain ⟨row, fill, -, -, -, -, -, -, hrows⟩ := reserveListing_eq_ok h
    left
    rw [congrArg MarketRows.listings hrows]
    exact setListing_get
  | promoteFill fillId fill listing utxo tip =>
    obtain ⟨txid, trades, -, -, hrows⟩ := promoteFill_eq_ok h
    left
    rw [congrArg MarketRows.listings hrows]
    exact setListing_get
  | expireFill fillId listingId =>
    left
    rw [congrArg MarketRows.listings (commit_eq_ok h)]
    refine (Table.get_update _ _ _ _).trans ?_
    by_cases hk : k = listingId
    · cases hl : db.listings.get k <;> simp [hk, onListing]
    · cases hl : db.listings.get k <;> simp [hk, onListing]
  | invalidateListing | rependFill | reactivateListing | expireListing | broadcastP2PFill
  | reorgFill =>
    left
    rw [congrArg MarketRows.listings (commit_eq_ok h)]
    exact setListing_get
  | buildFillPsbt | submitBuyerSignedPsbt | submitSellerSignedPsbt | finalizeP2PFill =>
    left
    rw [congrArg MarketRows.listings (commit_eq_ok h)]
    show db.listings.get k = _
    cases db.listings.get k <;> rfl

/-- A fill keeps its listing. -/
theorem Write.onFill_listingId (k : Nat) (f : Fill) :
    (w.onFill cfg c.now k f).listingId = f.listingId := by
  cases w <;> simp only [onFill] <;> split <;> rfl

/-- A listing keeps its terms. -/
theorem Write.onListing_terms (k : Bytes) (l : Listing) :
    (w.onListing k l).toListingV1 = l.toListingV1 := by
  cases w <;> simp only [onListing] <;> split <;> rfl

/-- A fill that is there stays there. -/
theorem Write.run_fill (h : w.run cfg c db = .ok db') {k : Nat} {f : Fill}
    (hf : db.fills.get k = some f) : db'.fills.get k = some (w.onFill cfg c.now k f) := by
  rcases w.run_fills h k with heq | ⟨fill, hres⟩
  · rw [heq, hf]
    rfl
  · rw [hres.fresh] at hf
    cases hf

theorem Write.run_listing (h : w.run cfg c db = .ok db') {k : Bytes} {l : Listing}
    (hl : db.listings.get k = some l) : db'.listings.get k = some (w.onListing k l) := by
  rcases w.run_listings h k with heq | ⟨_, -, hnone, -⟩
  · rw [heq, hl]
    rfl
  · rw [hnone] at hl
    cases hl

/-- A fill found after a write was there before it, or has just been reserved. -/
theorem Write.run_fill_cases (h : w.run cfg c db = .ok db') {k : Nat} {f' : Fill}
    (hf' : db'.fills.get k = some f') :
    (∃ f, db.fills.get k = some f ∧ f' = w.onFill cfg c.now k f) ∨ Reserves db db' w k f' := by
  rcases w.run_fills h k with heq | ⟨fill, hres⟩
  · rw [heq] at hf'
    obtain ⟨f, hf, rfl⟩ := Option.map_eq_some_iff.mp hf'
    exact Or.inl ⟨f, hf, rfl⟩
  · right
    obtain rfl : f' = fill := Option.some.inj (hf'.symm.trans hres.added)
    exact hres

theorem Write.run_listing_cases (h : w.run cfg c db = .ok db') {k : Bytes} {l' : Listing}
    (hl' : db'.listings.get k = some l') :
    (∃ l, db.listings.get k = some l ∧ l' = w.onListing k l) ∨
      ∃ input, w = .createListing k input ∧ db.listings.get k = none ∧ l' = ⟨input, .active⟩ := by
  rcases w.run_listings h k with heq | ⟨input, hw, hnone, hnew⟩
  · rw [heq] at hl'
    obtain ⟨l, hl, rfl⟩ := Option.map_eq_some_iff.mp hl'
    exact Or.inl ⟨l, hl, rfl⟩
  · exact Or.inr ⟨input, hw, hnone, Option.some.inj (hl'.symm.trans hnew)⟩

end

/-! The rows a task is about. -/

section

variable (F : Nat → Bytes → Prop) (L : Bytes → Prop)

/-- Every fill a write is about satisfies `F` with its listing, and every listing `L`. The writes
that look at the listing's status again are left out. -/
def Write.ForRows : Write → Prop
  | .createListing _ _ => True
  | .cancelListing _ _ => True
  | .reserveListing _ _ _ _ => True
  | .buildFillPsbt fillId _ _ _ _ => ∃ listingId, F fillId listingId
  | .submitBuyerSignedPsbt fillId _ => ∃ listingId, F fillId listingId
  | .submitSellerSignedPsbt fillId _ => ∃ listingId, F fillId listingId
  | .finalizeP2PFill fillId _ => ∃ listingId, F fillId listingId
  | .broadcastP2PFill v => F v.fillId v.listingId
  | .promoteFill fillId fill _ _ _ => F fillId fill.listingId
  | .reorgFill fillId fill => F fillId fill.listingId
  | .invalidateListing listingId => L listingId
  | .reactivateListing listingId => L listingId
  | .rependFill listingId _ => L listingId
  | .expireFill fillId listingId => F fillId listingId
  | .expireListing listingId => L listingId

def Task.ForRows : Task → Prop
  | .done => True
  | .write w next => w.ForRows F L ∧ next.ForRows
  | .build fillId fill _ => F fillId fill.listingId
  | .countersign fillId fill _ => F fillId fill.listingId
  | .validate fillId fill => F fillId fill.listingId
  | .validated v => F v.fillId v.listingId
  | .reconcile _ => True
  | .promote _ fills => ∀ e ∈ fills, F e.1 e.2.listingId
  | .reorg _ fills => ∀ e ∈ fills, F e.1 e.2.listingId
  | .survey _ listings => ∀ e ∈ listings, L e.1
  | .surveySpent _ listingId _ rest => L listingId ∧ ∀ e ∈ rest, L e.1
  | .surveyTxout _ listingId _ rest => L listingId ∧ ∀ e ∈ rest, L e.1
  | .surveyLatest _ listingId _ rest => L listingId ∧ ∀ e ∈ rest, L e.1
  | .surveyMempool _ listingId _ _ rest => L listingId ∧ ∀ e ∈ rest, L e.1
  | .sweep _ fills => ∀ e ∈ fills, F e.1 e.2.listingId
  | .sweepFunds _ fillId fill _ rest => F fillId fill.listingId ∧ ∀ e ∈ rest, F e.1 e.2.listingId
  | .expireListings _ listings => ∀ e ∈ listings, L e.1
  | .expireFills _ fills => ∀ e ∈ fills, F e.1 e.2.listingId

variable {F L}

theorem Write.ForRows.mono {F' : Nat → Bytes → Prop} {L' : Bytes → Prop} {w : Write}
    (h : w.ForRows F L) (hF : ∀ k l, F k l → F' k l) (hL : ∀ l, L l → L' l) : w.ForRows F' L' := by
  cases w with
  | createListing | cancelListing | reserveListing => trivial
  | buildFillPsbt | submitBuyerSignedPsbt | submitSellerSignedPsbt | finalizeP2PFill =>
    obtain ⟨listingId, h⟩ := h
    exact ⟨listingId, hF _ _ h⟩
  | broadcastP2PFill | promoteFill | reorgFill | expireFill => exact hF _ _ h
  | invalidateListing | reactivateListing | rependFill | expireListing => exact hL _ h

theorem Task.ForRows.mono {F' : Nat → Bytes → Prop} {L' : Bytes → Prop} {t : Task}
    (h : t.ForRows F L) (hF : ∀ k l, F k l → F' k l) (hL : ∀ l, L l → L' l) : t.ForRows F' L' := by
  induction t with
  | done | reconcile => trivial
  | write w next ih => exact ⟨h.1.mono hF hL, ih h.2⟩
  | build | countersign | validate | validated => exact hF _ _ h
  | promote | reorg | sweep | expireFills => exact fun e he => hF _ _ (h e he)
  | survey | expireListings => exact fun e he => hL _ (h e he)
  | surveySpent | surveyTxout | surveyLatest | surveyMempool =>
    exact ⟨hL _ h.1, fun e he => hL _ (h.2 e he)⟩
  | sweepFunds => exact ⟨hF _ _ h.1, fun e he => hF _ _ (h.2 e he)⟩

section

variable {env : MarketEnv} {c : ChainView} {order : RowOrder} {db : MarketDb}

theorem selectRows_mem {K R : Type} [DecidableEq K] {order : List K} {t : Dict K R} {p : R → Bool}
    {rows : List (K × R)} (h : selectRows order t p = .ok rows) {k : K} {r : R} :
    (k, r) ∈ rows ↔ t.get k = some r ∧ p r = true :=
  (Table.select_eq_some ((demand_eq_ok _ _ _).mp h)).1 k r

theorem validateFill_ids {fillId : Nat} {fill : Fill} {v : ValidatedP2PFill}
    (h : validateFill env c db fillId fill = .ok v) :
    v.fillId = fillId ∧ v.listingId = fill.listingId := by
  simp only [validateFill, bind_eq_ok, demand_eq_ok] at h
  obtain ⟨_, -, listing, -, _, -, tx, -, hv⟩ := h
  obtain ⟨tokenId, -, rfl⟩ := validateFinalizedP2PFill_eq_ok.mp hv
  exact ⟨rfl, rfl⟩

variable (hF : ∀ k f, db.fills.get k = some f → f.status.engaged → F k f.listingId)
  (hL : ∀ k l, db.listings.get k = some l → l.status.isOpen → L k)

include hF in
theorem selected_fills {rows : List (Nat × Fill)} {p : Fill → Bool}
    (h : selectRows order.fills db.fills p = .ok rows) (hp : ∀ f, p f = true → f.status.engaged) :
    ∀ e ∈ rows, F e.1 e.2.listingId := by
  intro e he
  obtain ⟨hget, htest⟩ := (selectRows_mem h).mp he
  exact hF e.1 e.2 hget (hp e.2 htest)

include hL in
theorem selected_listings {rows : List (Bytes × Listing)} {p : Listing → Bool}
    (h : selectRows order.listings db.listings p = .ok rows)
    (hp : ∀ l, p l = true → l.status.isOpen) : ∀ e ∈ rows, L e.1 := by
  intro e he
  obtain ⟨hget, htest⟩ := (selectRows_mem h).mp he
  exact hL e.1 e.2 hget (hp e.2 htest)

include hF hL in
/-- A read adds to a task only rows that hold a listing or are open. -/
theorem Task.read_forRows {t t' : Task} (ht : t.ForRows F L)
    (h : t.read env c order db = .ok t') : t'.ForRows F L := by
  cases t with
  | done | write =>
    simp only [read, Except.ok.injEq] at h
    rw [← h]
    exact ht
  | build fillId fill built =>
    simp only [read, bind_eq_ok, demand_eq_ok, pure_eq_ok, Prod.exists] at h
    obtain ⟨listing, -, _, _, -, rfl⟩ := h
    exact ⟨⟨_, ht⟩, trivial⟩
  | countersign fillId fill psbt =>
    simp only [read, bind_eq_ok, demand_eq_ok, pure_eq_ok] at h
    obtain ⟨listing, -, _, -, rfl⟩ := h
    exact ⟨⟨_, ht⟩, trivial⟩
  | validate fillId fill =>
    simp only [read, bind_eq_ok, pure_eq_ok] at h
    obtain ⟨v, hv, rfl⟩ := h
    obtain ⟨hid, hlisting⟩ := validateFill_ids hv
    refine ⟨⟨_, ht⟩, ?_⟩
    show F v.fillId v.listingId
    rw [hid, hlisting]
    exact ht
  | validated v =>
    simp only [read, Except.ok.injEq] at h
    rw [← h]
    exact ⟨ht, trivial⟩
  | reconcile clock =>
    simp only [read, bind_eq_ok, pure_eq_ok] at h
    obtain ⟨rows, hrows, rfl⟩ := h
    refine selected_fills hF hrows ?_
    intro f hf
    exact Or.inl (Or.inr (of_decide_eq_true hf))
  | promote clock fills =>
    cases fills with
    | nil =>
      simp only [read, bind_eq_ok, pure_eq_ok] at h
      obtain ⟨rows, hrows, rfl⟩ := h
      refine selected_fills hF hrows ?_
      intro f hf
      exact Or.inr (of_decide_eq_true hf)
    | cons e rest =>
      obtain ⟨fillId, fill⟩ := e
      have hhead := ht _ List.mem_cons_self
      have hrest : ∀ e ∈ rest, F e.1 e.2.listingId := fun e he => ht e (List.mem_cons_of_mem _ he)
      simp only [read] at h
      split at h
      · rw [← Except.ok.inj h]
        exact hrest
      · split at h
        · rw [← Except.ok.inj h]
          exact ⟨hhead, hrest⟩
        · rw [← Except.ok.inj h]
          exact hrest
  | reorg clock fills =>
    cases fills with
    | nil =>
      simp only [read, bind_eq_ok, pure_eq_ok] at h
      obtain ⟨rows, hrows, rfl⟩ := h
      refine selected_listings hL hrows ?_
      intro l hl
      exact of_decide_eq_true hl
    | cons e rest =>
      obtain ⟨fillId, fill⟩ := e
      have hhead := ht _ List.mem_cons_self
      have hrest : ∀ e ∈ rest, F e.1 e.2.listingId := fun e he => ht e (List.mem_cons_of_mem _ he)
      simp only [read] at h
      split at h
      · rw [← Except.ok.inj h]
        exact hrest
      · split at h
        · rw [← Except.ok.inj h]
          exact hrest
        · rw [← Except.ok.inj h]
          exact ⟨hhead, hrest⟩
  | survey clock listings =>
    cases listings with
    | nil =>
      simp only [read, bind_eq_ok, pure_eq_ok] at h
      obtain ⟨rows, hrows, rfl⟩ := h
      refine selected_fills hF hrows ?_
      intro f hf
      exact Or.inl (Or.inl (Or.inr (Or.inr (Or.inl (of_decide_eq_true hf)))))
    | cons e rest =>
      obtain ⟨listingId, listing⟩ := e
      have hhead := ht _ List.mem_cons_self
      have hrest : ∀ e ∈ rest, L e.1 := fun e he => ht e (List.mem_cons_of_mem _ he)
      simp only [read] at h
      split at h
      · rw [← Except.ok.inj h]
        exact ⟨hhead, hrest⟩
      · rw [← Except.ok.inj h]
        exact ⟨hhead, hrest⟩
  | surveySpent clock listingId spentByTxid rest =>
    simp only [read] at h
    split at h
    · rw [← Except.ok.inj h]
      exact ht.2
    · rw [← Except.ok.inj h]
      exact ht
  | surveyTxout clock listingId listing rest =>
    simp only [read] at h
    split at h
    · split at h
      · rw [← Except.ok.inj h]
        exact ht
      · rw [← Except.ok.inj h]
        exact ht.2
    · rw [← Except.ok.inj h]
      exact ht
  | surveyLatest clock listingId listing rest =>
    simp only [read, bind_eq_ok, pure_eq_ok] at h
    obtain ⟨rows, -, rfl⟩ := h
    exact ht
  | surveyMempool clock listingId listing ourTxid rest =>
    simp only [read] at h
    split at h
    · split at h
      · rw [← Except.ok.inj h]
        exact ht
      · rw [← Except.ok.inj h]
        exact ht.2
    · rw [← Except.ok.inj h]
      exact ht
  | sweep clock fills =>
    cases fills with
    | nil =>
      simp only [read, bind_eq_ok, pure_eq_ok] at h
      obtain ⟨rows, hrows, rfl⟩ := h
      refine selected_listings hL hrows ?_
      intro l hl
      exact Or.inl (Or.inl (of_decide_eq_true hl).1)
    | cons e rest =>
      obtain ⟨fillId, fill⟩ := e
      simp only [read, Except.ok.injEq] at h
      rw [← h]
      exact ⟨ht _ List.mem_cons_self, fun e he => ht e (List.mem_cons_of_mem _ he)⟩
  | sweepFunds clock fillId fill inputs rest =>
    cases inputs with
    | nil =>
      simp only [read, Except.ok.injEq] at h
      rw [← h]
      exact ht.2
    | cons i inputs =>
      simp only [read] at h
      split at h
      · rw [← Except.ok.inj h]
        exact ht
      · rw [← Except.ok.inj h]
        exact ht
  | expireListings clock listings =>
    cases listings with
    | nil =>
      simp only [read, bind_eq_ok, pure_eq_ok] at h
      obtain ⟨rows, hrows, rfl⟩ := h
      refine selected_fills hF hrows ?_
      intro f hf
      exact Or.inl (Or.inl (of_decide_eq_true hf).1)
    | cons e rest =>
      obtain ⟨listingId, listing⟩ := e
      simp only [read, Except.ok.injEq] at h
      rw [← h]
      exact ⟨ht _ List.mem_cons_self, fun e he => ht e (List.mem_cons_of_mem _ he)⟩
  | expireFills clock fills =>
    cases fills with
    | nil =>
      simp only [read, Except.ok.injEq] at h
      rw [← h]
      trivial
    | cons e rest =>
      obtain ⟨fillId, fill⟩ := e
      simp only [read, Except.ok.injEq] at h
      rw [← h]
      exact ⟨ht _ List.mem_cons_self, fun e he => ht e (List.mem_cons_of_mem _ he)⟩

include hF in
theorem loadFill_forRows {fillId : Nat} {allowed : FillStatus → Bool} {fill : Fill}
    (h : loadFill db fillId allowed = .ok fill) (hlive : ∀ s, allowed s = true → s.live) :
    F fillId fill.listingId := by
  simp only [loadFill, bind_eq_ok, demand_eq_ok, ensure_eq_ok, pure_eq_ok] at h
  obtain ⟨f, hf, _, hallowed, rfl⟩ := h
  exact hF fillId f hf (Or.inl (hlive _ hallowed))

include hF in
/-- A request that begins is about a fill that holds its listing. -/
theorem Request.begin_forRows {r : Request} {t : Task} (h : r.begin env c db = .ok t) :
    t.ForRows F L := by
  cases r with
  | createListing listingId input =>
    simp only [begin, bind_eq_ok, pure_eq_ok] at h
    obtain ⟨_, -, rfl⟩ := h
    exact ⟨trivial, trivial⟩
  | cancelListing listingId cancelHash =>
    simp only [begin, bind_eq_ok, pure_eq_ok] at h
    obtain ⟨_, -, rfl⟩ := h
    exact ⟨trivial, trivial⟩
  | reserveListing fillId input =>
    simp only [begin, bind_eq_ok, pure_eq_ok] at h
    obtain ⟨_, -, rfl⟩ := h
    exact ⟨trivial, trivial⟩
  | buildFillPsbt fillId built =>
    simp only [begin, bind_eq_ok, pure_eq_ok] at h
    obtain ⟨fill, hfill, rfl⟩ := h
    refine loadFill_forRows hF hfill ?_
    intro s hs
    rcases of_decide_eq_true hs with rfl | rfl <;> decide
  | submitBuyerSignedPsbt fillId psbt =>
    simp only [begin, bind_eq_ok, pure_eq_ok] at h
    obtain ⟨fill, hfill, rfl⟩ := h
    refine ⟨⟨_, loadFill_forRows hF hfill ?_⟩, trivial⟩
    intro s hs
    obtain rfl := of_decide_eq_true hs
    decide
  | submitSellerSignedPsbt fillId psbt =>
    simp only [begin, bind_eq_ok, pure_eq_ok] at h
    obtain ⟨fill, hfill, rfl⟩ := h
    refine loadFill_forRows hF hfill ?_
    intro s hs
    obtain rfl := of_decide_eq_true hs
    decide
  | finalizeP2PFill fillId =>
    simp only [begin, bind_eq_ok, pure_eq_ok] at h
    obtain ⟨fill, hfill, rfl⟩ := h
    refine loadFill_forRows hF hfill ?_
    intro s hs
    rcases of_decide_eq_true hs with rfl | rfl <;> decide
  | reconcileMarket =>
    cases h
    trivial

end

end

end Cove
