import Cove.Market.Reconcile

/-! What a run of `reconcileMarket` makes of the chain: closed listings and recorded trades. -/

namespace Cove

open Checked

/-- The transaction has a trade, and the trade counts. -/
def Recorded (db : MarketDb) (txid : Bytes) : Prop :=
  ∃ t, db.trades.get txid = some t ∧ t.canonical = true

/-- The tables agree with the chain: a listing whose source is spent cannot be taken, and a
transaction that settles a fill has its trade. -/
structure Reflects (c : ChainView) (db : MarketDb) : Prop where
  closed : ∀ id l txid, db.listings.get id = some l →
    confirmedSpender c l.toListingV1 = some txid → l.status ≠ .active ∧ l.status ≠ .reserved
  recorded : ∀ k f l txid, db.fills.get k = some f → db.listings.get f.listingId = some l →
    f.txid = some txid → confirmedSpender c l.toListingV1 = some txid → Recorded db txid

/-- Whether a transaction's trade counts after a write. -/
def Write.onRecorded (txid : Bytes) : Write → Prop → Prop
  | .promoteFill _ fill _ _ _, r => r ∨ fill.txid = some txid
  | .reorgFill _ fill, r => r ∧ fill.txid ≠ some txid
  | _, r => r

section

variable {env : MarketEnv} {cfg : MarketConfig} {c : ChainView} {db db' : MarketDb} {w : Write}
  {ws : List Write} {txid : Bytes}

theorem Write.run_recorded (hw : w.reconciles) (h : w.run cfg c db = .ok db') :
    Recorded db' txid ↔ w.onRecorded txid (Recorded db txid) := by
  cases w with
  | createListing | cancelListing | reserveListing | buildFillPsbt | submitBuyerSignedPsbt
  | submitSellerSignedPsbt | finalizeP2PFill | broadcastP2PFill => exact hw.elim
  | invalidateListing | reactivateListing | rependFill | expireFill | expireListing =>
    have htrades := congrArg MarketRows.trades (commit_eq_ok h)
    unfold Recorded
    rw [htrades]
    exact Iff.rfl
  | promoteFill fillId fill listing utxo tip =>
    obtain ⟨txid₀, trades, htxid, rfl, hrows⟩ := promoteFill_eq_ok h
    have htrades := congrArg MarketRows.trades hrows
    unfold Recorded
    simp only [htrades, Table.get_upsert, onRecorded, htxid, Option.some.injEq]
    by_cases heq : txid = txid₀
    · subst heq
      simp only [if_true, or_true, iff_true]
      cases db.trades.get txid <;> exact ⟨_, rfl, rfl⟩
    · simp only [if_neg heq, Ne.symm heq, or_false]
  | reorgFill fillId fill =>
    have htrades := congrArg MarketRows.trades (commit_eq_ok h)
    unfold Recorded
    rw [htrades]
    cases hfill : fill.txid with
    | none => simp [onRecorded, hfill]
    | some txid₀ =>
      simp only [onRecorded, hfill, Option.elim_some, Table.get_update]
      by_cases heq : txid = txid₀
      · subst heq
        simp
      · simp [heq, Ne.symm heq]

theorem runAll_recorded (hws : ∀ w ∈ ws, w.reconciles) (h : runAll cfg c ws db = .ok db') :
    Recorded db' txid ↔ ws.foldl (fun r w => w.onRecorded txid r) (Recorded db txid) := by
  induction ws generalizing db with
  | nil =>
    obtain rfl : db = db' := Except.ok.inj h
    exact Iff.rfl
  | cons w ws ih =>
    obtain ⟨db₁, hrun, hrest⟩ := runAll_cons_eq_ok.mp h
    rw [ih (fun w hw => hws w (List.mem_cons_of_mem _ hw)) hrest, List.foldl_cons,
      propext (w.run_recorded (hws w List.mem_cons_self) hrun)]

open Classical in
/-- A pass whose writes all make a trade count, or all make it not count. -/
theorem Pass.recorded {K R : Type} [DecidableEq K] {table : MarketDb → Dict K R} {p : R → Prop}
    {dec : MarketDb → K × R → Option Write} (h : Pass cfg c table p dec db db')
    (hrec : ∀ db a, ∀ w ∈ dec db a, w.reconciles) (hit : K × R → Prop) (v : Prop)
    (hact : ∀ e w, dec db e = some w → ∀ r, w.onRecorded txid r ↔ if hit e then v else r) :
    Recorded db' txid ↔
      if ∃ e, Calls table p dec db e ∧ hit e then v else Recorded db txid := by
  obtain ⟨rows, hrows, hruns⟩ := h
  have hws : ∀ w ∈ rows.filterMap (dec db), w.reconciles := by
    intro w hw
    obtain ⟨a, -, hdec⟩ := List.mem_filterMap.mp hw
    exact hrec db a w hdec
  rw [runAll_recorded hws hruns, Pass.foldl (P := fun _ => True) hrows
    (fun e w _ _ hdec r _ => propext (hact e w hdec r)) (fun _ _ => trivial) (fun _ _ => rfl) trivial]

/-- Promotion records the trades of the fills it promotes. -/
theorem Promotes.recorded (h : Promotes cfg c db db') :
    Recorded db' txid ↔ (∃ k f, db.fills.get k = some f ∧ f.status = .broadcast ∧ Mined c db f ∧
      f.txid = some txid) ∨ Recorded db txid := by
  rw [Pass.recorded h promoteWrite_reconciles (fun e => e.2.txid = some txid) True]
  · have hiff : (∃ e, Calls (fun db => db.fills) (fun f => f.status = .broadcast) (promoteWrite c)
        db e ∧ e.2.txid = some txid) ↔ ∃ k f, db.fills.get k = some f ∧ f.status = .broadcast ∧
          Mined c db f ∧ f.txid = some txid := by
      simp only [Calls, promoteWrite_ne_none, Prod.exists, and_assoc]
    rw [hiff]
    split <;> simp [*]
  · intro e w hdec r
    obtain ⟨_, _, rfl⟩ := promoteWrite_eq_some hdec
    simp only [Write.onRecorded]
    split <;> simp [*]

/-- A reorg strikes the trades of the fills it takes back. -/
theorem Reorgs.recorded (h : Reorgs cfg c db db') :
    Recorded db' txid ↔ Recorded db txid ∧ ¬ ∃ k f, db.fills.get k = some f ∧
      f.status = .confirmed ∧ Unmined c db f ∧ f.txid = some txid := by
  rw [Pass.recorded h reorgWrite_reconciles (fun e => e.2.txid = some txid) False]
  · have hiff : (∃ e, Calls (fun db => db.fills) (fun f => f.status = .confirmed) (reorgWrite c)
        db e ∧ e.2.txid = some txid) ↔ ∃ k f, db.fills.get k = some f ∧ f.status = .confirmed ∧
          Unmined c db f ∧ f.txid = some txid := by
      simp only [Calls, reorgWrite_ne_none, Prod.exists, and_assoc]
    rw [hiff]
    split
    · rename_i hex
      exact ⟨False.elim, fun hboth => hboth.2 hex⟩
    · rename_i hnone
      exact ⟨fun hr => ⟨hr, hnone⟩, fun hboth => hboth.1⟩
  · intro e w hdec r
    obtain rfl := reorgWrite_eq_some hdec
    simp only [Write.onRecorded]
    split <;> simp [*]

/-- The other passes leave the trades. -/
theorem Pass.recorded_kept {K R : Type} [DecidableEq K] {table : MarketDb → Dict K R}
    {p : R → Prop} {dec : MarketDb → K × R → Option Write} (h : Pass cfg c table p dec db db')
    (hrec : ∀ db a, ∀ w ∈ dec db a, w.reconciles)
    (hact : ∀ e w, dec db e = some w → ∀ r, w.onRecorded txid r ↔ r) :
    Recorded db' txid ↔ Recorded db txid := by
  rw [Pass.recorded h hrec (fun _ => False) True]
  · rw [if_neg fun hex => hex.choose_spec.2]
  · intro e w hdec r
    rw [hact e w hdec, if_neg not_false]

theorem Surveys.recorded (h : Surveys cfg c db db') : Recorded db' txid ↔ Recorded db txid := by
  refine Pass.recorded_kept h surveyWrite_reconciles ?_
  intro e w hdec r
  rcases surveyWrite_cases hdec with rfl | ⟨-, rfl⟩ | ⟨_, -, rfl⟩ <;> exact Iff.rfl

theorem Sweeps.recorded (h : Sweeps cfg c db db') : Recorded db' txid ↔ Recorded db txid := by
  refine Pass.recorded_kept h sweepWrite_reconciles ?_
  intro e w hdec r
  obtain rfl := sweepWrite_eq_some hdec
  exact Iff.rfl

theorem ExpiresListings.recorded (h : ExpiresListings cfg c db db') :
    Recorded db' txid ↔ Recorded db txid := by
  refine Pass.recorded_kept h expireListingWrite_reconciles ?_
  intro e w hdec r
  obtain rfl := Option.some.inj hdec
  exact Iff.rfl

theorem ExpiresFills.recorded (h : ExpiresFills cfg c db db') :
    Recorded db' txid ↔ Recorded db txid := by
  refine Pass.recorded_kept h expireFillWrite_reconciles ?_
  intro e w hdec r
  obtain rfl := Option.some.inj hdec
  exact Iff.rfl

end

/-! Listings whose source is spent. -/

/-- Nothing in the run but its own settlement closes the listing: it can be taken, no other fill of
it is CONFIRMED, and it does not expire. -/
structure StaysOpen (c : ChainView) (db : MarketDb) (id : Bytes) (l : Listing) (txid : Bytes) :
    Prop where
  taken : l.status = .active ∨ l.status = .reserved
  settled : ¬ HasFill db id fun f => f.status = .confirmed ∧ f.txid ≠ some txid
  lasts : ¬ (l.expiryHeight ≤ c.tip ∧ (l.status = .active ∨
    HasFill db id fun f => f.status = .buyerSigned ∧ FundsSpent c f.buyerFundInputs))

section

variable {env : MarketEnv} {cfg : MarketConfig} {c : ChainView} {db db₁ db₂ db₃ db₄ db₅ db' : MarketDb}
  {id txid : Bytes} {l : Listing} {f : Fill}

theorem spentBy_ne_none {l : ListingV1} (hs : confirmedSpender c l = some txid) (x : Option Bytes) :
    spentBy c l x ≠ none ↔ x = some txid := by
  obtain ⟨row, hrow, hspent⟩ := Option.bind_eq_some_iff.mp hs
  unfold spentBy
  rw [hrow, Option.filter_some]
  split
  · rename_i hx
    have heq : row.spentByTxid = x := of_decide_eq_true hx
    simp [← heq, hspent]
  · rename_i hx
    simp only [decide_eq_true_eq, hspent] at hx
    simp [Ne.symm hx]

section

variable (hl : db.listings.get id = some l) (hs : confirmedSpender c l.toListingV1 = some txid)

include hl hs

theorem mined_iff (hid : f.listingId = id) : Mined c db f ↔ f.txid = some txid := by
  rw [← spentBy_ne_none hs]
  unfold Mined
  rw [hid, hl]
  simp

theorem unmined_iff (hid : f.listingId = id) : Unmined c db f ↔ f.txid ≠ some txid := by
  rw [← not_iff_not, not_not, ← spentBy_ne_none hs]
  unfold Unmined
  rw [hid, hl]
  simp

end

theorem listingFillTxid_iff :
    listingFillTxid db id txid = true ↔ HasFill db id fun f => f.txid = some txid := decide_eq_true_iff

/-- A listing whose status is as a run may leave it with its source spent. -/
def TakenAt (db : MarketDb) (id : Bytes) : Prop :=
  ∃ l, db.listings.get id = some l ∧ (l.status = .active ∨ l.status = .reserved)

theorem takenAt_iff (hl : db.listings.get id = some l) :
    TakenAt db id ↔ l.status = .active ∨ l.status = .reserved := by
  constructor
  · intro ht
    obtain ⟨l', hl', hstatus⟩ := ht
    rw [Option.some.inj (hl.symm.trans hl')]
    exact hstatus
  · exact fun hstatus => ⟨l, hl, hstatus⟩

/-- The last two passes close an ACTIVE listing only as it expires. -/
theorem active_after_iff (hlistings : ExpiresListings cfg c db₄ db₅)
    (hfills : ExpiresFills cfg c db₅ db') (hl : db₄.listings.get id = some l)
    (ha : l.status = .active) : TakenAt db' id ↔ ¬ l.expiryHeight ≤ c.tip := by
  have h₅ := hlistings.listing hl
  by_cases hexp : l.expiryHeight ≤ c.tip
  · rw [if_pos ⟨ha, hexp⟩] at h₅
    have h' := hfills.listing h₅
    rw [release_of_ne (by simp), ite_self] at h'
    simp [takenAt_iff h', hexp]
  · rw [if_neg fun hcond => hexp hcond.2] at h₅
    have h' := hfills.listing h₅
    rw [release_of_ne (by simp [ha]), ite_self] at h'
    simp [takenAt_iff h', hexp, ha]

section

variable (hsweep : Sweeps cfg c db₃ db₄) (hlistings : ExpiresListings cfg c db₄ db₅)
  (hfills : ExpiresFills cfg c db₅ db') (hl : db₃.listings.get id = some l)

include hsweep hlistings hfills hl

/-- A listing that cannot be taken is left by the last passes. -/
theorem closed_kept (hc : ¬ (l.status = .active ∨ l.status = .reserved)) : ¬ TakenAt db' id := by
  have hr : l.status ≠ .reserved := fun h => hc (Or.inr h)
  have h₄ := hsweep.listing hl
  rw [release_of_ne hr, ite_self] at h₄
  have h₅ := hlistings.listing h₄
  rw [if_neg fun hcond => hc (Or.inl hcond.1)] at h₅
  have h' := hfills.listing h₅
  rw [release_of_ne hr, ite_self] at h'
  rw [takenAt_iff h']
  exact hc

/-- A listing that can be taken is closed by the last passes only as it expires. -/
theorem taken_after_iff (ht : l.status = .active ∨ l.status = .reserved) :
    TakenAt db' id ↔ ¬ (l.expiryHeight ≤ c.tip ∧ (l.status = .active ∨
      HasFill db₃ id fun f => f.status = .buyerSigned ∧ FundsSpent c f.buyerFundInputs)) := by
  have h₄ := hsweep.listing hl
  rcases ht with ha | hr
  · rw [release_of_ne (by simp [ha]), ite_self] at h₄
    rw [active_after_iff hlistings hfills h₄ ha]
    simp [ha]
  · have hna : l.status ≠ .active := by simp [hr]
    by_cases hdead : HasFill db₃ id fun f =>
        f.status = .buyerSigned ∧ FundsSpent c f.buyerFundInputs
    · rw [if_pos hdead] at h₄
      rw [release_of_reserved hr] at h₄
      rw [active_after_iff hlistings hfills h₄ rfl]
      simp [hdead, Listing.set]
    · rw [if_neg hdead] at h₄
      have h₅ := hlistings.listing h₄
      rw [if_neg fun hcond => hna hcond.1] at h₅
      have h' := hfills.listing h₅
      have htaken : TakenAt db' id := by
        refine (takenAt_iff h').mpr ?_
        split
        · rw [release_of_reserved hr]
          exact Or.inl rfl
        · exact Or.inr hr
      simp [htaken, hna, hdead]

end

section

variable (hsurvey : Surveys cfg c db₂ db₃) (hl : db₂.listings.get id = some l)
  (hs : confirmedSpender c l.toListingV1 = some txid)

include hs

/-- The survey leaves a listing spent by a transaction of its own. -/
theorem not_surveyed (hl : db₂.listings.get id = some l)
    (hours : HasFill db₂ id fun f => f.txid = some txid) (w : Write) : ¬ Surveyed c db₂ id w := by
  intro hsurveyed
  obtain ⟨l', hl', -, hw⟩ := hsurveyed
  obtain rfl : l = l' := Option.some.inj (hl.symm.trans hl')
  rw [surveyWrite_spent hs, if_pos (listingFillTxid_iff.mpr hours)] at hw
  cases hw

/-- The survey closes a listing spent by a transaction that is not one of its own. -/
theorem survey_closes (hsurvey : Surveys cfg c db₂ db₃) (hl : db₂.listings.get id = some l)
    (hours : ¬ HasFill db₂ id fun f => f.txid = some txid) :
    ∃ l', db₃.listings.get id = some l' ∧ ¬ (l'.status = .active ∨ l'.status = .reserved) := by
  by_cases hopen : l.status.isOpen
  · have hw : Surveyed c db₂ id (.invalidateListing id) := by
      refine ⟨l, hl, hopen, ?_⟩
      rw [surveyWrite_spent hs, if_neg fun h => hours (listingFillTxid_iff.mp h)]
    refine ⟨_, hsurvey.listing hl hw, ?_⟩
    simp [Write.onListing]
  · refine ⟨l, hsurvey.listing_kept hl ?_, ?_⟩
    · intro w hw
      obtain ⟨l', hl', hopen', -⟩ := hw
      rw [Option.some.inj (hl.symm.trans hl')] at hopen
      exact hopen hopen'
    · intro ht
      refine hopen (Or.inl ?_)
      rcases ht with ha | hr
      · exact Or.inl ha
      · exact Or.inr (Or.inl hr)

end

theorem hasFill_txid_of_sameTerms (id txid : Bytes) (hst : SameTerms db db') :
    (HasFill db' id fun f => f.txid = some txid) ↔ HasFill db id fun f => f.txid = some txid := by
  rw [← listingFillTxid_iff, ← listingFillTxid_iff, listingFillTxid_of_sameTerms hst]

section

variable (hpromote : Promotes cfg c db db₁) (hl : db.listings.get id = some l)
  (hs : confirmedSpender c l.toListingV1 = some txid)

include hl hs

theorem hasFill_promoted_iff :
    (HasFill db id fun f => f.status = .broadcast ∧ Mined c db f) ↔
      HasFill db id fun f => f.status = .broadcast ∧ f.txid = some txid := by
  constructor
  · refine HasFill.congr fun k f hf hid hp => ⟨hf, hp.1, (mined_iff hl hs hid).mp hp.2⟩
  · refine HasFill.congr fun k f hf hid hp => ⟨hf, hp.1, (mined_iff hl hs hid).mpr hp.2⟩

/-- The fills a reorg takes back after the promotion are the ones CONFIRMED before it. -/
theorem hasFill_reorged_iff (hpromote : Promotes cfg c db db₁) :
    (HasFill db₁ id fun f => f.status = .confirmed ∧ Unmined c db₁ f) ↔
      HasFill db id fun f => f.status = .confirmed ∧ f.txid ≠ some txid := by
  rw [hpromote.hasFill_unmined_iff]
  constructor
  · refine HasFill.congr fun k f hf hid hp => ⟨hf, hp.1, (unmined_iff hl hs hid).mp hp.2⟩
  · refine HasFill.congr fun k f hf hid hp => ⟨hf, hp.1, (unmined_iff hl hs hid).mpr hp.2⟩

end

/-- A run leaves a listing open with its source spent exactly when the spender is a fill of it that
is not BROADCAST, and nothing else closes it. -/
theorem takenAt_reconciled_iff (h : Reconciles env c db db') (hl : db.listings.get id = some l)
    (hs : confirmedSpender c l.toListingV1 = some txid) :
    TakenAt db' id ↔ (HasFill db id fun f => f.txid = some txid) ∧
      (¬ HasFill db id fun f => f.status = .broadcast ∧ f.txid = some txid) ∧
      StaysOpen c db id l txid := by
  obtain ⟨db₁, db₂, db₃, db₄, db₅, hpromote, hreorg, hsurvey, hsweep, hlistings, hfills⟩ :=
    reconcile_passes h
  have hterms := hpromote.sameTerms.trans hreorg.sameTerms
  obtain ⟨l₂, hl₂, heq₂⟩ := hterms.listing hl
  have hs₂ : confirmedSpender c l₂.toListingV1 = some txid := heq₂ ▸ hs
  have hours₂ := hasFill_txid_of_sameTerms id txid hterms
  by_cases hours : HasFill db id fun f => f.txid = some txid
  case neg =>
    obtain ⟨l₃, hl₃, hclosed⟩ := survey_closes hs₂ hsurvey hl₂ fun h => hours (hours₂.mp h)
    have hnot := closed_kept hsweep hlistings hfills hl₃ hclosed
    exact iff_of_false hnot fun hright => hours hright.1
  have hn := not_surveyed hs₂ hl₂ (hours₂.mpr hours)
  have hl₃ := hsurvey.listing_kept hl₂ hn
  have h₁ := hpromote.listing hl
  by_cases hpromoted : HasFill db id fun f => f.status = .broadcast ∧ f.txid = some txid
  case pos =>
    rw [if_pos ((hasFill_promoted_iff hl hs).mpr hpromoted)] at h₁
    have h₂ := hreorg.listing h₁
    have hclosed : ¬ (l₂.status = .active ∨ l₂.status = .reserved) := by
      rw [Option.some.inj (hl₂.symm.trans h₂)]
      split <;> simp
    have hnot := closed_kept hsweep hlistings hfills hl₃ hclosed
    exact iff_of_false hnot fun hright => hright.2.1 hpromoted
  rw [if_neg fun h => hpromoted ((hasFill_promoted_iff hl hs).mp h)] at h₁
  have h₂ := hreorg.listing h₁
  by_cases hother : HasFill db id fun f => f.status = .confirmed ∧ f.txid ≠ some txid
  case pos =>
    rw [if_pos ((hasFill_reorged_iff hl hs hpromote).mpr hother)] at h₂
    have hclosed : ¬ (l₂.status = .active ∨ l₂.status = .reserved) := by
      rw [Option.some.inj (hl₂.symm.trans h₂)]
      simp
    have hnot := closed_kept hsweep hlistings hfills hl₃ hclosed
    exact iff_of_false hnot fun hright => hright.2.2.settled hother
  rw [if_neg fun h => hother ((hasFill_reorged_iff hl hs hpromote).mp h)] at h₂
  obtain rfl : l₂ = l := Option.some.inj (hl₂.symm.trans h₂)
  by_cases htaken : l₂.status = .active ∨ l₂.status = .reserved
  case neg =>
    have hnot := closed_kept hsweep hlistings hfills hl₃ htaken
    exact iff_of_false hnot fun hright => htaken hright.2.2.taken
  rw [taken_after_iff hsweep hlistings hfills hl₃ htaken,
    hasFill_signed_iff hpromote hreorg hsurvey hn]
  constructor
  · exact fun hlasts => ⟨hours, hpromoted, htaken, hother, hlasts⟩
  · exact fun hright => hright.2.2.lasts

/-- A run records the trade of a transaction that settles a fill exactly when the fill is BROADCAST
or the trade counts already. -/
theorem recorded_reconciled_iff (h : Reconciles env c db db') {k : Nat}
    (hf : db.fills.get k = some f) (hl : db.listings.get f.listingId = some l)
    (htxid : f.txid = some txid) (hs : confirmedSpender c l.toListingV1 = some txid) :
    Recorded db' txid ↔ f.status = .broadcast ∨ Recorded db txid := by
  obtain ⟨db₁, db₂, db₃, db₄, db₅, hpromote, hreorg, hsurvey, hsweep, hlistings, hfills⟩ :=
    reconcile_passes h
  have hmined : Mined c db f := (mined_iff hl hs rfl).mpr htxid
  -- the fill is the only one with its transaction
  have hpromoted : (∃ k' f', db.fills.get k' = some f' ∧ f'.status = .broadcast ∧ Mined c db f' ∧
      f'.txid = some txid) ↔ f.status = .broadcast := by
    constructor
    · intro hex
      obtain ⟨k', f', hf', hb, -, htxid'⟩ := hex
      have hk : k = k' := db.txids k f hf (by simp [htxid]) k' f' hf' (htxid.trans htxid'.symm)
      subst hk
      rw [Option.some.inj (hf.symm.trans hf')]
      exact hb
    · exact fun hb => ⟨k, f, hf, hb, hmined, htxid⟩
  have hkept : ¬ ∃ k' f', db₁.fills.get k' = some f' ∧ f'.status = .confirmed ∧
      Unmined c db₁ f' ∧ f'.txid = some txid := by
    intro hex
    obtain ⟨k', f', hf', -, hun, htxid'⟩ := hex
    obtain ⟨f₁, hf₁, ht₁⟩ := hpromote.sameTerms.fill hf
    have htxid₁ : f₁.txid = some txid := (Fill.terms_txid ht₁).trans htxid
    have hk : k = k' :=
      db₁.txids k f₁ hf₁ (by simp [htxid₁]) k' f' hf' (htxid₁.trans htxid'.symm)
    subst hk
    obtain rfl : f₁ = f' := Option.some.inj (hf₁.symm.trans hf')
    obtain ⟨l₁, hl₁, hspent⟩ := hmined.of_sameTerms hpromote.sameTerms ht₁
    obtain ⟨l₁', hl₁', hnone⟩ := hun
    rw [Option.some.inj (hl₁.symm.trans hl₁')] at hspent
    exact hspent hnone
  rw [hfills.recorded, hlistings.recorded, hsweep.recorded, hsurvey.recorded, hreorg.recorded,
    hpromote.recorded, hpromoted]
  exact ⟨fun hboth => hboth.1, fun hor => ⟨hor, hkept⟩⟩

/-- Every fill whose transaction spends its listing's source is BROADCAST, or its trade counts
already and its listing does not stay open. -/
def Accounted (c : ChainView) (db : MarketDb) : Prop :=
  ∀ k f l txid, db.fills.get k = some f → db.listings.get f.listingId = some l →
    f.txid = some txid → confirmedSpender c l.toListingV1 = some txid →
    f.status = .broadcast ∨ Recorded db txid ∧ ¬ StaysOpen c db f.listingId l txid

theorem SameTerms.of_reconciles (h : Reconciles env c db db') : SameTerms db db' := by
  obtain ⟨db₁, db₂, db₃, db₄, db₅, hpromote, hreorg, hsurvey, hsweep, hlistings, hfills⟩ :=
    reconcile_passes h
  exact hpromote.sameTerms.trans (hreorg.sameTerms.trans (hsurvey.sameTerms.trans
    (hsweep.sameTerms.trans (hlistings.sameTerms.trans hfills.sameTerms))))

end

/-- The view in which the sample fill is confirmed. -/
def confirmedView : ChainView :=
  sampleView 110 0 (some (Transaction.getId sampleCrypto listedFill))

/-- The fill is broadcast, and then confirmed. -/
def broadcastRun : List Move :=
  signedRun ++ [Move.call (.finalizeP2PFill 1)] ++ sampleTurns 5 4 ++ [Move.observe confirmedView]

/-- The service stops between the broadcast and the write after it, and the fill is confirmed. -/
def lostBroadcastRun : List Move :=
  signedRun ++ [Move.call (.finalizeP2PFill 1)] ++ sampleTurns 5 2 ++
  [.crash 5, .observe confirmedView]

end Cove
