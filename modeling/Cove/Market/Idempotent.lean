import Cove.Market.Reconcile

/-! A second run of `reconcileMarket` on the same chain: what the first leaves for it. -/

namespace Cove

open Checked

/-- The statuses and the trades are the same. -/
structure SameOutcome (db db' : MarketDb) : Prop where
  fills : ∀ k, (db'.fills.get k).map Fill.status = (db.fills.get k).map Fill.status
  listings : ∀ k, (db'.listings.get k).map Listing.status = (db.listings.get k).map Listing.status
  trades : db'.trades = db.trades

/-- Nothing is left to do but for the expiry of listings. -/
structure Settled (c : ChainView) (db : MarketDb) : Prop where
  promoted : ∀ k f, db.fills.get k = some f → f.status = .broadcast → ¬ Mined c db f
  reorged : ∀ k f, db.fills.get k = some f → f.status = .confirmed → ¬ Unmined c db f
  surveyed : ∀ id w, ¬ Surveyed c db id w
  swept : ∀ k f, db.fills.get k = some f → f.status = .buyerSigned →
    ¬ FundsSpent c f.buyerFundInputs
  lapsed : ∀ k f, db.fills.get k = some f → ¬ reservationOver c.now f = true

/-- A listing that can be taken and has expired. -/
def Expired (c : ChainView) (l : Listing) : Prop := l.status = .active ∧ l.expiryHeight ≤ c.tip

/-- A RESERVED listing that has expired, whose reservation runs out only in the last pass. -/
structure Overdue (c : ChainView) (db : MarketDb) (id : Bytes) (l : Listing) : Prop where
  row : db.listings.get id = some l
  reserved : l.status = .reserved
  expired : l.expiryHeight ≤ c.tip
  lapsed : HasFill db id fun f => reservationOver c.now f = true
  promoted : ¬ HasFill db id fun f => f.status = .broadcast ∧ Mined c db f
  reorged : ¬ HasFill db id fun f => f.status = .confirmed ∧ Unmined c db f
  surveyed : surveyWrite c db (id, l) = none
  swept : ¬ HasFill db id fun f => f.status = .buyerSigned ∧ FundsSpent c f.buyerFundInputs

section

variable {env : MarketEnv} {cfg : MarketConfig} {c : ChainView}
  {db db₁ db₂ db₃ db₄ db₅ db' : MarketDb}

/-- A pass none of whose rows calls for a write changes nothing. -/
theorem Pass.quiet {K R : Type} [DecidableEq K] {table : MarketDb → Dict K R} {p : R → Prop}
    {dec : MarketDb → K × R → Option Write} (h : Pass cfg c table p dec db db')
    (hq : ∀ k r, (table db).get k = some r → p r → dec db (k, r) = none) : db' = db := by
  obtain ⟨rows, hrows, hruns⟩ := h
  have hnil : rows.filterMap (dec db) = [] := by
    rw [List.filterMap_eq_nil_iff]
    intro e he
    obtain ⟨hget, hp⟩ := (hrows e.1 e.2).mp he
    exact hq e.1 e.2 hget hp
  rw [hnil] at hruns
  exact (Except.ok.inj hruns).symm

/-! What a pass leaves undone, and what a later pass takes up again. -/

section

variable (hst : SameTerms db db')

include hst

theorem promoted_kept (h : ∀ k f, db.fills.get k = some f → f.status = .broadcast → ¬ Mined c db f)
    (hback : ∀ k f, db'.fills.get k = some f → f.status = .broadcast → db.fills.get k = some f) :
    ∀ k f, db'.fills.get k = some f → f.status = .broadcast → ¬ Mined c db' f := by
  intro k f hf' hb hmined
  exact h k f (hback k f hf' hb) hb (hmined.of_sameTerms hst.symm rfl)

theorem reorged_kept (h : ∀ k f, db.fills.get k = some f → f.status = .confirmed → ¬ Unmined c db f)
    (hback : ∀ k f, db'.fills.get k = some f → f.status = .confirmed → db.fills.get k = some f) :
    ∀ k f, db'.fills.get k = some f → f.status = .confirmed → ¬ Unmined c db' f := by
  intro k f hf' hc hun
  exact h k f (hback k f hf' hc) hc (hun.of_sameTerms hst.symm rfl)

end

/-- The survey looks at a listing's terms, and at whether it is REORGED. -/
theorem surveyWrite_congr {id : Bytes} {l l' : Listing} (ht : l'.toListingV1 = l.toListingV1)
    (hr : l'.status = .reorged ↔ l.status = .reorged) :
    surveyWrite c db (id, l') = surveyWrite c db (id, l) := by
  simp only [surveyWrite, ht, hr]

theorem surveyWrite_eq_reactivate {e : Bytes × Listing} {id : Bytes}
    (h : surveyWrite c db e = some (.reactivateListing id)) :
    confirmedSpender c e.2.toListingV1 = none ∧ ∃ txout, c.txouts.get e.2.source = some txout := by
  unfold surveyWrite at h
  split at h
  · split at h <;> cases h
  · split at h
    · exact ⟨‹_›, _, ‹_›⟩
    · split at h
      · split at h <;> cases h
      · cases h

theorem surveyWrite_eq_repend {e : Bytes × Listing} {id txid : Bytes}
    (h : surveyWrite c db e = some (.rependFill id txid)) :
    confirmedSpender c e.2.toListingV1 = none ∧ c.txouts.get e.2.source = none ∧
      (ourTxid db e.1).filter (· ∈ c.transactions) = some txid := by
  unfold surveyWrite at h
  split at h
  · split at h <;> cases h
  · split at h
    · split at h <;> cases h
    · split at h
      · split at h
        · obtain ⟨-, rfl⟩ := Write.rependFill.inj (Option.some.inj h)
          exact ⟨‹_›, ‹_›, ‹_›⟩
        · cases h
      · cases h

theorem surveyed_kept (hst : SameTerms db db') (h : ∀ id w, ¬ Surveyed c db id w)
    (hback : ∀ id l', db'.listings.get id = some l' → l'.status.isOpen →
      ∃ l, db.listings.get id = some l ∧ l.status.isOpen ∧ l'.toListingV1 = l.toListingV1 ∧
        (l'.status = .reorged ↔ l.status = .reorged)) :
    ∀ id w, ¬ Surveyed c db' id w := by
  intro id w hsurveyed
  obtain ⟨l', hl', hopen', hw⟩ := hsurveyed
  obtain ⟨l, hl, hopen, hterms, hreorged⟩ := hback id l' hl' hopen'
  rw [surveyWrite_of_sameTerms hst, surveyWrite_congr hterms hreorged] at hw
  exact h id w ⟨l, hl, hopen, hw⟩

/-- Released or not, a listing is the same for the survey. -/
theorem release_surveyed {l l' : Listing} (h : l' = l.release ∨ l' = l) (hopen : l'.status.isOpen) :
    l.status.isOpen ∧ l'.toListingV1 = l.toListingV1 ∧
      (l'.status = .reorged ↔ l.status = .reorged) := by
  rcases h with rfl | rfl
  · by_cases hr : l.status = .reserved
    · rw [release_of_reserved hr]
      refine ⟨Or.inl (Or.inr (Or.inl hr)), rfl, ?_⟩
      simp [hr]
    · rw [release_of_ne hr] at hopen ⊢
      exact ⟨hopen, rfl, Iff.rfl⟩
  · exact ⟨hopen, rfl, Iff.rfl⟩

/-- The survey leaves nothing for another. -/
theorem Surveys.surveyed (h : Surveys cfg c db db') (id : Bytes) (w : Write) :
    ¬ Surveyed c db' id w := by
  intro hsurveyed
  obtain ⟨l', hl', hopen', hw⟩ := hsurveyed
  rw [surveyWrite_of_sameTerms h.sameTerms] at hw
  obtain ⟨l, hl, -⟩ := h.sameTerms.symm.listing hl'
  by_cases hex : ∃ w₀, Surveyed c db id w₀
  · obtain ⟨w₀, hw₀⟩ := hex
    have heq := h.listing hl hw₀
    rw [hl', Option.some.injEq] at heq
    obtain ⟨l₀, hl₀, -, hdec⟩ := hw₀
    obtain rfl : l = l₀ := Option.some.inj (hl.symm.trans hl₀)
    rcases surveyWrite_cases hdec with rfl | ⟨-, rfl⟩ | ⟨txid, -, rfl⟩
    · rw [heq] at hopen'
      simp [Write.onListing, ListingStatus.isOpen, ListingStatus.indexed] at hopen'
    · obtain ⟨hspender, txout, htxout⟩ := surveyWrite_eq_reactivate hdec
      obtain rfl : l' = l.set .active := by simpa [Write.onListing] using heq
      rw [surveyWrite_unspent (e := (id, l.set .active)) hspender htxout] at hw
      simp at hw
    · obtain ⟨hspender, htxout, hours⟩ := surveyWrite_eq_repend hdec
      obtain rfl : l' = l.set .broadcast := by simpa [Write.onListing] using heq
      rw [surveyWrite_ours (e := (id, l.set .broadcast)) hspender htxout hours] at hw
      simp at hw
  · have heq := h.listing_kept hl fun w₀ hw₀ => hex ⟨w₀, hw₀⟩
    obtain rfl : l' = l := Option.some.inj (hl'.symm.trans heq)
    exact hex ⟨w, l', hl, hopen', hw⟩

/-- A fill the survey puts back is not confirmed. -/
theorem Surveyed.not_mined {id txid : Bytes} {f : Fill} (hid : f.listingId = id)
    (hw : Surveyed c db id (.rependFill id txid)) (htxid : f.txid = some txid) :
    ¬ Mined c db f := by
  intro hmined
  obtain ⟨l, hl, -, hdec⟩ := hw
  obtain ⟨l', hl', hspent⟩ := hmined
  rw [hid, hl] at hl'
  obtain rfl := Option.some.inj hl'
  obtain ⟨hspender, -⟩ := surveyWrite_eq_repend hdec
  obtain ⟨row, hrow⟩ := Option.ne_none_iff_exists'.mp hspent
  obtain ⟨hget, htest⟩ := Option.filter_eq_some_iff.mp hrow
  have heq : row.spentByTxid = f.txid := of_decide_eq_true htest
  have hsome : confirmedSpender c l.toListingV1 = some txid := by
    rw [confirmedSpender, hget, Option.bind_some, heq, htxid]
  rw [hsome] at hspender
  cases hspender

/-- A run that completes leaves nothing to do but for the expiry of listings. -/
theorem settled_of_reconciles (h : Reconciles env c db db') : Settled c db' := by
  obtain ⟨db₁, db₂, db₃, db₄, db₅, hpromote, hreorg, hsurvey, hsweep, hlistings, hfills⟩ :=
    reconcile_passes h
  constructor
  case promoted =>
    have h₁ : ∀ k f, db₁.fills.get k = some f → f.status = .broadcast → ¬ Mined c db₁ f := by
      intro k f hf hb hmined
      rcases hpromote.fill_cases hf with ⟨-, hnot⟩ | ⟨hconf, -⟩
      · exact hnot ⟨hb, hmined.of_sameTerms hpromote.sameTerms.symm rfl⟩
      · rw [hb] at hconf
        cases hconf
    have h₂ := promoted_kept hreorg.sameTerms h₁
      fun k f hf hb => hreorg.back hf (by simp [hb])
    have h₃ : ∀ k f, db₃.fills.get k = some f → f.status = .broadcast → ¬ Mined c db₃ f := by
      intro k f hf hb hmined
      have hmined₂ := hmined.of_sameTerms hsurvey.sameTerms.symm rfl
      rcases hsurvey.fill_cases hf with hf₂ | hfailed | ⟨txid, -, htxid, hw⟩
      · exact h₂ k f hf₂ hb hmined₂
      · rw [hb] at hfailed
        cases hfailed
      · exact hw.not_mined rfl htxid hmined₂
    have h₄ := promoted_kept hsweep.sameTerms h₃
      fun k f hf hb => hsweep.back hf (by simp [hb])
    have h₅ := promoted_kept hlistings.sameTerms h₄ fun k f hf _ => hlistings.fill_iff.mp hf
    exact promoted_kept hfills.sameTerms h₅ fun k f hf hb => hfills.back hf (by simp [hb])
  case reorged =>
    have h₂ : ∀ k f, db₂.fills.get k = some f → f.status = .confirmed → ¬ Unmined c db₂ f := by
      intro k f hf hc hun
      rcases hreorg.fill_cases hf with ⟨-, hnot⟩ | hr
      · exact hnot ⟨hc, hun.of_sameTerms hreorg.sameTerms.symm rfl⟩
      · rw [hc] at hr
        cases hr
    have h₃ := reorged_kept hsurvey.sameTerms h₂
      fun k f hf hc => hsurvey.back hf (by simp [hc]) (by simp [hc])
    have h₄ := reorged_kept hsweep.sameTerms h₃ fun k f hf hc => hsweep.back hf (by simp [hc])
    have h₅ := reorged_kept hlistings.sameTerms h₄ fun k f hf _ => hlistings.fill_iff.mp hf
    exact reorged_kept hfills.sameTerms h₅ fun k f hf hc => hfills.back hf (by simp [hc])
  case surveyed =>
    have h₄ := surveyed_kept hsweep.sameTerms hsurvey.surveyed fun id l' hl' hopen => by
      obtain ⟨l, hl, hl₄⟩ := hsweep.listing_back hl'
      exact ⟨l, hl, release_surveyed (by split at hl₄ <;> simp [hl₄]) hopen⟩
    have h₅ := surveyed_kept hlistings.sameTerms h₄ fun id l' hl' hopen => by
      obtain ⟨l, hl, hl₅⟩ := hlistings.listing_back hl'
      split at hl₅
      · rw [hl₅] at hopen
        simp [ListingStatus.isOpen, ListingStatus.indexed] at hopen
      · subst hl₅
        exact ⟨l', hl, hopen, rfl, Iff.rfl⟩
    exact surveyed_kept hfills.sameTerms h₅ fun id l' hl' hopen => by
      obtain ⟨l, hl, hl₆⟩ := hfills.listing_back hl'
      exact ⟨l, hl, release_surveyed (by split at hl₆ <;> simp [hl₆]) hopen⟩
  case swept =>
    intro k f hf hsigned hspent
    have hf₅ := hfills.back hf (by simp [hsigned])
    rcases hsweep.fill_cases (hlistings.fill_iff.mp hf₅) with ⟨-, hnot⟩ | he
    · exact hnot ⟨hsigned, hspent⟩
    · rw [hsigned] at he
      cases he
  case lapsed =>
    intro k f hf hover
    rcases hfills.fill_cases hf with ⟨-, hnot⟩ | he
    · exact hnot hover
    · have hawait := (of_decide_eq_true hover).1
      rw [he] at hawait
      exact absurd hawait (by decide)

/-- The fills that lapse at the end are the ones from before, where the passes between leave the
listing. -/
theorem hasFill_lapsed_iff {id : Bytes} (hpromote : Promotes cfg c db db₁)
    (hreorg : Reorgs cfg c db₁ db₂) (hsurvey : Surveys cfg c db₂ db₃) (hsweep : Sweeps cfg c db₃ db₄)
    (hlistings : ExpiresListings cfg c db₄ db₅) (hn : ∀ w, ¬ Surveyed c db₂ id w)
    (hfunded : ¬ HasFill db₃ id fun f => f.status = .buyerSigned ∧ FundsSpent c f.buyerFundInputs) :
    (HasFill db₅ id fun f => reservationOver c.now f = true) ↔
      HasFill db id fun f => reservationOver c.now f = true := by
  have hwaits : ∀ f, reservationOver c.now f = true → f.status.awaiting :=
    fun f hover => (of_decide_eq_true hover).1
  rw [← hasFill_waiting_iff hpromote hreorg hsurvey hn hwaits]
  constructor
  · refine HasFill.congr fun k f hf hid hover => ⟨?_, hover⟩
    refine hsweep.back (hlistings.fill_iff.mp hf) ?_
    intro he
    have hw := hwaits f hover
    rw [he] at hw
    exact absurd hw (by decide)
  · refine HasFill.congr fun k f hf hid hover => ⟨?_, hover⟩
    refine hlistings.fill ?_
    rw [hsweep.fill hf, if_neg fun hcond => hfunded ⟨k, f, hf, hid, hcond⟩]

/-- The listings the next run expires are the ones overdue before this one. -/
theorem expired_after_iff (h : Reconciles env c db db') (id : Bytes) :
    (∃ l', db'.listings.get id = some l' ∧ Expired c l') ↔ ∃ l, Overdue c db id l := by
  obtain ⟨db₁, db₂, db₃, db₄, db₅, hpromote, hreorg, hsurvey, hsweep, hlistings, hfills⟩ :=
    reconcile_passes h
  have hterms := hpromote.sameTerms.trans hreorg.sameTerms
  constructor
  · intro hex
    obtain ⟨l', hl', hactive, hexpired⟩ := hex
    -- the last pass has released it
    obtain ⟨l₅, hl₅, heq₅⟩ := hfills.listing_back hl'
    obtain ⟨l₄, hl₄, heq₄⟩ := hlistings.listing_back hl₅
    have hreserved₅ : l₅.status = .reserved := by
      by_contra hr
      rw [release_of_ne hr, ite_self] at heq₅
      subst heq₅
      split at heq₄
      · rw [heq₄] at hactive
        cases hactive
      · rename_i hnot
        subst heq₄
        exact hnot ⟨hactive, hexpired⟩
    have hlapsed : HasFill db₅ id fun f => reservationOver c.now f = true := by
      by_contra hnot
      rw [if_neg hnot] at heq₅
      rw [← heq₅, hactive] at hreserved₅
      cases hreserved₅
    have hexpired₅ : l₅.expiryHeight ≤ c.tip := by
      rw [if_pos hlapsed, release_of_reserved hreserved₅] at heq₅
      rw [heq₅] at hexpired
      exact hexpired
    -- the passes before it have left it
    split at heq₄
    · rw [heq₄] at hreserved₅
      cases hreserved₅
    subst heq₄
    obtain ⟨l₃, hl₃, heq₃⟩ := hsweep.listing_back hl₄
    split at heq₃
    · by_cases hr : l₃.status = .reserved
      · rw [heq₃, release_of_reserved hr] at hreserved₅
        cases hreserved₅
      · rw [heq₃, release_of_ne hr] at hreserved₅
        exact absurd hreserved₅ hr
    rename_i hfunded
    subst heq₃
    obtain ⟨l₂, hl₂, -⟩ := hsurvey.sameTerms.symm.listing hl₃
    have hn : ∀ w, ¬ Surveyed c db₂ id w := by
      intro w hw
      have heq₂ := Option.some.inj (hl₃.symm.trans (hsurvey.listing hl₂ hw))
      obtain ⟨_, _, _, hdec⟩ := hw
      rw [heq₂] at hreserved₅
      rcases surveyWrite_cases hdec with rfl | ⟨-, rfl⟩ | ⟨_, -, rfl⟩ <;>
        simp [Write.onListing] at hreserved₅
    obtain rfl := Option.some.inj (hl₃.symm.trans (hsurvey.listing_kept hl₂ hn))
    obtain ⟨l₁, hl₁, heq₁⟩ := hreorg.listing_back hl₂
    split at heq₁
    · rw [heq₁] at hreserved₅
      cases hreserved₅
    rename_i hsettled
    subst heq₁
    obtain ⟨l, hl, heq⟩ := hpromote.listing_back hl₁
    split at heq
    · rw [heq] at hreserved₅
      cases hreserved₅
    rename_i hpromoted
    subst heq
    refine ⟨_, hl, hreserved₅, hexpired₅, ?_, hpromoted, ?_, ?_, ?_⟩
    · exact (hasFill_lapsed_iff hpromote hreorg hsurvey hsweep hlistings hn hfunded).mp hlapsed
    · exact fun h => hsettled (hpromote.hasFill_unmined_iff.mpr h)
    · rw [← surveyWrite_of_sameTerms hterms]
      by_contra hne
      obtain ⟨w, hw⟩ := Option.ne_none_iff_exists'.mp hne
      exact hn w ⟨_, hl₂, Or.inl (Or.inr (Or.inl hreserved₅)), hw⟩
    · exact fun h => hfunded ((hasFill_signed_iff hpromote hreorg hsurvey hn _).mpr h)
  · intro hex
    obtain ⟨l, ho⟩ := hex
    have hl₁ := hpromote.listing ho.row
    rw [if_neg ho.promoted] at hl₁
    have hl₂ := hreorg.listing hl₁
    rw [if_neg fun h => ho.reorged (hpromote.hasFill_unmined_iff.mp h)] at hl₂
    have hn : ∀ w, ¬ Surveyed c db₂ id w := by
      intro w hw
      obtain ⟨l₂, hl₂', -, hdec⟩ := hw
      rw [← Option.some.inj (hl₂.symm.trans hl₂'), surveyWrite_of_sameTerms hterms, ho.surveyed] at hdec
      cases hdec
    have hl₃ := hsurvey.listing_kept hl₂ hn
    have hfunded := fun h => ho.swept ((hasFill_signed_iff hpromote hreorg hsurvey hn _).mp h)
    have hl₄ := hsweep.listing hl₃
    rw [if_neg hfunded] at hl₄
    have hl₅ := hlistings.listing hl₄
    rw [if_neg (by simp [ho.reserved])] at hl₅
    have hlapsed := (hasFill_lapsed_iff hpromote hreorg hsurvey hsweep hlistings hn hfunded).mpr
      ho.lapsed
    have hl₆ := hfills.listing hl₅
    rw [if_pos hlapsed, release_of_reserved ho.reserved] at hl₆
    exact ⟨_, hl₆, rfl, ho.expired⟩

/-- A run on settled tables expires listings, and does nothing else. -/
theorem Settled.reconciles (hs : Settled c db) (h : Reconciles env c db db') :
    ExpiresListings env.config c db db' := by
  obtain ⟨db₁, db₂, db₃, db₄, db₅, hpromote, hreorg, hsurvey, hsweep, hlistings, hfills⟩ :=
    reconcile_passes h
  obtain rfl : db₁ = db := Pass.quiet hpromote fun k f hf hb => by
    by_contra hne
    exact hs.promoted k f hf hb (promoteWrite_ne_none.mp hne)
  obtain rfl : db₂ = db₁ := Pass.quiet hreorg fun k f hf hc => by
    by_contra hne
    exact hs.reorged k f hf hc (reorgWrite_ne_none.mp hne)
  obtain rfl : db₃ = db₂ := Pass.quiet hsurvey fun id l hl hopen => by
    by_contra hne
    obtain ⟨w, hw⟩ := Option.ne_none_iff_exists'.mp hne
    exact hs.surveyed id w ⟨l, hl, hopen, hw⟩
  obtain rfl : db₄ = db₃ := Pass.quiet hsweep fun k f hf hsigned => by
    by_contra hne
    exact hs.swept k f hf hsigned (sweepWrite_ne_none.mp hne)
  obtain rfl : db' = db₅ := Pass.quiet hfills fun k f hf hover =>
    absurd hover (hs.lapsed k f (hlistings.fill_iff.mp hf))
  exact hlistings

/-- A second run leaves the statuses and the trades of the first exactly when no listing was
overdue before the first. -/
theorem reconcile_twice_iff (h : Reconciles env c db db₁) (h' : Reconciles env c db₁ db₂) :
    SameOutcome db₁ db₂ ↔ ∀ id l, ¬ Overdue c db id l := by
  have hlistings := (settled_of_reconciles h).reconciles h'
  constructor
  · intro hsame id l ho
    obtain ⟨l₁, hl₁, hexpired⟩ := (expired_after_iff h id).mpr ⟨l, ho⟩
    have hl₂ := hlistings.listing hl₁
    rw [if_pos ⟨hexpired.1, hexpired.2⟩] at hl₂
    have hstatus := hsame.listings id
    rw [hl₁, hl₂, Option.map_some, Option.map_some, Option.some.injEq, hexpired.1] at hstatus
    cases hstatus
  · intro hnone
    obtain rfl : db₂ = db₁ := Pass.quiet hlistings fun id l hl hexpired => by
      obtain ⟨l₀, ho⟩ := (expired_after_iff h id).mp ⟨l, hl, hexpired⟩
      exact absurd ho (hnone id l₀)
    exact ⟨fun _ => rfl, fun _ => rfl, rfl⟩

end

/-- A listing is made and reserved. -/
def reservedRun : List Move :=
  [Move.call (.createListing sampleListingId sampleListing)] ++ sampleTurns 0 1 ++
  [Move.call (.reserveListing 1 sampleReserve)] ++ sampleTurns 1 1

/-- The reservation runs out, long before the listing does. -/
theorem reconcile_twice_sample : ∃ s db₁ db₂,
    Machine.run (System.step sampleEnv) (System.init (sampleView 100 0 none)) reservedRun =
      some s ∧
    Reconciles sampleEnv (sampleView 101 400000 none) s.db db₁ ∧
    Reconciles sampleEnv (sampleView 101 400000 none) db₁ db₂ ∧ SameOutcome db₁ db₂ := by
  have hrun : ((Machine.run (System.step sampleEnv) (System.init (sampleView 100 0 none))
      reservedRun).any fun s => (∀ k l, s.db.listings.get k = some l → 101 < l.expiryHeight) ∧
        (Task.finish sampleEnv (sampleView 101 400000 none) sampleOrder 12
          (.reconcile (sampleView 101 400000 none).clock) s.db).any fun db₁ =>
            (Task.finish sampleEnv (sampleView 101 400000 none) sampleOrder 12
              (.reconcile (sampleView 101 400000 none).clock) db₁).isSome) = true := by
    decide +kernel
  obtain ⟨s, hs, htest⟩ := (Option.any_eq_true _ _).mp hrun
  obtain ⟨hlasts, hany⟩ := of_decide_eq_true htest
  obtain ⟨db₁, hdb₁, hsome⟩ := (Option.any_eq_true _ _).mp hany
  obtain ⟨db₂, hdb₂⟩ := Option.isSome_iff_exists.mp hsome
  have h : Reconciles sampleEnv (sampleView 101 400000 none) s.db db₁ := .of_finish hdb₁
  have h' : Reconciles sampleEnv (sampleView 101 400000 none) db₁ db₂ := .of_finish hdb₂
  refine ⟨s, db₁, db₂, hs, h, h', (reconcile_twice_iff h h').mpr ?_⟩
  intro id l ho
  have hexpired : l.expiryHeight ≤ 101 := ho.expired
  exact absurd hexpired (not_le.mpr (hlasts id l ho.row))

/-- The listing has expired when its reservation runs out: the first run makes it ACTIVE, and the
second EXPIRED. -/
theorem overdue_listing_differs : ∃ s db₁ db₂,
    Machine.run (System.step sampleEnv) (System.init (sampleView 100 0 none)) reservedRun =
      some s ∧
    Reconciles sampleEnv (sampleView 200 400000 none) s.db db₁ ∧
    Reconciles sampleEnv (sampleView 200 400000 none) db₁ db₂ ∧ ¬ SameOutcome db₁ db₂ := by
  have hrun : ((Machine.run (System.step sampleEnv) (System.init (sampleView 100 0 none))
      reservedRun).any fun s =>
        (Task.finish sampleEnv (sampleView 200 400000 none) sampleOrder 12
          (.reconcile (sampleView 200 400000 none).clock) s.db).any fun db₁ =>
            (Task.finish sampleEnv (sampleView 200 400000 none) sampleOrder 12
              (.reconcile (sampleView 200 400000 none).clock) db₁).any fun db₂ =>
                (db₂.listings.get sampleListingId).map Listing.status ≠
                  (db₁.listings.get sampleListingId).map Listing.status) = true := by
    decide +kernel
  obtain ⟨s, hs, htest⟩ := (Option.any_eq_true _ _).mp hrun
  obtain ⟨db₁, hdb₁, htest⟩ := (Option.any_eq_true _ _).mp htest
  obtain ⟨db₂, hdb₂, htest⟩ := (Option.any_eq_true _ _).mp htest
  refine ⟨s, db₁, db₂, hs, .of_finish hdb₁, .of_finish hdb₂, ?_⟩
  intro hsame
  exact of_decide_eq_true htest (hsame.listings sampleListingId)

end Cove
