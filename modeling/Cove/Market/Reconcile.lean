import Cove.Market.Passes

/-! What each pass of `reconcileMarket` does to a fill and to a listing. -/

namespace Cove

open Checked

/-- The fill's transaction is the confirmed spender of its listing's source. -/
def Mined (c : ChainView) (db : MarketDb) (f : Fill) : Prop :=
  ∃ l, db.listings.get f.listingId = some l ∧ spentBy c l.toListingV1 f.txid ≠ none

def Unmined (c : ChainView) (db : MarketDb) (f : Fill) : Prop :=
  ∃ l, db.listings.get f.listingId = some l ∧ spentBy c l.toListingV1 f.txid = none

/-- A fill of the listing that meets a test. -/
def HasFill (db : MarketDb) (listingId : Bytes) (p : Fill → Prop) : Prop :=
  ∃ k f, db.fills.get k = some f ∧ f.listingId = listingId ∧ p f

section

variable {cfg : MarketConfig} {c : ChainView} {db db' : MarketDb} {k : Nat} {f : Fill}
  {listingId : Bytes} {l : Listing}

theorem promoteWrite_ne_none {e : Nat × Fill} : promoteWrite c db e ≠ none ↔ Mined c db e.2 := by
  unfold promoteWrite Mined
  cases db.listings.get e.2.listingId <;> simp

theorem reorgWrite_ne_none {e : Nat × Fill} : reorgWrite c db e ≠ none ↔ Unmined c db e.2 := by
  unfold reorgWrite Unmined
  cases db.listings.get e.2.listingId <;> simp

theorem sweepWrite_ne_none {e : Nat × Fill} :
    sweepWrite c db e ≠ none ↔ FundsSpent c e.2.buyerFundInputs := by
  unfold sweepWrite
  split <;> simp [*]

theorem Mined.of_sameTerms (hs : SameTerms db db') {f' : Fill} (ht : f'.terms = f.terms)
    (h : Mined c db f) : Mined c db' f' := by
  obtain ⟨l, hl, hspent⟩ := h
  obtain ⟨l', hl', hterms⟩ := hs.listing hl
  refine ⟨l', ?_, ?_⟩
  · rw [Fill.terms_listingId ht]
    exact hl'
  · rw [Fill.terms_txid ht, hterms]
    exact hspent

theorem Unmined.of_sameTerms (hs : SameTerms db db') {f' : Fill} (ht : f'.terms = f.terms)
    (h : Unmined c db f) : Unmined c db' f' := by
  obtain ⟨l, hl, hspent⟩ := h
  obtain ⟨l', hl', hterms⟩ := hs.listing hl
  refine ⟨l', ?_, ?_⟩
  · rw [Fill.terms_listingId ht]
    exact hl'
  · rw [Fill.terms_txid ht, hterms]
    exact hspent

section

variable {p q : Fill → Prop} {dec : MarketDb → Nat × Fill → Option Write}
  (hq : ∀ e, dec db e ≠ none ↔ q e.2)

include hq

theorem calls_fill (hf : db.fills.get k = some f) :
    (∃ e, Calls (fun db => db.fills) p dec db e ∧ k = e.1) ↔ p f ∧ q f := by
  constructor
  · intro hex
    obtain ⟨⟨k', f'⟩, ⟨hget, hp, hdec⟩, rfl⟩ := hex
    obtain rfl : f = f' := Option.some.inj (hf.symm.trans hget)
    exact ⟨hp, (hq _).mp hdec⟩
  · intro hpq
    exact ⟨(k, f), ⟨hf, hpq.1, (hq _).mpr hpq.2⟩, rfl⟩

theorem calls_hasFill :
    (∃ e, Calls (fun db => db.fills) p dec db e ∧ listingId = e.2.listingId) ↔
      HasFill db listingId fun f => p f ∧ q f := by
  constructor
  · intro hex
    obtain ⟨⟨k, f⟩, ⟨hget, hp, hdec⟩, hid⟩ := hex
    exact ⟨k, f, hget, hid.symm, hp, (hq _).mp hdec⟩
  · intro hex
    obtain ⟨k, f, hget, hid, hp, hqf⟩ := hex
    exact ⟨(k, f), ⟨hget, hp, (hq _).mpr hqf⟩, hid.symm⟩

end

theorem promoteWrite_eq_some {e : Nat × Fill} {w : Write} (h : promoteWrite c db e = some w) :
    ∃ l utxo, w = .promoteFill e.1 e.2 l utxo c.tip := by
  simp only [promoteWrite, Option.bind_eq_some_iff, Option.map_eq_some_iff] at h
  obtain ⟨l, -, utxo, -, rfl⟩ := h
  exact ⟨l, utxo, rfl⟩

theorem reorgWrite_eq_some {e : Nat × Fill} {w : Write} (h : reorgWrite c db e = some w) :
    w = .reorgFill e.1 e.2 := by
  simp only [reorgWrite, Option.bind_eq_some_iff, Option.ite_none_right_eq_some,
    Option.some.injEq] at h
  obtain ⟨_, -, -, rfl⟩ := h
  rfl

theorem sweepWrite_eq_some {e : Nat × Fill} {w : Write} (h : sweepWrite c db e = some w) :
    w = .expireFill e.1 e.2.listingId := by
  simp only [sweepWrite, Option.ite_none_right_eq_some, Option.some.injEq] at h
  exact h.2.symm

open Classical in
theorem Promotes.fill (h : Promotes cfg c db db') (hf : db.fills.get k = some f) :
    db'.fills.get k =
      some (if f.status = .broadcast ∧ Mined c db f then f.set .confirmed else f) := by
  have hpass := Pass.fill h promoteWrite_reconciles (fun e => k = e.1) (Fill.set .confirmed) hf ?_
    (fun _ => rfl) fun _ => rfl
  · simp only [hpass, calls_fill (fun _ => promoteWrite_ne_none) hf]
  · intro e w _ _ hdec f' _
    obtain ⟨_, _, rfl⟩ := promoteWrite_eq_some hdec
    simp only [Write.onFill]
    congr

open Classical in
theorem Promotes.listing (h : Promotes cfg c db db') (hl : db.listings.get listingId = some l) :
    db'.listings.get listingId =
      some (if HasFill db listingId fun f => f.status = .broadcast ∧ Mined c db f then
        l.set .filled else l) := by
  have hpass := Pass.listing h promoteWrite_reconciles (fun e => listingId = e.2.listingId)
    (Listing.set .filled) hl ?_ fun _ => rfl
  · simp only [hpass, calls_hasFill fun _ => promoteWrite_ne_none]
  · intro e w _ _ hdec l'
    obtain ⟨_, _, rfl⟩ := promoteWrite_eq_some hdec
    simp only [Write.onListing]
    congr

open Classical in
theorem Reorgs.fill (h : Reorgs cfg c db db') (hf : db.fills.get k = some f) :
    db'.fills.get k =
      some (if f.status = .confirmed ∧ Unmined c db f then f.set .reorged else f) := by
  have hpass := Pass.fill h reorgWrite_reconciles (fun e => k = e.1) (Fill.set .reorged) hf ?_
    (fun _ => rfl) fun _ => rfl
  · simp only [hpass, calls_fill (fun _ => reorgWrite_ne_none) hf]
  · intro e w _ _ hdec f' _
    obtain rfl := reorgWrite_eq_some hdec
    simp only [Write.onFill]
    congr

open Classical in
theorem Reorgs.listing (h : Reorgs cfg c db db') (hl : db.listings.get listingId = some l) :
    db'.listings.get listingId =
      some (if HasFill db listingId fun f => f.status = .confirmed ∧ Unmined c db f then
        l.set .reorged else l) := by
  have hpass := Pass.listing h reorgWrite_reconciles (fun e => listingId = e.2.listingId)
    (Listing.set .reorged) hl ?_ fun _ => rfl
  · simp only [hpass, calls_hasFill fun _ => reorgWrite_ne_none]
  · intro e w _ _ hdec l'
    obtain rfl := reorgWrite_eq_some hdec
    simp only [Write.onListing]
    congr

/-- What the survey calls for on a listing. -/
def Surveyed (c : ChainView) (db : MarketDb) (listingId : Bytes) (w : Write) : Prop :=
  ∃ l, db.listings.get listingId = some l ∧ l.status.isOpen ∧
    surveyWrite c db (listingId, l) = some w

theorem Surveyed.unique {w w' : Write} (h : Surveyed c db listingId w)
    (h' : Surveyed c db listingId w') : w = w' := by
  obtain ⟨l, hl, -, hw⟩ := h
  obtain ⟨l', hl', -, hw'⟩ := h'
  obtain rfl : l = l' := Option.some.inj (hl.symm.trans hl')
  exact Option.some.inj (hw.symm.trans hw')

/-- A row that calls for a write in the survey is not one of a listing without. -/
theorem surveyed_apart (hn : ∀ w, ¬ Surveyed c db listingId w) {e : Bytes × Listing} {w : Write}
    (hget : db.listings.get e.1 = some e.2) (hopen : e.2.status.isOpen)
    (hdec : surveyWrite c db e = some w) : listingId ≠ e.1 := by
  intro hid
  exact hn w ⟨e.2, by rw [hid]; exact hget, hopen, by rw [hid]; exact hdec⟩

section

variable {e : Bytes × Listing} {w : Write} (h : surveyWrite c db e = some w)

include h

/-- A write of the survey changes its own listing only, and the fills of it. -/
theorem surveyWrite_apart (hne : listingId ≠ e.1) (l : Listing) : w.onListing listingId l = l := by
  rcases surveyWrite_cases h with rfl | ⟨-, rfl⟩ | ⟨txid, -, rfl⟩ <;> exact if_neg hne

theorem surveyWrite_apart_fill (hne : f.listingId ≠ e.1) (k : Nat) :
    w.onFill cfg c.now k f = f := by
  rcases surveyWrite_cases h with rfl | ⟨-, rfl⟩ | ⟨txid, -, rfl⟩
  · exact if_neg fun hcond => hne hcond.1
  · rfl
  · exact if_neg fun hcond => hne hcond.1

/-- Written twice is written once. -/
theorem surveyWrite_twice (l : Listing) :
    w.onListing listingId (w.onListing listingId l) = w.onListing listingId l := by
  rcases surveyWrite_cases h with rfl | ⟨-, rfl⟩ | ⟨txid, -, rfl⟩ <;>
    simp only [Write.onListing] <;> split <;> rfl

theorem surveyWrite_twice_fill (k : Nat) (f : Fill) :
    w.onFill cfg c.now k (w.onFill cfg c.now k f) = w.onFill cfg c.now k f := by
  rcases surveyWrite_cases h with rfl | ⟨-, rfl⟩ | ⟨txid, -, rfl⟩
  · simp only [Write.onFill]
    split_ifs <;> rfl
  · rfl
  · simp only [Write.onFill]
    split_ifs <;> rfl

end

section

variable (h : Surveys cfg c db db')

include h

theorem Surveys.listing_kept (hl : db.listings.get listingId = some l)
    (hn : ∀ w, ¬ Surveyed c db listingId w) : db'.listings.get listingId = some l := by
  have hpass := Pass.listing h surveyWrite_reconciles (fun _ => False) id hl ?_ fun _ => rfl
  · rw [hpass, if_neg fun hex => hex.choose_spec.2]
  · intro e w hget hopen hdec l'
    rw [if_neg not_false]
    exact surveyWrite_apart hdec (surveyed_apart hn hget hopen hdec) l'

theorem Surveys.listing (hl : db.listings.get listingId = some l) {w : Write}
    (hw : Surveyed c db listingId w) :
    db'.listings.get listingId = some (w.onListing listingId l) := by
  have hw' := hw
  obtain ⟨l₀, hl₀, hopen, hdec⟩ := hw'
  have hpass := Pass.listing h surveyWrite_reconciles (fun e => listingId = e.1)
    (w.onListing listingId) hl ?_ (surveyWrite_twice hdec)
  · rw [hpass, if_pos ⟨(listingId, l₀), ⟨hl₀, hopen, by rw [hdec]; exact Option.some_ne_none w⟩, rfl⟩]
  · intro e w' hget hopen' hdec' l'
    by_cases hid : listingId = e.1
    · rw [if_pos hid]
      have hsurv : Surveyed c db listingId w' :=
        ⟨e.2, by rw [hid]; exact hget, hopen', by rw [hid]; exact hdec'⟩
      rw [hw.unique hsurv]
    · rw [if_neg hid]
      exact surveyWrite_apart hdec' hid l'

theorem Surveys.fill_kept (hf : db.fills.get k = some f)
    (hn : ∀ w, ¬ Surveyed c db f.listingId w) : db'.fills.get k = some f := by
  have hpass := Pass.fill h surveyWrite_reconciles (fun _ => False) id hf ?_ (fun _ => rfl) fun _ => rfl
  · rw [hpass, if_neg fun hex => hex.choose_spec.2]
  · intro e w hget hopen hdec f' ht
    rw [if_neg not_false]
    have hne := surveyed_apart hn hget hopen hdec
    rw [← Fill.terms_listingId ht] at hne
    exact surveyWrite_apart_fill hdec hne k

theorem Surveys.fill (hf : db.fills.get k = some f) {w : Write}
    (hw : Surveyed c db f.listingId w) : db'.fills.get k = some (w.onFill cfg c.now k f) := by
  have hw' := hw
  obtain ⟨l₀, hl₀, hopen, hdec⟩ := hw'
  have hpass := Pass.fill h surveyWrite_reconciles (fun e => f.listingId = e.1)
    (w.onFill cfg c.now k) hf ?_ (w.onFill_terms (surveyWrite_reconciles _ _ w hdec) k)
    (surveyWrite_twice_fill hdec k)
  · rw [hpass,
      if_pos ⟨(f.listingId, l₀), ⟨hl₀, hopen, by rw [hdec]; exact Option.some_ne_none w⟩, rfl⟩]
  · intro e w' hget hopen' hdec' f' ht
    by_cases hid : f.listingId = e.1
    · rw [if_pos hid]
      have hsurv : Surveyed c db f.listingId w' :=
        ⟨e.2, by rw [hid]; exact hget, hopen', by rw [hid]; exact hdec'⟩
      rw [hw.unique hsurv]
    · rw [if_neg hid]
      rw [← Fill.terms_listingId ht] at hid
      exact surveyWrite_apart_fill hdec' hid k

end

/-- A reserved listing is released. -/
def Listing.release (l : Listing) : Listing := if l.status = .reserved then l.set .active else l

theorem release_of_ne (h : l.status ≠ .reserved) : l.release = l := if_neg h

theorem release_of_reserved (h : l.status = .reserved) : l.release = l.set .active := if_pos h

section

variable {p q : Fill → Prop} {dec : MarketDb → Nat × Fill → Option Write}
  (h : Pass cfg c (fun db => db.fills) p dec db db')
  (hq : ∀ e, dec db e ≠ none ↔ q e.2)
  (hrec : ∀ db a, ∀ w ∈ dec db a, w.reconciles)
  (hdec : ∀ e w, dec db e = some w → w = .expireFill e.1 e.2.listingId)

include h hq hrec hdec

open Classical in
/-- A pass that gives up fills. -/
theorem Pass.expire_fill (hf : db.fills.get k = some f) :
    db'.fills.get k = some (if p f ∧ q f then f.set .expired else f) := by
  have hpass := h.fill hrec (fun e => k = e.1) (Fill.set .expired) hf ?_ (fun _ => rfl) fun _ => rfl
  · simp only [hpass, calls_fill hq hf]
  · intro e w _ _ hw f' _
    obtain rfl := hdec e w hw
    simp only [Write.onFill]
    congr

open Classical in
theorem Pass.expire_listing (hl : db.listings.get listingId = some l) :
    db'.listings.get listingId =
      some (if HasFill db listingId fun f => p f ∧ q f then l.release else l) := by
  have htwice : ∀ l' : Listing, l'.release.release = l'.release := by
    intro l'
    unfold Listing.release
    split_ifs <;> simp_all
  have hpass := h.listing hrec (fun e => listingId = e.2.listingId) Listing.release hl ?_ htwice
  · simp only [hpass, calls_hasFill hq]
  · intro e w _ _ hw l'
    obtain rfl := hdec e w hw
    simp only [Write.onListing, Listing.release, ite_and]
    congr

end

open Classical in
theorem Sweeps.fill (h : Sweeps cfg c db db') (hf : db.fills.get k = some f) :
    db'.fills.get k =
      some (if f.status = .buyerSigned ∧ FundsSpent c f.buyerFundInputs then f.set .expired
        else f) := by
  rw [Pass.expire_fill (q := fun f => FundsSpent c f.buyerFundInputs) h
    (fun _ => sweepWrite_ne_none) sweepWrite_reconciles (fun _ _ => sweepWrite_eq_some) hf]
  congr

open Classical in
theorem Sweeps.listing (h : Sweeps cfg c db db') (hl : db.listings.get listingId = some l) :
    db'.listings.get listingId =
      some (if HasFill db listingId fun f =>
          f.status = .buyerSigned ∧ FundsSpent c f.buyerFundInputs then l.release else l) :=
  Pass.expire_listing (q := fun f => FundsSpent c f.buyerFundInputs) h
    (fun _ => sweepWrite_ne_none) sweepWrite_reconciles (fun _ _ => sweepWrite_eq_some) hl

theorem ExpiresListings.fill (h : ExpiresListings cfg c db db') (hf : db.fills.get k = some f) :
    db'.fills.get k = some f := by
  have hpass := Pass.fill h expireListingWrite_reconciles (fun _ => False) id hf ?_ (fun _ => rfl)
    fun _ => rfl
  · rw [hpass, if_neg fun hex => hex.choose_spec.2]
  · intro e w _ _ hdec f' _
    obtain rfl := Option.some.inj hdec
    simp only [Write.onFill, if_false]

open Classical in
theorem ExpiresListings.listing (h : ExpiresListings cfg c db db')
    (hl : db.listings.get listingId = some l) :
    db'.listings.get listingId =
      some (if l.status = .active ∧ l.expiryHeight ≤ c.tip then l.set .expired else l) := by
  have hpass := Pass.listing h expireListingWrite_reconciles (fun e => listingId = e.1)
    (Listing.set .expired) hl ?_ fun _ => rfl
  · rw [hpass]
    have hiff : (∃ e, Calls (fun db => db.listings)
        (fun l => l.status = .active ∧ l.expiryHeight ≤ c.tip) expireListingWrite db e ∧
          listingId = e.1) ↔ l.status = .active ∧ l.expiryHeight ≤ c.tip := by
      constructor
      · intro hex
        obtain ⟨⟨id, l'⟩, ⟨hget, hp, -⟩, rfl⟩ := hex
        obtain rfl : l = l' := Option.some.inj (hl.symm.trans hget)
        exact hp
      · intro hp
        exact ⟨(listingId, l), ⟨hl, hp, Option.some_ne_none _⟩, rfl⟩
    simp only [hiff]
  · intro e w _ _ hdec l'
    obtain rfl := Option.some.inj hdec
    simp only [Write.onListing]
    congr

open Classical in
theorem ExpiresFills.fill (h : ExpiresFills cfg c db db') (hf : db.fills.get k = some f) :
    db'.fills.get k = some (if reservationOver c.now f = true then f.set .expired else f) := by
  have hpass := Pass.expire_fill (q := fun _ => True) h
    (fun e => iff_true_intro (Option.some_ne_none _)) expireFillWrite_reconciles
    (fun e w hw => (Option.some.inj hw).symm) hf
  simpa only [and_true] using hpass

open Classical in
theorem ExpiresFills.listing (h : ExpiresFills cfg c db db')
    (hl : db.listings.get listingId = some l) :
    db'.listings.get listingId =
      some (if HasFill db listingId fun f => reservationOver c.now f = true then l.release
        else l) := by
  have hpass := Pass.expire_listing (q := fun _ => True) h
    (fun e => iff_true_intro (Option.some_ne_none _)) expireFillWrite_reconciles
    (fun e w hw => (Option.some.inj hw).symm) hl
  simpa only [and_true] using hpass

/-! Fills that are on their way. -/

theorem Promotes.sameTerms (h : Promotes cfg c db db') : SameTerms db db' :=
  Pass.sameTerms h promoteWrite_reconciles

theorem Reorgs.sameTerms (h : Reorgs cfg c db db') : SameTerms db db' :=
  Pass.sameTerms h reorgWrite_reconciles

theorem Surveys.sameTerms (h : Surveys cfg c db db') : SameTerms db db' :=
  Pass.sameTerms h surveyWrite_reconciles

theorem Sweeps.sameTerms (h : Sweeps cfg c db db') : SameTerms db db' :=
  Pass.sameTerms h sweepWrite_reconciles

theorem ExpiresListings.sameTerms (h : ExpiresListings cfg c db db') : SameTerms db db' :=
  Pass.sameTerms h expireListingWrite_reconciles

theorem ExpiresFills.sameTerms (h : ExpiresFills cfg c db db') : SameTerms db db' :=
  Pass.sameTerms h expireFillWrite_reconciles

/-- A fill after the promotion was there before it, or has just been promoted. -/
theorem Promotes.fill_cases (h : Promotes cfg c db db') (hf' : db'.fills.get k = some f) :
    (db.fills.get k = some f ∧ ¬ (f.status = .broadcast ∧ Mined c db f)) ∨
      (f.status = .confirmed ∧ Mined c db' f) := by
  obtain ⟨f₀, hf₀, -⟩ := h.sameTerms.symm.fill hf'
  have heq := h.fill hf₀
  rw [hf', Option.some.injEq] at heq
  split at heq
  · rename_i hcond
    subst heq
    exact Or.inr ⟨rfl, hcond.2.of_sameTerms h.sameTerms rfl⟩
  · rename_i hcond
    subst heq
    exact Or.inl ⟨hf₀, hcond⟩

theorem Reorgs.fill_cases (h : Reorgs cfg c db db') (hf' : db'.fills.get k = some f) :
    (db.fills.get k = some f ∧ ¬ (f.status = .confirmed ∧ Unmined c db f)) ∨
      f.status = .reorged := by
  obtain ⟨f₀, hf₀, -⟩ := h.sameTerms.symm.fill hf'
  have heq := h.fill hf₀
  rw [hf', Option.some.injEq] at heq
  split at heq
  · subst heq
    exact Or.inr rfl
  · rename_i hcond
    subst heq
    exact Or.inl ⟨hf₀, hcond⟩

theorem Surveys.fill_cases (h : Surveys cfg c db db') (hf' : db'.fills.get k = some f) :
    db.fills.get k = some f ∨ f.status = .failed ∨
      ∃ txid, f.status = .broadcast ∧ f.txid = some txid ∧
        Surveyed c db f.listingId (.rependFill f.listingId txid) := by
  obtain ⟨f₀, hf₀, -⟩ := h.sameTerms.symm.fill hf'
  by_cases hex : ∃ w, Surveyed c db f₀.listingId w
  · obtain ⟨w, hw⟩ := hex
    have heq := h.fill hf₀ hw
    rw [hf', Option.some.injEq] at heq
    obtain ⟨l, hl, hopen, hdec⟩ := hw
    rcases surveyWrite_cases hdec with rfl | ⟨-, rfl⟩ | ⟨txid, -, rfl⟩
    · simp only [Write.onFill] at heq
      split at heq
      · subst heq
        exact Or.inr (Or.inl rfl)
      · exact Or.inl (heq ▸ hf₀)
    · exact Or.inl (heq ▸ hf₀)
    · simp only [Write.onFill] at heq
      split at heq
      · rename_i hcond
        subst heq
        exact Or.inr (Or.inr ⟨txid, rfl, hcond.2, l, hl, hopen, hdec⟩)
      · exact Or.inl (heq ▸ hf₀)
  · have heq := h.fill_kept hf₀ fun w hw => hex ⟨w, hw⟩
    rw [hf', Option.some.injEq] at heq
    exact Or.inl (heq ▸ hf₀)

theorem Sweeps.fill_cases (h : Sweeps cfg c db db') (hf' : db'.fills.get k = some f) :
    (db.fills.get k = some f ∧ ¬ (f.status = .buyerSigned ∧ FundsSpent c f.buyerFundInputs)) ∨
      f.status = .expired := by
  obtain ⟨f₀, hf₀, -⟩ := h.sameTerms.symm.fill hf'
  have heq := h.fill hf₀
  rw [hf', Option.some.injEq] at heq
  split at heq
  · subst heq
    exact Or.inr rfl
  · rename_i hcond
    subst heq
    exact Or.inl ⟨hf₀, hcond⟩

theorem ExpiresListings.fill_iff (h : ExpiresListings cfg c db db') :
    db'.fills.get k = some f ↔ db.fills.get k = some f := by
  constructor
  · intro hf'
    obtain ⟨f₀, hf₀, -⟩ := h.sameTerms.symm.fill hf'
    have heq := h.fill hf₀
    rw [hf', Option.some.injEq] at heq
    rw [heq]
    exact hf₀
  · exact h.fill

theorem ExpiresFills.fill_cases (h : ExpiresFills cfg c db db') (hf' : db'.fills.get k = some f) :
    (db.fills.get k = some f ∧ ¬ reservationOver c.now f = true) ∨ f.status = .expired := by
  obtain ⟨f₀, hf₀, -⟩ := h.sameTerms.symm.fill hf'
  have heq := h.fill hf₀
  rw [hf', Option.some.injEq] at heq
  split at heq
  · subst heq
    exact Or.inr rfl
  · rename_i hcond
    subst heq
    exact Or.inl ⟨hf₀, hcond⟩

/-! A listing after a pass, from the one before it. -/

open Classical in
theorem Promotes.listing_back {l' : Listing} (h : Promotes cfg c db db')
    (hl' : db'.listings.get listingId = some l') :
    ∃ l, db.listings.get listingId = some l ∧
      l' = if HasFill db listingId fun f => f.status = .broadcast ∧ Mined c db f then
        l.set .filled else l := by
  obtain ⟨l, hl, -⟩ := h.sameTerms.symm.listing hl'
  exact ⟨l, hl, Option.some.inj (hl'.symm.trans (h.listing hl))⟩

open Classical in
theorem Reorgs.listing_back {l' : Listing} (h : Reorgs cfg c db db')
    (hl' : db'.listings.get listingId = some l') :
    ∃ l, db.listings.get listingId = some l ∧
      l' = if HasFill db listingId fun f => f.status = .confirmed ∧ Unmined c db f then
        l.set .reorged else l := by
  obtain ⟨l, hl, -⟩ := h.sameTerms.symm.listing hl'
  exact ⟨l, hl, Option.some.inj (hl'.symm.trans (h.listing hl))⟩

open Classical in
theorem Sweeps.listing_back {l' : Listing} (h : Sweeps cfg c db db')
    (hl' : db'.listings.get listingId = some l') :
    ∃ l, db.listings.get listingId = some l ∧
      l' = if HasFill db listingId fun f =>
        f.status = .buyerSigned ∧ FundsSpent c f.buyerFundInputs then l.release else l := by
  obtain ⟨l, hl, -⟩ := h.sameTerms.symm.listing hl'
  exact ⟨l, hl, Option.some.inj (hl'.symm.trans (h.listing hl))⟩

open Classical in
theorem ExpiresListings.listing_back {l' : Listing} (h : ExpiresListings cfg c db db')
    (hl' : db'.listings.get listingId = some l') :
    ∃ l, db.listings.get listingId = some l ∧
      l' = if l.status = .active ∧ l.expiryHeight ≤ c.tip then l.set .expired else l := by
  obtain ⟨l, hl, -⟩ := h.sameTerms.symm.listing hl'
  exact ⟨l, hl, Option.some.inj (hl'.symm.trans (h.listing hl))⟩

open Classical in
theorem ExpiresFills.listing_back {l' : Listing} (h : ExpiresFills cfg c db db')
    (hl' : db'.listings.get listingId = some l') :
    ∃ l, db.listings.get listingId = some l ∧
      l' = if HasFill db listingId fun f => reservationOver c.now f = true then l.release
        else l := by
  obtain ⟨l, hl, -⟩ := h.sameTerms.symm.listing hl'
  exact ⟨l, hl, Option.some.inj (hl'.symm.trans (h.listing hl))⟩

/-! A fill that does not have the status a pass writes was there before it. -/

theorem Reorgs.back (h : Reorgs cfg c db db') (hf' : db'.fills.get k = some f)
    (hr : f.status ≠ .reorged) : db.fills.get k = some f := by
  rcases h.fill_cases hf' with hf | hreorged
  · exact hf.1
  · exact absurd hreorged hr

theorem Surveys.back (h : Surveys cfg c db db') (hf' : db'.fills.get k = some f)
    (hfail : f.status ≠ .failed) (hb : f.status ≠ .broadcast) : db.fills.get k = some f := by
  rcases h.fill_cases hf' with hf | hfailed | ⟨txid, hbroadcast, -⟩
  · exact hf
  · exact absurd hfailed hfail
  · exact absurd hbroadcast hb

theorem Sweeps.back (h : Sweeps cfg c db db') (hf' : db'.fills.get k = some f)
    (he : f.status ≠ .expired) : db.fills.get k = some f := by
  rcases h.fill_cases hf' with hf | hexpired
  · exact hf.1
  · exact absurd hexpired he

theorem ExpiresFills.back (h : ExpiresFills cfg c db db') (hf' : db'.fills.get k = some f)
    (he : f.status ≠ .expired) : db.fills.get k = some f := by
  rcases h.fill_cases hf' with hf | hexpired
  · exact hf.1
  · exact absurd hexpired he

/-- Promotion changes BROADCAST fills, to CONFIRMED. -/
theorem Promotes.kept (h : Promotes cfg c db db') (hb : f.status ≠ .broadcast)
    (hc : f.status ≠ .confirmed) :
    db'.fills.get k = some f ↔ db.fills.get k = some f := by
  constructor
  · intro hf'
    rcases h.fill_cases hf' with hf | hconf
    · exact hf.1
    · exact absurd hconf.1 hc
  · intro hf
    rw [h.fill hf, if_neg fun hcond => hb hcond.1]

/-- A reorg changes CONFIRMED fills, to REORGED. -/
theorem Reorgs.kept (h : Reorgs cfg c db db') (hc : f.status ≠ .confirmed)
    (hr : f.status ≠ .reorged) : db'.fills.get k = some f ↔ db.fills.get k = some f := by
  constructor
  · exact fun hf' => h.back hf' hr
  · intro hf
    rw [h.fill hf, if_neg fun hcond => hc hcond.1]

/-- The survey leaves the fills of a listing it leaves. -/
theorem Surveys.kept (h : Surveys cfg c db db') (hn : ∀ w, ¬ Surveyed c db f.listingId w) :
    db'.fills.get k = some f ↔ db.fills.get k = some f := by
  constructor
  · intro hf'
    obtain ⟨f₀, hf₀, ht⟩ := h.sameTerms.symm.fill hf'
    rw [← Fill.terms_listingId ht] at hn
    rw [h.fill_kept hf₀ hn, Option.some.injEq] at hf'
    rw [← hf']
    exact hf₀
  · intro hf
    exact h.fill_kept hf hn

/-! The fills a listing has for a pass, from the ones before the run. -/

theorem HasFill.congr {p q : Fill → Prop} (h : ∀ k f, db.fills.get k = some f → f.listingId = listingId →
    p f → db'.fills.get k = some f ∧ q f) (hp : HasFill db listingId p) : HasFill db' listingId q := by
  obtain ⟨k, f, hf, hid, hpf⟩ := hp
  obtain ⟨hf', hqf⟩ := h k f hf hid hpf
  exact ⟨k, f, hf', hid, hqf⟩

/-- Promotion adds nothing for a reorg to take back. -/
theorem Promotes.hasFill_unmined_iff (h : Promotes cfg c db db') :
    (HasFill db' listingId fun f => f.status = .confirmed ∧ Unmined c db' f) ↔
      HasFill db listingId fun f => f.status = .confirmed ∧ Unmined c db f := by
  constructor
  · refine HasFill.congr fun k f hf hid hp => ?_
    rcases h.fill_cases hf with ⟨hf₀, -⟩ | ⟨-, hmined⟩
    · exact ⟨hf₀, hp.1, hp.2.of_sameTerms h.sameTerms.symm rfl⟩
    · obtain ⟨l, hl, hspent⟩ := hmined
      obtain ⟨l', hl', hnone⟩ := hp.2
      rw [Option.some.inj (hl.symm.trans hl')] at hspent
      exact absurd hnone hspent
  · refine HasFill.congr fun k f hf hid hp => ?_
    have hf' := h.fill hf
    rw [if_neg (by simp [hp.1])] at hf'
    exact ⟨hf', hp.1, hp.2.of_sameTerms h.sameTerms rfl⟩

section

variable {db₁ db₂ db₃ : MarketDb} (hpromote : Promotes cfg c db db₁)
  (hreorg : Reorgs cfg c db₁ db₂) (hsurvey : Surveys cfg c db₂ db₃)
  (hn : ∀ w, ¬ Surveyed c db₂ listingId w)

include hpromote hreorg hsurvey hn

/-- A fill that waits, of a listing the survey leaves, is what it was before the run. -/
theorem waiting_kept (hid : f.listingId = listingId) (hw : f.status.awaiting) :
    db₃.fills.get k = some f ↔ db.fills.get k = some f := by
  have hne : f.status ≠ .broadcast ∧ f.status ≠ .confirmed ∧ f.status ≠ .reorged := by
    rcases hw with h | h | h | h <;> rw [h] <;> decide
  rw [hsurvey.kept (hid ▸ hn), hreorg.kept hne.2.1 hne.2.2, hpromote.kept hne.1 hne.2.1]

theorem hasFill_waiting_iff {p : Fill → Prop} (hp : ∀ f, p f → f.status.awaiting) :
    HasFill db₃ listingId p ↔ HasFill db listingId p := by
  constructor
  · refine HasFill.congr fun k f hf hid hpf => ?_
    exact ⟨(waiting_kept hpromote hreorg hsurvey hn hid (hp f hpf)).mp hf, hpf⟩
  · refine HasFill.congr fun k f hf hid hpf => ?_
    exact ⟨(waiting_kept hpromote hreorg hsurvey hn hid (hp f hpf)).mpr hf, hpf⟩

theorem hasFill_signed_iff (q : Fill → Prop) :
    (HasFill db₃ listingId fun f => f.status = .buyerSigned ∧ q f) ↔
      HasFill db listingId fun f => f.status = .buyerSigned ∧ q f := by
  refine hasFill_waiting_iff hpromote hreorg hsurvey hn fun f hf => ?_
  rw [hf.1]
  decide

end

end

end Cove
