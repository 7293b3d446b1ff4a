import Cove.Market.Fills

/-! Reconciliation runs into no unique index, as long as nobody takes a source that a listing can
come back to. -/

namespace Cove

open Checked

/-- The statuses a listing has, or comes back from, under the index on source outpoints. -/
def ListingStatus.claims (s : ListingStatus) : Prop := s.indexed ∨ s = .filled ∨ s = .reorged

instance : DecidablePred ListingStatus.claims := fun s =>
  inferInstanceAs (Decidable (s.indexed ∨ s = .filled ∨ s = .reorged))

/-- No two listings claim one source. -/
def SourceClaimed (listings : Dict Bytes Listing) : Prop :=
  ∀ k l, listings.get k = some l → l.status.claims →
    ∀ k' l', listings.get k' = some l' → l'.status.claims → l.source = l'.source → k = k'

/-- The listing is the only one that may claim its source, or claims it already. -/
def ClaimFree (listings : Dict Bytes Listing) (listingId : Bytes) : Prop :=
  ∀ l ∈ listings.get listingId, l.status.claims ∨
    ∀ k l', listings.get k = some l' → l'.status.claims → l'.source = l.source → k = listingId

instance (listings : Dict Bytes Listing) (listingId : Bytes) :
    Decidable (ClaimFree listings listingId) :=
  inferInstanceAs (Decidable (∀ l ∈ listings.get listingId, l.status.claims ∨
    ∀ k l', listings.get k = some l' → l'.status.claims → l'.source = l.source → k = listingId))

/-- The listing a write gives a claiming status, whatever status it has by then. -/
def Write.raises : Write → Option Bytes
  | .broadcastP2PFill v => some v.listingId
  | .promoteFill _ fill _ _ _ => some fill.listingId
  | .reorgFill _ fill => some fill.listingId
  | .reactivateListing listingId => some listingId
  | .rependFill listingId _ => some listingId
  | _ => none

/-- The new listing of a write. -/
def Write.creates : Write → Option ListingV1
  | .createListing _ input => some input
  | _ => none

/-- The transaction a write stores for its fill. -/
def Write.sends : Write → Option ValidatedP2PFill
  | .broadcastP2PFill v => some v
  | _ => none

/-- The write takes no source that a listing can come back to, and a broadcast fill still has the
transaction it was finalized with. -/
structure Write.Unclaimed (db : MarketDb) (w : Write) : Prop where
  created : ∀ input ∈ w.creates, ∀ k l, db.listings.get k = some l → l.source = input.source →
    l.status ≠ .filled ∧ l.status ≠ .reorged
  raised : ∀ listingId ∈ w.raises, ClaimFree db.listings listingId
  sent : ∀ v ∈ w.sends, ∀ f ∈ db.fills.get v.fillId, f.txid = some v.txid

instance (db : MarketDb) (w : Write) : Decidable (w.Unclaimed db) :=
  decidable_of_iff ((∀ input ∈ w.creates, ∀ k l, db.listings.get k = some l →
      l.source = input.source → l.status ≠ .filled ∧ l.status ≠ .reorged) ∧
      (∀ listingId ∈ w.raises, ClaimFree db.listings listingId) ∧
      ∀ v ∈ w.sends, ∀ f ∈ db.fills.get v.fillId, f.txid = some v.txid)
    ⟨fun h => ⟨h.1, h.2.1, h.2.2⟩, fun h => ⟨h.created, h.raised, h.sent⟩⟩

def Move.Unclaimed (s : System) (m : Move) : Prop := ∀ w ∈ m.pending s, w.Unclaimed s.db

instance (s : System) (m : Move) : Decidable (m.Unclaimed s) :=
  inferInstanceAs (Decidable (∀ w ∈ m.pending s, w.Unclaimed s.db))

theorem commit_error {rows : MarketRows} {f : Fault} (h : rows.commit = .error f) :
    f.code = some "23505" := by
  unfold MarketRows.commit at h
  split at h
  · split at h
    · cases h
    · cases h
      rfl
  · cases h
    rfl

/-- The statements of `reconcileMarket`, and that of `broadcastP2PFill` once the transaction is
out. -/
def Write.Settles : Write → Prop
  | .broadcastP2PFill _ => True
  | .promoteFill _ _ _ _ _ => True
  | .reorgFill _ _ => True
  | .invalidateListing _ => True
  | .reactivateListing _ => True
  | .rependFill _ _ => True
  | .expireFill _ _ => True
  | .expireListing _ => True
  | _ => False

section

variable {cfg : MarketConfig} {c : ChainView} {db db' : MarketDb} {w : Write}

/-- A reservation finds its listing ACTIVE. -/
def Write.ReservesActive (db : MarketDb) (w : Write) : Prop :=
  ∀ fillId input tip startedAt, w = .reserveListing fillId input tip startedAt →
    ∀ l ∈ db.listings.get input.listingId, l.status = .active

theorem Write.reservesActive_of_run (h : w.run cfg c db = .ok db') : w.ReservesActive db := by
  intro fillId input tip startedAt hw l hl
  subst hw
  obtain ⟨row, -, hrow, hactive, -⟩ := reserveListing_eq_ok h
  obtain rfl : row = l := Option.some.inj (hrow.symm.trans hl)
  exact hactive

theorem Write.Settles.reservesActive (hw : w.Settles) : w.ReservesActive db := by
  intro fillId input tip startedAt heq
  subst heq
  exact hw.elim

/-- A row that claims its source after a write claimed it before, or was raised. -/
theorem Write.claims_before (h : w.ReservesActive db) {k : Bytes} {l : Listing}
    (hl : db.listings.get k = some l) (hc : (w.onListing k l).status.claims) :
    l.status.claims ∨ k ∈ w.raises := by
  cases w with
  | createListing | buildFillPsbt | submitBuyerSignedPsbt | submitSellerSignedPsbt
  | finalizeP2PFill => exact .inl hc
  | reserveListing fillId input tip startedAt =>
    simp only [onListing] at hc
    split at hc
    · rename_i hk
      rw [h _ _ _ _ rfl l (hk ▸ hl)]
      exact .inl (by decide)
    · exact .inl hc
  | expireFill fillId listingId =>
    simp only [onListing] at hc
    split at hc
    · rename_i hk
      rw [hk.2]
      exact .inl (by decide)
    · exact .inl hc
  | cancelListing | invalidateListing | expireListing =>
    simp only [onListing] at hc
    split at hc
    · rw [Listing.set_status] at hc
      exact absurd hc (by decide)
    · exact .inl hc
  | broadcastP2PFill | promoteFill | reorgFill | reactivateListing | rependFill =>
    simp only [onListing] at hc
    split at hc
    · rename_i hk
      exact .inr (by simp [raises, hk])
    · exact .inl hc

/-- Rows that only changed as a write changes them claim no source twice. -/
theorem SourceClaimed.onListing (hS : SourceClaimed db.listings)
    (hfree : ∀ listingId ∈ w.raises, ClaimFree db.listings listingId)
    (h : w.ReservesActive db) {k k' : Bytes} {l l' : Listing}
    (hl : db.listings.get k = some l) (hl' : db.listings.get k' = some l')
    (hc : (w.onListing k l).status.claims) (hc' : (w.onListing k' l').status.claims)
    (hsource : l.source = l'.source) : k = k' := by
  have hraised : ∀ {k k' : Bytes} {l l' : Listing}, db.listings.get k = some l →
      db.listings.get k' = some l' → k ∈ w.raises → ¬ l.status.claims → l'.status.claims →
      l'.source = l.source → k' = k := by
    intro k k' l l' hl hl' hk hno hc' hs
    rcases hfree k hk l hl with hyes | hfree
    · exact absurd hyes hno
    · exact hfree k' l' hl' hc' hs
  by_cases hold : l.status.claims
  · by_cases hold' : l'.status.claims
    · exact hS k l hl hold k' l' hl' hold' hsource
    · rcases w.claims_before h hl' hc' with hyes | hk'
      · exact absurd hyes hold'
      · exact hraised hl' hl hk' hold' hold hsource
  · rcases w.claims_before h hl hc with hyes | hk
    · exact absurd hyes hold
    by_cases hold' : l'.status.claims
    · exact (hraised hl hl' hk hold hold' hsource.symm).symm
    · rcases w.claims_before h hl' hc' with hyes | hk'
      · exact absurd hyes hold'
      · exact Option.some.inj (hk.symm.trans hk')

theorem Write.onListing_source (k : Bytes) (l : Listing) :
    (w.onListing k l).source = l.source := by
  rw [ListingV1.source, ListingV1.source, w.onListing_terms]

/-- A committed write keeps the claims apart. -/
theorem SourceClaimed.run (hS : SourceClaimed db.listings) (hw : w.Unclaimed db)
    (h : w.run cfg c db = .ok db') : SourceClaimed db'.listings := by
  have hnew : ∀ {k k' : Bytes} {input : ListingV1} {l : Listing}, w = .createListing k input →
      db'.listings.get k = some ⟨input, .active⟩ → db.listings.get k' = some l →
      db'.listings.get k' = some (w.onListing k' l) → (w.onListing k' l).status.claims →
      input.source = (w.onListing k' l).source → k = k' := by
    intro k k' input l hcreate hk hl hl' hc hs
    subst hcreate
    obtain ⟨hfilled, hreorged⟩ := hw.created input rfl k' l hl hs.symm
    rcases hc with hindexed | hf | hr
    · exact db'.sources k _ hk (.inl rfl) k' _ hl' hindexed hs
    · exact absurd hf hfilled
    · exact absurd hr hreorged
  intro k m hm hc k' m' hm' hc' hs
  rcases w.run_listing_cases h hm with ⟨l, hl, rfl⟩ | ⟨input, hcreate, -, rfl⟩
  · rcases w.run_listing_cases h hm' with ⟨l', hl', rfl⟩ | ⟨input', hcreate, -, rfl⟩
    · rw [w.onListing_source, w.onListing_source] at hs
      exact hS.onListing hw.raised (w.reservesActive_of_run h) hl hl' hc hc' hs
    · exact (hnew hcreate hm' hl hm hc hs.symm).symm
  · rcases w.run_listing_cases h hm' with ⟨l', hl', rfl⟩ | ⟨input', hcreate', -, rfl⟩
    · exact hnew hcreate hm hl' hm' hc' hs
    · rw [hcreate] at hcreate'
      injection hcreate'

/-- What the settling statements try to commit: the rows changed as each write changes them. -/
theorem Write.settles_run (cfg : MarketConfig) (c : ChainView) (db : MarketDb) (hw : w.Settles) :
    (∃ rows : MarketRows, w.run cfg c db = rows.commit ∧
      (∀ k, rows.listings.get k = (db.listings.get k).map (w.onListing k)) ∧
      ∀ k, rows.fills.get k = (db.fills.get k).map (w.onFill cfg c.now k)) ∨
    w.run cfg c db = .error (marketFault "23502" "null value in column txid") := by
  cases w with
  | createListing | cancelListing | reserveListing | buildFillPsbt | submitBuyerSignedPsbt
  | submitSellerSignedPsbt | finalizeP2PFill => exact hw.elim
  | broadcastP2PFill | reorgFill =>
    exact .inl ⟨_, rfl, fun _ => setListing_get, fun _ => setFill_get⟩
  | promoteFill fillId fill listing utxo tip =>
    cases htxid : fill.txid with
    | none =>
      right
      simp only [run, Cove.promoteFill, ensureTrade, htxid]
      rfl
    | some txid =>
      left
      simp only [run, Cove.promoteFill, ensureTrade, htxid]
      exact ⟨_, rfl, fun _ => setListing_get, fun _ => setFill_get⟩
  | invalidateListing | rependFill =>
    refine .inl ⟨_, rfl, fun _ => setListing_get, ?_⟩
    intro k
    cases hf : db.fills.get k <;> simp [Table.get_updateWhere, hf, onFill]
  | reactivateListing | expireListing =>
    refine .inl ⟨_, rfl, fun _ => setListing_get, ?_⟩
    intro k
    show db.fills.get k = _
    cases db.fills.get k <;> rfl
  | expireFill fillId listingId =>
    refine .inl ⟨_, rfl, ?_, fun _ => setFill_get⟩
    intro k
    refine (Table.get_update _ _ _ _).trans ?_
    by_cases hk : k = listingId
    · cases hl : db.listings.get k <;> simp [hk, onListing]
    · cases hl : db.listings.get k <;> simp [hk, onListing]

/-- A settling write stores no transaction but the one its fill was finalized with. -/
theorem Write.onFill_txid (hw : w.Settles)
    (hsent : ∀ v ∈ w.sends, ∀ f ∈ db.fills.get v.fillId, f.txid = some v.txid) {k : Nat} {f : Fill}
    (hf : db.fills.get k = some f) : (w.onFill cfg c.now k f).txid = f.txid := by
  cases w with
  | createListing | cancelListing | reserveListing | buildFillPsbt | submitBuyerSignedPsbt
  | submitSellerSignedPsbt | finalizeP2PFill => exact hw.elim
  | broadcastP2PFill v =>
    simp only [onFill]
    split
    · rename_i hk
      rw [hk] at hf
      exact (hsent v rfl f hf).symm
    · rfl
  | promoteFill | reorgFill | invalidateListing | rependFill | expireFill =>
    simp only [onFill]
    split <;> rfl
  | reactivateListing | expireListing => rfl

/-- The statement commits, or is about a fill without a transaction. -/
theorem Write.settles (cfg : MarketConfig) (c : ChainView) (hS : SourceClaimed db.listings)
    (hu : w.Unclaimed db) (hw : w.Settles) :
    (∃ db', w.run cfg c db = .ok db') ∨
    w.run cfg c db = .error (marketFault "23502" "null value in column txid") := by
  rcases Write.settles_run cfg c db hw with
    ⟨rows, hrun, hlistings, hfills⟩ | hnull
  · left
    have hsources : SourceUnique rows.listings := by
      intro k m hm hc k' m' hm' hc' hs
      rw [hlistings] at hm hm'
      obtain ⟨l, hl, rfl⟩ := Option.map_eq_some_iff.mp hm
      obtain ⟨l', hl', rfl⟩ := Option.map_eq_some_iff.mp hm'
      rw [w.onListing_source, w.onListing_source] at hs
      exact hS.onListing hu.raised hw.reservesActive hl hl' (.inl hc) (.inl hc') hs
    have htxids : TxidUnique rows.fills := by
      intro k g hg hne k' g' hg' heq
      rw [hfills] at hg hg'
      obtain ⟨f, hf, rfl⟩ := Option.map_eq_some_iff.mp hg
      obtain ⟨f', hf', rfl⟩ := Option.map_eq_some_iff.mp hg'
      rw [Write.onFill_txid hw hu.sent hf] at hne heq
      rw [Write.onFill_txid hw hu.sent hf'] at heq
      exact db.txids k f hf hne k' f' hf' heq
    rw [hrun, MarketRows.commit, dif_pos hsources, dif_pos htxids]
    exact ⟨_, rfl⟩
  · exact .inr hnull

end

/-! Runs. -/

section

variable {env : MarketEnv} {s s' : System} {m : Move}

theorem SourceClaimed.step (hS : SourceClaimed s.db.listings) (hm : m.Unclaimed s)
    (h : s.step env m = some s') : SourceClaimed s'.db.listings := by
  cases System.step_effect h with
  | observe | began | refused | read | threw | crashed => exact hS
  | committed i order w next db ht hrun =>
    exact hS.run (hm w (by simp [Move.pending, ht, Task.pending])) hrun

/-- Whatever the interleaving, as long as no write takes a source a listing can come back to, no
statement of reconciliation, nor of a broadcast, violates a unique index. -/
theorem reconciliation_completes {c : ChainView} {moves : List Move} {i : Nat} {order : RowOrder}
    {w : Write} {next : Task} {f : Fault}
    (hg : Machine.Guarded (System.step env) (fun s m => m.Unclaimed s) (System.init c)
      (moves ++ [.turn i order]))
    (h : Machine.run (System.step env) (System.init c) moves = some s)
    (ht : s.tasks[i]? = some (.write w next)) (hw : w.Settles)
    (hrun : w.run env.config s.chain s.db = .error f) : f.code ≠ some "23505" := by
  obtain ⟨hbefore, hlast⟩ := Machine.guarded_append hg h
  have hinit : SourceClaimed (System.init c).db.listings := by
    intro k l hl
    cases hl
  have hS := Machine.run_invariant (I := fun s : System => SourceClaimed s.db.listings)
    (fun _ _ _ hI hm hs => hI.step hm hs) hinit hbefore h
  have hu : w.Unclaimed s.db := hlast.1 w (by simp [Move.pending, ht, Task.pending])
  rcases Write.settles env.config s.chain hS hu hw with ⟨db', hok⟩ | hnull
  · rw [hok] at hrun
    cases hrun
  · rw [hnull] at hrun
    cases hrun
    decide

end

/-- The fill is finalized, and its transaction is out. -/
def sentRun : List Move := signedRun ++ [Move.call (.finalizeP2PFill 1)] ++ sampleTurns 5 3

theorem reconciliation_completes_sample : ∃ s w next,
    Machine.run (System.step sampleEnv) (System.init (sampleView 100 0 none)) sentRun = some s ∧
    s.tasks[5]? = some (.write w next) ∧ w.Settles ∧
    ∀ f, w.run sampleEnv.config s.chain s.db = .error f → f.code ≠ some "23505" := by
  have hg : Machine.Guarded (System.step sampleEnv) (fun s m => m.Unclaimed s)
      (System.init (sampleView 100 0 none)) (sentRun ++ [.turn 5 sampleOrder]) := by
    decide +kernel
  have hrun : ((Machine.run (System.step sampleEnv) (System.init (sampleView 100 0 none))
      sentRun).any fun s => (s.tasks[5]?.bind Task.pending).any fun w => w.sends.isSome) = true := by
    decide +kernel
  obtain ⟨s, hs, htest⟩ := (Option.any_eq_true _ _).mp hrun
  obtain ⟨w, hw, hsends⟩ := (Option.any_eq_true _ _).mp htest
  obtain ⟨t, ht, hpending⟩ := Option.bind_eq_some_iff.mp hw
  cases t with
  | write w' next =>
    obtain rfl : w' = w := Option.some.inj hpending
    have hsettles : w'.Settles := by
      cases w' <;> first | exact trivial | cases hsends
    exact ⟨s, w', next, hs, ht, hsettles,
      fun f hf => reconciliation_completes hg hs ht hsettles hf⟩
  | _ => cases hpending

def relistedId : Bytes := List.replicate 32 0x1e

def relistedTurns (i n : Nat) : List Move :=
  List.replicate n (.turn i ⟨[sampleListingId, relistedId], [1, 2]⟩)

/-- The fill confirms and is reconciled, a reorg takes it back, the seller lists the carrier once
more, and the market is reconciled up to its first write about the old listing. -/
def relistedRun : List Move :=
  sentRun ++ sampleTurns 5 1 ++
  [Move.observe (sampleView 110 0 (some (Transaction.getId sampleCrypto listedFill))),
    Move.call .reconcileMarket] ++ relistedTurns 6 10 ++
  [Move.observe (sampleView 111 0 none), Move.call (.createListing relistedId sampleListing)] ++
  relistedTurns 7 1 ++ [Move.call .reconcileMarket] ++ relistedTurns 8 7

/-- Reconciliation stops at the unique index of the sources. -/
theorem relisted_source_aborts : ∃ s next f,
    Machine.run (System.step sampleEnv) (System.init (sampleView 100 0 none)) relistedRun =
      some s ∧
    s.tasks[8]? = some (.write (.reactivateListing sampleListingId) next) ∧
    (Write.reactivateListing sampleListingId).run sampleEnv.config s.chain s.db = .error f ∧
    f.code = some "23505" := by
  have hrun : ((Machine.run (System.step sampleEnv) (System.init (sampleView 100 0 none))
      relistedRun).any fun s =>
        (s.tasks[8]?.bind Task.pending) = some (.reactivateListing sampleListingId) ∧
        ((Write.reactivateListing sampleListingId).run sampleEnv.config s.chain s.db).toOption =
          none) = true := by
    decide +kernel
  obtain ⟨s, hs, htest⟩ := (Option.any_eq_true _ _).mp hrun
  obtain ⟨hw, hnone⟩ := of_decide_eq_true htest
  obtain ⟨t, ht, hpending⟩ := Option.bind_eq_some_iff.mp hw
  cases t with
  | write w next =>
    obtain rfl := Option.some.inj hpending
    cases hres : (Write.reactivateListing sampleListingId).run sampleEnv.config s.chain s.db with
    | ok db =>
      rw [hres] at hnone
      cases hnone
    | error f => exact ⟨s, next, f, hs, ht, hres, commit_error hres⟩
  | _ => cases hpending

end Cove
