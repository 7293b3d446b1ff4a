import Cove.Market.Fills

/-! A cancelled listing stays cancelled, when it was at rest as it was cancelled. -/

namespace Cove

open Checked

/-- A row that is not one of the listing: the listing named with it is another, and so is the
fill's own. -/
def ApartFrom (db : MarketDb) (listingId : Bytes) (k : Nat) (id : Bytes) : Prop :=
  id ≠ listingId ∧ ∀ f, db.fills.get k = some f → f.listingId ≠ listingId

/-- No handler that is still running has read the listing or one of its fills. -/
def Idle (s : System) (listingId : Bytes) : Prop :=
  ∀ t ∈ s.tasks, t.ForRows (ApartFrom s.db listingId) (· ≠ listingId)

/-- A listing can be cancelled for good: none of its fills is out on the chain, and no handler is
busy with it. -/
structure AtRest (s : System) (listingId : Bytes) : Prop where
  fills : ∀ k f, s.db.fills.get k = some f → f.listingId = listingId →
    f.status ≠ .broadcast ∧ f.status ≠ .confirmed
  idle : Idle s listingId

/-- A cancellation the move commits finds its listing at rest. -/
def Move.CancelsAtRest (s : System) (m : Move) : Prop :=
  ∀ listingId cancelHash, m.pending s = some (.cancelListing listingId cancelHash) →
    AtRest s listingId

/-- Nothing holds a cancelled listing, and no handler is busy with it. -/
structure Buried (s : System) (listingId : Bytes) : Prop where
  fills : ∀ k f, s.db.fills.get k = some f → f.listingId = listingId → ¬ f.status.engaged
  idle : Idle s listingId

def System.CancelInv (s : System) : Prop :=
  ∀ listingId l, s.db.listings.get listingId = some l → l.status = .cancelled →
    Buried s listingId

section

variable {cfg : MarketConfig} {c : ChainView} {db db' : MarketDb} {w : Write} {listingId : Bytes}
  {l : Listing}

/-- A handler that is busy elsewhere changes neither a cancelled listing nor its fills. -/
theorem Write.spares (hw : w.ForRows (ApartFrom db listingId) (· ≠ listingId))
    (h : w.run cfg c db = .ok db') (hl : db.listings.get listingId = some l)
    (hc : l.status = .cancelled) : w.onListing listingId l = l := by
  cases w with
  | createListing | buildFillPsbt | submitBuyerSignedPsbt | submitSellerSignedPsbt
  | finalizeP2PFill => rfl
  | cancelListing id cancelHash =>
    obtain ⟨⟨row, hrow, -, hnot⟩, -⟩ := cancelListing_eq_ok h
    simp only [onListing]
    split
    · rename_i hid
      rw [← hid, hl] at hrow
      rw [← Option.some.inj hrow] at hnot
      exact absurd hc hnot
    · rfl
  | reserveListing fillId input tip startedAt =>
    obtain ⟨row, fill, hrow, hactive, -⟩ := reserveListing_eq_ok h
    simp only [onListing]
    split
    · rename_i hid
      rw [← hid, hl] at hrow
      rw [← Option.some.inj hrow, hc] at hactive
      cases hactive
    · rfl
  | broadcastP2PFill v => exact if_neg (Ne.symm hw.1)
  | promoteFill fillId fill listing utxo tip => exact if_neg (Ne.symm hw.1)
  | reorgFill fillId fill => exact if_neg (Ne.symm hw.1)
  | invalidateListing id => exact if_neg (Ne.symm hw)
  | reactivateListing id => exact if_neg (Ne.symm hw)
  | rependFill id txid => exact if_neg (Ne.symm hw)
  | expireFill fillId id => exact if_neg fun hcond => hw.1 hcond.1.symm
  | expireListing id => exact if_neg (Ne.symm hw)

theorem Write.spares_fill (hw : w.ForRows (ApartFrom db listingId) (· ≠ listingId))
    (h : w.run cfg c db = .ok db') (hl : db.listings.get listingId = some l)
    (hc : l.status = .cancelled) {k : Nat} {f : Fill} (hf : db.fills.get k = some f)
    (hid : f.listingId = listingId) {now : Nat} : w.onFill cfg now k f = f := by
  cases w with
  | createListing | reserveListing | reactivateListing | expireListing => rfl
  | cancelListing id cancelHash =>
    obtain ⟨⟨row, hrow, -, hnot⟩, -⟩ := cancelListing_eq_ok h
    refine if_neg fun hcond => ?_
    rw [← hcond.1, hid, hl] at hrow
    rw [← Option.some.inj hrow] at hnot
    exact hnot hc
  | invalidateListing id => exact if_neg fun hcond => hw (hcond.1.symm.trans hid)
  | rependFill id txid => exact if_neg fun hcond => hw (hcond.1.symm.trans hid)
  | buildFillPsbt | submitBuyerSignedPsbt | submitSellerSignedPsbt | finalizeP2PFill =>
    obtain ⟨_, hapart⟩ := hw
    simp only [onFill]
    split
    · rename_i hk
      exact absurd hid (hapart.2 f (hk ▸ hf))
    · rfl
  | broadcastP2PFill | promoteFill | reorgFill | expireFill =>
    simp only [onFill]
    split
    · rename_i hk
      exact absurd hid (hw.2 f (hk ▸ hf))
    · rfl

/-- A listing that is not ACTIVE gains no fill. -/
theorem ApartFrom.run (h : w.run cfg c db = .ok db') (hl : db.listings.get listingId = some l)
    (hs : l.status ≠ .active ∨ ∀ fillId input tip startedAt,
      w ≠ .reserveListing fillId input tip startedAt) {k : Nat} {id : Bytes}
    (ha : ApartFrom db listingId k id) : ApartFrom db' listingId k id := by
  refine ⟨ha.1, ?_⟩
  intro g hg
  rcases w.run_fill_cases h hg with ⟨f, hf, rfl⟩ | hres
  · rw [w.onFill_listingId]
    exact ha.2 f hf
  · obtain ⟨input, tip, startedAt, row, hw, hrow, hactive, hid⟩ := hres.input
    intro heq
    rcases hs with hs | hs
    · rw [← hid, heq, hl] at hrow
      rw [← Option.some.inj hrow] at hactive
      exact hs hactive
    · exact hs _ _ _ _ hw

/-- A listing is cancelled after a write only if it was before, or by its cancellation. -/
theorem Write.cancelled_before {k : Bytes} (h : (w.onListing k l).status = .cancelled) :
    l.status = .cancelled ∨ ∃ cancelHash, w = .cancelListing k cancelHash := by
  cases w with
  | createListing | buildFillPsbt | submitBuyerSignedPsbt | submitSellerSignedPsbt
  | finalizeP2PFill => exact Or.inl h
  | cancelListing id cancelHash =>
    simp only [onListing] at h
    split at h
    · rename_i hk
      exact Or.inr ⟨cancelHash, by rw [hk]⟩
    · exact Or.inl h
  | reserveListing | broadcastP2PFill | promoteFill | reorgFill | invalidateListing
  | reactivateListing | rependFill | expireFill | expireListing =>
    simp only [onListing] at h
    split at h
    · rw [Listing.set_status] at h
      cases h
    · exact Or.inl h

end

/-! Runs. -/

section

variable {env : MarketEnv} {s s' : System} {m : Move} {listingId : Bytes} {l : Listing}

/-- A fill that holds a listing is not one of a buried listing. -/
theorem Buried.apart (hb : Buried s listingId) {k : Nat} {f : Fill}
    (hf : s.db.fills.get k = some f) (he : f.status.engaged) :
    ApartFrom s.db listingId k f.listingId := by
  have hne : f.listingId ≠ listingId := fun hid => hb.fills k f hf hid he
  refine ⟨hne, ?_⟩
  intro g hg
  obtain rfl : f = g := Option.some.inj (hf.symm.trans hg)
  exact hne

/-- A listing that was buried stays so when another row is written. -/
theorem Buried.run {db : MarketDb} {w : Write} {next : Task} {i : Nat} (hb : Buried s listingId)
    (hl : s.db.listings.get listingId = some l) (hc : l.status = .cancelled)
    (ht : s.tasks[i]? = some (.write w next)) (h : w.run env.config s.chain s.db = .ok db) :
    Buried { s with db, tasks := s.tasks.set i next } listingId := by
  have htask := hb.idle _ (List.mem_of_getElem? ht)
  have hne : l.status ≠ .active := by
    rw [hc]
    decide
  have hmono : ∀ t : Task, t.ForRows (ApartFrom s.db listingId) (· ≠ listingId) →
      t.ForRows (ApartFrom db listingId) (· ≠ listingId) := fun t hr =>
    hr.mono (fun _ _ ha => ha.run h hl (Or.inl hne)) fun _ hid => hid
  constructor
  case fills =>
    intro k g hg hid
    rcases w.run_fill_cases h hg with ⟨f, hf, rfl⟩ | hres
    · rw [w.onFill_listingId] at hid
      rw [Write.spares_fill htask.1 h hl hc hf hid]
      exact hb.fills k f hf hid
    · obtain ⟨input, tip, startedAt, row, -, hrow, hactive, hgid⟩ := hres.input
      rw [← hgid, hid, hl] at hrow
      rw [← Option.some.inj hrow] at hactive
      exact absurd hactive hne
  case idle => exact forall_mem_set (fun t hmem => hmono t (hb.idle t hmem)) i (hmono next htask.2)

/-- A listing at rest is buried by its cancellation. -/
theorem AtRest.cancel {db : MarketDb} {cancelHash : Bytes} {next : Task} {i : Nat}
    (ha : AtRest s listingId) (hl : s.db.listings.get listingId = some l)
    (ht : s.tasks[i]? = some (.write (.cancelListing listingId cancelHash) next))
    (h : (Write.cancelListing listingId cancelHash).run env.config s.chain s.db = .ok db) :
    Buried { s with db, tasks := s.tasks.set i next } listingId := by
  have htask := ha.idle _ (List.mem_of_getElem? ht)
  have hmono : ∀ t : Task, t.ForRows (ApartFrom s.db listingId) (· ≠ listingId) →
      t.ForRows (ApartFrom db listingId) (· ≠ listingId) := fun t hr =>
    hr.mono (fun _ _ hk => hk.run h hl (Or.inr fun _ _ _ _ heq => by cases heq)) fun _ hid => hid
  constructor
  case fills =>
    intro k g hg hid he
    rcases Write.run_fill_cases h hg with ⟨f, hf, rfl⟩ | hres
    · rw [Write.onFill_listingId] at hid
      obtain ⟨hbroadcast, hconfirmed⟩ := ha.fills k f hf hid
      simp only [Write.onFill] at he
      split at he
      · rw [Fill.set_status] at he
        exact absurd he (by decide)
      · rename_i hcond
        rcases he with (hawait | hb) | hconf
        · exact hcond ⟨hid, hawait⟩
        · exact hbroadcast hb
        · exact hconfirmed hconf
    · obtain ⟨_, _, _, _, heq, -⟩ := hres.input
      cases heq
  case idle => exact forall_mem_set (fun t hmem => hmono t (ha.idle t hmem)) i (hmono next htask.2)

theorem System.CancelInv.step (hI : s.CancelInv) (hm : m.CancelsAtRest s)
    (h : s.step env m = some s') : s'.CancelInv := by
  intro listingId l' hl' hc
  cases System.step_effect h with
  | observe c =>
    obtain ⟨hfills, hidle⟩ := hI listingId l' hl' hc
    exact ⟨hfills, hidle⟩
  | began r t hr =>
    have hb := hI listingId l' hl' hc
    refine ⟨hb.fills, ?_⟩
    intro u hu
    rcases List.mem_append.mp hu with hmem | hmem
    · exact hb.idle u hmem
    · rw [List.mem_singleton.mp hmem]
      exact Request.begin_forRows (fun k f hf he => hb.apart hf he) hr
  | refused r => exact hI listingId l' hl' hc
  | committed i order w next db ht hrun =>
    rcases w.run_listing_cases hrun hl' with ⟨l, hl, rfl⟩ | ⟨input, -, -, rfl⟩
    · rcases w.cancelled_before hc with hcl | ⟨cancelHash, rfl⟩
      · exact (hI listingId l hl hcl).run hl hcl ht hrun
      · have hrest : AtRest s listingId :=
          hm listingId cancelHash (by simp [Move.pending, ht, Task.pending])
        exact hrest.cancel hl ht hrun
    · cases hc
  | read i order t t' ht hread =>
    have hb := hI listingId l' hl' hc
    refine ⟨hb.fills, forall_mem_set hb.idle i ?_⟩
    refine Task.read_forRows (fun k f hf he => hb.apart hf he) ?_
      (hb.idle t (List.mem_of_getElem? ht)) hread
    intro k l hl hopen hk
    rw [hk, hl'] at hl
    rw [← Option.some.inj hl, hc] at hopen
    exact absurd hopen (by decide)
  | threw i order =>
    have hb := hI listingId l' hl' hc
    exact ⟨hb.fills, forall_mem_set hb.idle i trivial⟩
  | crashed i =>
    have hb := hI listingId l' hl' hc
    exact ⟨hb.fills, forall_mem_set hb.idle i trivial⟩

/-- One move leaves a cancelled listing as it is. -/
theorem cancelled_step (hI : s.CancelInv) (h : s.step env m = some s')
    (hl : s.db.listings.get listingId = some l) (hc : l.status = .cancelled) :
    s'.db.listings.get listingId = some l := by
  cases System.step_effect h with
  | observe | began | refused | read | threw | crashed => exact hl
  | committed i order w next db ht hrun =>
    have htask := (hI listingId l hl hc).idle _ (List.mem_of_getElem? ht)
    have hafter := w.run_listing hrun hl
    rw [Write.spares htask.1 hrun hl hc] at hafter
    exact hafter

/-- Whatever the interleaving, as long as every cancellation finds its listing at rest a cancelled
listing stays as it is. -/
theorem cancelled_stays {c : ChainView} {before after : List Move}
    (hg : Machine.Guarded (System.step env) (fun s m => m.CancelsAtRest s) (System.init c)
      (before ++ after))
    (h : Machine.run (System.step env) (System.init c) before = some s)
    (h' : Machine.run (System.step env) s after = some s')
    (hl : s.db.listings.get listingId = some l) (hc : l.status = .cancelled) :
    s'.db.listings.get listingId = some l := by
  obtain ⟨hbefore, hafter⟩ := Machine.guarded_append hg h
  have hinit : (System.init c).CancelInv := by
    intro listingId l hl
    cases hl
  have hI := Machine.run_invariant
    (fun (s : System) (m : Move) s' (hI : s.CancelInv) hm hs => hI.step hm hs) hinit hbefore h
  have hlast := Machine.run_invariant
    (I := fun s : System => s.CancelInv ∧ s.db.listings.get listingId = some l) ?_ ⟨hI, hl⟩ hafter h'
  · exact hlast.2
  · intro s m s' hs hm hstep
    exact ⟨hs.1.step hm hstep, cancelled_step hs.1 hstep hs.2 hc⟩

end

/-- A task that has ended, or is about to cancel. -/
def Task.resting : Task → Bool
  | .done => true
  | .write (.cancelListing _ _) .done => true
  | _ => false

theorem AtRest.of_resting {s : System} (ht : ∀ t ∈ s.tasks, t.resting = true)
    (hf : ∀ k f, s.db.fills.get k = some f → f.status ≠ .broadcast ∧ f.status ≠ .confirmed)
    (listingId : Bytes) : AtRest s listingId := by
  refine ⟨fun k f hk _ => hf k f hk, ?_⟩
  intro t hmem
  have hrest := ht t hmem
  unfold Task.resting at hrest
  split at hrest
  · trivial
  · exact ⟨trivial, trivial⟩
  · cases hrest

/-- A reserved listing is cancelled. -/
def cancelledRun : List Move :=
  [Move.call (.createListing sampleListingId sampleListing)] ++ sampleTurns 0 1 ++
  [Move.call (.reserveListing 1 sampleReserve)] ++ sampleTurns 1 1 ++
  [Move.call (.cancelListing sampleListingId [0])] ++ sampleTurns 2 1

/-- Time passes, and the market is reconciled. -/
def reconciledRun : List Move :=
  [Move.observe (sampleView 101 400000 none), Move.call .reconcileMarket] ++ sampleTurns 3 8

theorem cancelled_stays_sample : ∃ s s' l,
    Machine.run (System.step sampleEnv) (System.init (sampleView 100 0 none)) cancelledRun =
      some s ∧
    Machine.run (System.step sampleEnv) s reconciledRun = some s' ∧ l.status = .cancelled ∧
    s'.db.listings.get sampleListingId = some l := by
  have hrun : ((Machine.run (System.step sampleEnv) (System.init (sampleView 100 0 none))
      cancelledRun).any fun s => (s.db.listings.get sampleListingId).any (·.status = .cancelled) ∧
        (Machine.run (System.step sampleEnv) s reconciledRun).isSome) = true := by
    decide +kernel
  have hquiet : Machine.Guarded (System.step sampleEnv)
      (fun s m => ∀ w ∈ m.pending s, (Task.write w .done).resting = true →
        (∀ t ∈ s.tasks, t.resting = true) ∧
        ∀ k f, s.db.fills.get k = some f → f.status ≠ .broadcast ∧ f.status ≠ .confirmed)
      (System.init (sampleView 100 0 none)) (cancelledRun ++ reconciledRun) := by
    decide +kernel
  have hg : Machine.Guarded (System.step sampleEnv) (fun s m => m.CancelsAtRest s)
      (System.init (sampleView 100 0 none)) (cancelledRun ++ reconciledRun) := by
    refine hquiet.mono ?_
    intro s m hok listingId cancelHash hw
    obtain ⟨htasks, hfills⟩ := hok _ hw rfl
    exact AtRest.of_resting htasks hfills listingId
  obtain ⟨s, hs, htest⟩ := (Option.any_eq_true _ _).mp hrun
  obtain ⟨hcancelled, hsome⟩ := of_decide_eq_true htest
  obtain ⟨s', hs'⟩ := Option.isSome_iff_exists.mp hsome
  obtain ⟨l, hl, hstatus⟩ := (Option.any_eq_true _ _).mp hcancelled
  have hc : l.status = .cancelled := of_decide_eq_true hstatus
  exact ⟨s, s', l, hs, hs', hc, cancelled_stays hg hs hs' hl hc⟩

/-- The fill is broadcast, and then the seller cancels. -/
def cancelledLateRun : List Move :=
  signedRun ++ [Move.call (.finalizeP2PFill 1)] ++ sampleTurns 5 4 ++
  [Move.call (.cancelListing sampleListingId [0])] ++ sampleTurns 6 1

/-- The fill is confirmed. -/
def confirmedRun : List Move :=
  [Move.observe (sampleView 110 0 (some (Transaction.getId sampleCrypto listedFill))),
    Move.call .reconcileMarket] ++ sampleTurns 7 3

/-- The cancelled listing is FILLED. -/
theorem cancelled_late_filled : ∃ s s' l l',
    Machine.run (System.step sampleEnv) (System.init (sampleView 100 0 none)) cancelledLateRun =
      some s ∧
    Machine.run (System.step sampleEnv) s confirmedRun = some s' ∧
    s.db.listings.get sampleListingId = some l ∧ l.status = .cancelled ∧
    s'.db.listings.get sampleListingId = some l' ∧ l'.status = .filled := by
  have hrun : ((Machine.run (System.step sampleEnv) (System.init (sampleView 100 0 none))
      cancelledLateRun).any fun s =>
        (s.db.listings.get sampleListingId).any (·.status = .cancelled) ∧
        (Machine.run (System.step sampleEnv) s confirmedRun).any fun s' =>
          (s'.db.listings.get sampleListingId).any (·.status = .filled)) = true := by
    decide +kernel
  obtain ⟨s, hs, htest⟩ := (Option.any_eq_true _ _).mp hrun
  obtain ⟨hcancelled, hafter⟩ := of_decide_eq_true htest
  obtain ⟨l, hl, hstatus⟩ := (Option.any_eq_true _ _).mp hcancelled
  obtain ⟨s', hs', hfilled⟩ := (Option.any_eq_true _ _).mp hafter
  obtain ⟨l', hl', hstatus'⟩ := (Option.any_eq_true _ _).mp hfilled
  exact ⟨s, s', l, l', hs, hs', hl, of_decide_eq_true hstatus, hl', of_decide_eq_true hstatus'⟩

end Cove
