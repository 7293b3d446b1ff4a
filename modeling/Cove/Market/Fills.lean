import Cove.Market.Writes

/-! At most one live fill for a listing, under every interleaving in which no write is stale. -/

namespace Cove

open Checked

/-- No listing has two live fills. -/
def OneLive (db : MarketDb) : Prop :=
  ∀ k f, db.fills.get k = some f → f.status.live →
    ∀ k' f', db.fills.get k' = some f' → f'.status.live → f.listingId = f'.listingId → k = k'

instance : DecidablePred OneLive := fun db => inferInstanceAs
  (Decidable (∀ k f, db.fills.get k = some f → f.status.live →
    ∀ k' f', db.fills.get k' = some f' → f'.status.live → f.listingId = f'.listingId → k = k'))

/-- The fill a write changes, and the statuses its handler goes on from. -/
def Write.expects : Write → Option (Nat × List FillStatus)
  | .buildFillPsbt fillId _ _ _ _ => some (fillId, [.reserved, .psbtBuilt])
  | .submitBuyerSignedPsbt fillId _ => some (fillId, [.psbtBuilt])
  | .submitSellerSignedPsbt fillId _ => some (fillId, [.buyerSigned])
  | .broadcastP2PFill v => some (v.fillId, [.sellerSigned, .broadcast])
  | .promoteFill fillId _ _ _ _ => some (fillId, [.broadcast])
  | .reorgFill fillId _ => some (fillId, [.confirmed])
  | .expireFill fillId _ => some (fillId, [.reserved, .psbtBuilt, .buyerSigned, .sellerSigned])
  | _ => none

/-- The listing a write takes to be REORGED. -/
def Write.expectsReorged : Write → Option Bytes
  | .reactivateListing listingId => some listingId
  | .rependFill listingId _ => some listingId
  | _ => none

/-- The fills a write takes to be REORGED with their listing. -/
def Write.repends : Write → Fill → Bool
  | .rependFill listingId txid, f => f.listingId = listingId ∧ f.txid = some txid
  | _, _ => false

/-- A write is not stale: its rows still have a status its handler goes on from. -/
structure Write.Fresh (db : MarketDb) (w : Write) : Prop where
  fill : ∀ e ∈ w.expects, ∀ f ∈ db.fills.get e.1, f.status ∈ e.2
  listing : ∀ k ∈ w.expectsReorged, ∀ l ∈ db.listings.get k, l.status = .reorged
  repended : ∀ k f, db.fills.get k = some f → w.repends f = true → f.status = .reorged

instance (db : MarketDb) (w : Write) : Decidable (w.Fresh db) :=
  decidable_of_iff ((∀ e ∈ w.expects, ∀ f ∈ db.fills.get e.1, f.status ∈ e.2) ∧
      (∀ k ∈ w.expectsReorged, ∀ l ∈ db.listings.get k, l.status = .reorged) ∧
      ∀ k f, db.fills.get k = some f → w.repends f = true → f.status = .reorged)
    ⟨fun h => ⟨h.1, h.2.1, h.2.2⟩, fun h => ⟨h.fill, h.listing, h.repended⟩⟩

def Task.pending : Task → Option Write
  | .write w _ => some w
  | _ => none

/-- The write a move commits, if any. -/
def Move.pending (s : System) : Move → Option Write
  | .turn i _ => s.tasks[i]?.bind Task.pending
  | _ => none

def Move.Fresh (s : System) (m : Move) : Prop := ∀ w ∈ m.pending s, w.Fresh s.db

instance (s : System) (m : Move) : Decidable (m.Fresh s) :=
  inferInstanceAs (Decidable (∀ w ∈ m.pending s, w.Fresh s.db))

/-- The row of a fill that belongs to a listing. -/
def RowOf (db : MarketDb) (fillId : Nat) (listingId : Bytes) : Prop :=
  ∃ f, db.fills.get fillId = some f ∧ f.listingId = listingId

/-- A fill that holds its listing is the only one, and none holds a listing that can be taken. -/
structure FillInv (db : MarketDb) : Prop where
  listed : ∀ k f, db.fills.get k = some f → ∃ l, db.listings.get f.listingId = some l
  one : ∀ k k' f f', db.fills.get k = some f → db.fills.get k' = some f' →
    f.listingId = f'.listingId → f.status.engaged → f'.status.engaged → k = k'
  free : ∀ k f l, db.fills.get k = some f → db.listings.get f.listingId = some l →
    l.status = .active ∨ l.status = .reorged → ¬ f.status.engaged

section

variable {cfg : MarketConfig} {c : ChainView} {db db' : MarketDb} {w : Write}

theorem RowOf.run {k : Nat} {listingId : Bytes} (hr : RowOf db k listingId)
    (h : w.run cfg c db = .ok db') : RowOf db' k listingId := by
  obtain ⟨f, hf, hid⟩ := hr
  exact ⟨_, w.run_fill h hf, (w.onFill_listingId k f).trans hid⟩

theorem Write.expects_engaged {e : Nat × List FillStatus} (h : e ∈ w.expects) :
    ∀ s ∈ e.2, s.engaged := by
  cases w <;> simp only [expects, Option.mem_def, reduceCtorEq] at h <;>
    obtain rfl := Option.some.inj h <;> simp [FillStatus.engaged, FillStatus.live,
      FillStatus.awaiting]

theorem Write.Fresh.expected_engaged (hw : w.Fresh db) {k : Nat} {statuses : List FillStatus}
    (he : w.expects = some (k, statuses)) {f : Fill} (hf : db.fills.get k = some f) :
    f.status.engaged :=
  Write.expects_engaged he _ (hw.fill _ he f hf)

/-- A write that is not stale puts no new fill in hold of a listing, but for the repended one. -/
theorem Write.Fresh.engaged_before (hw : w.Fresh db) {now k : Nat} {f : Fill}
    (hf : db.fills.get k = some f) (he : (w.onFill cfg now k f).status.engaged) :
    f.status.engaged ∨ w.repends f = true := by
  by_cases hrep : w.repends f = true
  · exact Or.inr hrep
  left
  cases w with
  | createListing | reserveListing | reactivateListing | expireListing => exact he
  | cancelListing | invalidateListing =>
    simp only [onFill] at he
    split at he
    · rw [Fill.set_status] at he
      exact absurd he (by decide)
    · exact he
  | reorgFill | expireFill =>
    simp only [onFill] at he
    split at he
    · rw [Fill.set_status] at he
      exact absurd he (by decide)
    · exact he
  | rependFill listingId txid =>
    simp only [onFill] at he
    split at he
    · rename_i hcond
      exact absurd (decide_eq_true hcond) hrep
    · exact he
  | finalizeP2PFill fillId txid =>
    simp only [onFill] at he
    split at he
    · exact he
    · exact he
  | buildFillPsbt | submitBuyerSignedPsbt | submitSellerSignedPsbt | broadcastP2PFill
  | promoteFill =>
    simp only [onFill] at he
    split at he
    · rename_i hk
      exact hw.expected_engaged rfl (hk ▸ hf)
    · exact he

/-- A listing that can be taken after a write could be taken before it, or has just been
released. -/
theorem Write.free_before {k : Bytes} {l : Listing}
    (h : (w.onListing k l).status = .active ∨ (w.onListing k l).status = .reorged) :
    (l.status = .active ∨ l.status = .reorged) ∨ w = .reactivateListing k ∨
      (∃ fillId, w = .expireFill fillId k) ∨
      ∃ fillId fill, w = .reorgFill fillId fill ∧ fill.listingId = k := by
  cases w with
  | createListing | buildFillPsbt | submitBuyerSignedPsbt | submitSellerSignedPsbt
  | finalizeP2PFill => exact Or.inl h
  | cancelListing | reserveListing | broadcastP2PFill | promoteFill | invalidateListing | rependFill
  | expireListing =>
    simp only [onListing] at h
    split at h
    · rw [Listing.set_status] at h
      exact absurd h (by decide)
    · exact Or.inl h
  | reactivateListing listingId =>
    simp only [onListing] at h
    split at h
    · rename_i hk
      exact Or.inr (Or.inl (by rw [hk]))
    · exact Or.inl h
  | expireFill fillId listingId =>
    simp only [onListing] at h
    split at h
    · rename_i hk
      exact Or.inr (Or.inr (Or.inl ⟨fillId, by rw [hk.1]⟩))
    · exact Or.inl h
  | reorgFill fillId fill =>
    simp only [onListing] at h
    split at h
    · rename_i hk
      exact Or.inr (Or.inr (Or.inr ⟨fillId, fill, rfl, hk.symm⟩))
    · exact Or.inl h

variable (hI : FillInv db) (hw : w.Fresh db) (h : w.run cfg c db = .ok db')

include hI hw in
/-- A repended fill's listing is held by no other. -/
theorem FillInv.repends_alone {k k' : Nat} {f f' : Fill} (hrep : w.repends f = true)
    (hf : db.fills.get k = some f) (hf' : db.fills.get k' = some f')
    (hid : f.listingId = f'.listingId) : ¬ f'.status.engaged := by
  cases w with
  | rependFill listingId txid =>
    obtain ⟨hlisting, -⟩ := of_decide_eq_true hrep
    obtain ⟨l, hl⟩ := hI.listed k f hf
    have hreorged : l.status = .reorged := hw.listing listingId rfl l (hlisting ▸ hl)
    exact hI.free k' f' l hf' (hid ▸ hl) (Or.inr hreorged)
  | createListing | cancelListing | reserveListing | buildFillPsbt | submitBuyerSignedPsbt
  | submitSellerSignedPsbt | finalizeP2PFill | broadcastP2PFill | promoteFill | reorgFill
  | invalidateListing | reactivateListing | expireFill | expireListing => cases hrep

/-- Repended fills have one transaction. -/
theorem repends_unique {k k' : Nat} {f f' : Fill} (hrep : w.repends f = true)
    (hrep' : w.repends f' = true) (hf : db.fills.get k = some f)
    (hf' : db.fills.get k' = some f') : k = k' := by
  cases w with
  | rependFill listingId txid =>
    obtain ⟨-, htxid⟩ := of_decide_eq_true hrep
    obtain ⟨-, htxid'⟩ := of_decide_eq_true hrep'
    refine db.txids k f hf ?_ k' f' hf' (htxid.trans htxid'.symm)
    rw [htxid]
    exact Option.some_ne_none _
  | createListing | cancelListing | reserveListing | buildFillPsbt | submitBuyerSignedPsbt
  | submitSellerSignedPsbt | finalizeP2PFill | broadcastP2PFill | promoteFill | reorgFill
  | invalidateListing | reactivateListing | expireFill | expireListing => cases hrep

include hI in
/-- A reservation finds its listing held by nobody. -/
theorem Reserves.alone {k k' : Nat} {g f' : Fill} (hres : Reserves db db' w k g)
    (hf' : db.fills.get k' = some f') (hid : f'.listingId = g.listingId) :
    ¬ (w.onFill cfg c.now k' f').status.engaged := by
  obtain ⟨input, tip, startedAt, row, rfl, hrow, hactive, hg⟩ := hres.input
  exact hI.free k' f' row hf' (by rw [hid, hg]; exact hrow) (Or.inl hactive)

include hI hw h in
theorem FillInv.run_one {k k' : Nat} {g g' : Fill} (hg : db'.fills.get k = some g)
    (hg' : db'.fills.get k' = some g') (hid : g.listingId = g'.listingId)
    (he : g.status.engaged) (he' : g'.status.engaged) : k = k' := by
  rcases w.run_fill_cases h hg with ⟨f, hf, rfl⟩ | hres
  · rcases w.run_fill_cases h hg' with ⟨f', hf', rfl⟩ | hres'
    · rw [w.onFill_listingId, w.onFill_listingId] at hid
      rcases hw.engaged_before hf he with hb | hrep
      · rcases hw.engaged_before hf' he' with hb' | hrep'
        · exact hI.one k k' f f' hf hf' hid hb hb'
        · exact absurd hb (hI.repends_alone hw hrep' hf' hf hid.symm)
      · rcases hw.engaged_before hf' he' with hb' | hrep'
        · exact absurd hb' (hI.repends_alone hw hrep hf hf' hid)
        · exact repends_unique hrep hrep' hf hf'
    · rw [w.onFill_listingId] at hid
      exact absurd he (hres'.alone hI hf hid)
  · rcases w.run_fill_cases h hg' with ⟨f', hf', rfl⟩ | hres'
    · rw [w.onFill_listingId] at hid
      exact absurd he' (hres.alone hI hf' hid.symm)
    · obtain ⟨_, _, _, _, rfl, -⟩ := hres.input
      obtain ⟨_, _, _, _, heq, -⟩ := hres'.input
      exact (Write.reserveListing.inj heq).1

include hI hw in
/-- The one fill a write releases its listing from is not in hold of it afterwards. -/
theorem FillInv.released {k fillId : Nat} {f : Fill} {statuses : List FillStatus} {listingId : Bytes}
    (hexp : w.expects = some (fillId, statuses)) (hrow : RowOf db fillId listingId)
    (hf : db.fills.get k = some f) (hid : f.listingId = listingId) (hb : f.status.engaged) :
    k = fillId := by
  obtain ⟨f₀, hf₀, hid₀⟩ := hrow
  exact hI.one k fillId f f₀ hf hf₀ (hid.trans hid₀.symm) hb (hw.expected_engaged hexp hf₀)

include hI hw h in
theorem FillInv.run_free (hrefs : w.ForRows (RowOf db) fun _ => True) {k : Nat} {g : Fill}
    {l' : Listing} (hg : db'.fills.get k = some g) (hl' : db'.listings.get g.listingId = some l')
    (hs : l'.status = .active ∨ l'.status = .reorged) : ¬ g.status.engaged := by
  intro he
  rcases w.run_fill_cases h hg with ⟨f, hf, rfl⟩ | hres
  · rw [w.onFill_listingId] at hl'
    obtain ⟨l, hl⟩ := hI.listed k f hf
    obtain rfl : w.onListing f.listingId l = l' := Option.some.inj ((w.run_listing h hl).symm.trans hl')
    rcases hw.engaged_before hf he with hb | hrep
    · rcases w.free_before hs with hfree | rfl | ⟨fillId, rfl⟩ | ⟨fillId, fill, rfl, hid⟩
      · exact hI.free k f l hf hl hfree hb
      · exact hI.free k f l hf hl (Or.inr (hw.listing _ rfl l hl)) hb
      · obtain rfl := hI.released hw rfl hrefs hf rfl hb
        simp [Write.onFill, FillStatus.engaged, FillStatus.live, FillStatus.awaiting] at he
      · obtain rfl := hI.released hw rfl hrefs hf hid.symm hb
        simp [Write.onFill, FillStatus.engaged, FillStatus.live, FillStatus.awaiting] at he
    · cases w with
      | rependFill listingId txid =>
        obtain ⟨hlisting, -⟩ := of_decide_eq_true hrep
        simp [Write.onListing, hlisting] at hs
      | createListing | cancelListing | reserveListing | buildFillPsbt | submitBuyerSignedPsbt
      | submitSellerSignedPsbt | finalizeP2PFill | broadcastP2PFill | promoteFill | reorgFill
      | invalidateListing | reactivateListing | expireFill | expireListing => cases hrep
  · obtain ⟨input, tip, startedAt, row, rfl, hrow, -, hid⟩ := hres.input
    have hafter := Write.run_listing h hrow
    rw [← hid, hl'] at hafter
    rw [Option.some.inj hafter] at hs
    simp [Write.onListing, hid] at hs

include hI hw h in
theorem FillInv.run (hrefs : w.ForRows (RowOf db) fun _ => True) : FillInv db' := by
  constructor
  case listed =>
    intro k g hg
    rcases w.run_fill_cases h hg with ⟨f, hf, rfl⟩ | hres
    · rw [w.onFill_listingId]
      obtain ⟨l, hl⟩ := hI.listed k f hf
      exact ⟨_, w.run_listing h hl⟩
    · obtain ⟨input, tip, startedAt, row, -, hrow, -, hid⟩ := hres.input
      rw [hid]
      exact ⟨_, w.run_listing h hrow⟩
  case one => exact fun k k' g g' hg hg' hid he he' => hI.run_one hw h hg hg' hid he he'
  case free => exact fun k g l' hg hl' hs => hI.run_free hw h hrefs hg hl' hs

/-- A write that is not stale leaves a fill that was given up as it is. -/
theorem Write.Fresh.terminal_kept (hw : w.Fresh db) {now k : Nat} {f : Fill}
    (hf : db.fills.get k = some f) (ht : f.status.terminal) :
    (w.onFill cfg now k f).status = f.status := by
  have hne : ¬ f.status.engaged := by
    rcases ht with h | h | h <;> rw [h] <;> decide
  have hlive : ¬ f.status.live := fun hl => hne (Or.inl hl)
  cases w with
  | createListing | reserveListing | reactivateListing | expireListing => rfl
  | cancelListing =>
    simp only [onFill]
    split
    · rename_i hcond
      exact absurd (Or.inl hcond.2) hlive
    · rfl
  | invalidateListing =>
    simp only [onFill]
    split
    · rename_i hcond
      exact absurd hcond.2 hlive
    · rfl
  | rependFill listingId txid =>
    simp only [onFill]
    split
    · rename_i hcond
      have hreorged := hw.repended k f hf (decide_eq_true hcond)
      rw [hreorged] at ht
      exact absurd ht (by decide)
    · rfl
  | finalizeP2PFill =>
    simp only [onFill]
    split <;> rfl
  | buildFillPsbt | submitBuyerSignedPsbt | submitSellerSignedPsbt | broadcastP2PFill | promoteFill
  | reorgFill | expireFill =>
    simp only [onFill]
    split
    · rename_i hk
      exact absurd (hw.expected_engaged rfl (hk ▸ hf)) hne
    · rfl

end

/-! Runs. -/

/-- The fills are in order, and every task is about fills of the listings it says. -/
structure System.FillInv (s : System) : Prop where
  db : Cove.FillInv s.db
  tasks : ∀ t ∈ s.tasks, t.ForRows (RowOf s.db) fun _ => True

section

variable {env : MarketEnv} {s s' : System} {m : Move}

theorem forall_mem_set {α : Type} {P : α → Prop} {l : List α} (h : ∀ x ∈ l, P x) (i : Nat) {y : α}
    (hy : P y) : ∀ x ∈ l.set i y, P x := by
  intro x hx
  rcases List.mem_or_eq_of_mem_set hx with hmem | rfl
  · exact h x hmem
  · exact hy

theorem System.FillInv.init (c : ChainView) : (System.init c).FillInv where
  db := by
    constructor
    case listed =>
      intro k f hf
      cases hf
    case one =>
      intro k k' f f' hf
      cases hf
    case free =>
      intro k f l hf
      cases hf
  tasks := by
    intro t ht
    cases ht

theorem System.FillInv.step (hI : s.FillInv) (hm : m.Fresh s) (h : s.step env m = some s') :
    s'.FillInv := by
  have hrow : ∀ k f, s.db.fills.get k = some f → f.status.engaged → RowOf s.db k f.listingId :=
    fun k f hf _ => ⟨f, hf, rfl⟩
  cases System.step_effect h with
  | observe c => exact ⟨hI.db, hI.tasks⟩
  | began r t hr =>
    refine ⟨hI.db, ?_⟩
    intro u hu
    rcases List.mem_append.mp hu with hmem | hmem
    · exact hI.tasks u hmem
    · rw [List.mem_singleton.mp hmem]
      exact Request.begin_forRows hrow hr
  | refused r => exact hI
  | committed i order w next db ht hrun =>
    have htask := hI.tasks _ (List.mem_of_getElem? ht)
    have hfresh : w.Fresh s.db := hm w (by simp [Move.pending, ht, Task.pending])
    refine ⟨hI.db.run hfresh hrun htask.1, ?_⟩
    apply forall_mem_set
    · exact fun u hu => (hI.tasks u hu).mono (fun k l hr => hr.run hrun) fun _ _ => trivial
    · exact htask.2.mono (fun k l hr => hr.run hrun) fun _ _ => trivial
  | read i order t t' ht hread =>
    have htask := hI.tasks t (List.mem_of_getElem? ht)
    exact ⟨hI.db, forall_mem_set hI.tasks i
      (Task.read_forRows hrow (fun _ _ _ _ => trivial) htask hread)⟩
  | threw i order => exact ⟨hI.db, forall_mem_set hI.tasks i trivial⟩
  | crashed i => exact ⟨hI.db, forall_mem_set hI.tasks i trivial⟩

/-- One move leaves a fill that was given up as it is. -/
theorem terminal_step (hm : m.Fresh s) (h : s.step env m = some s') {k : Nat} {f : Fill}
    (hf : s.db.fills.get k = some f) (ht : f.status.terminal) :
    ∃ f', s'.db.fills.get k = some f' ∧ f'.status = f.status := by
  cases System.step_effect h with
  | observe | began | refused | read | threw | crashed => exact ⟨f, hf, rfl⟩
  | committed i order w next db hi hrun =>
    have hfresh : w.Fresh s.db := hm w (by simp [Move.pending, hi, Task.pending])
    exact ⟨_, w.run_fill hrun hf, hfresh.terminal_kept hf ht⟩

/-- Whatever the interleaving, as long as no write is stale a listing never has two live fills,
and a fill that was given up stays given up. -/
theorem live_fills_safe {c : ChainView} {before after : List Move}
    (hg : Machine.Guarded (System.step env) (fun s m => m.Fresh s) (System.init c)
      (before ++ after))
    (h : Machine.run (System.step env) (System.init c) before = some s)
    (h' : Machine.run (System.step env) s after = some s') :
    OneLive s'.db ∧ ∀ k f, s.db.fills.get k = some f → f.status.terminal →
      ∃ f', s'.db.fills.get k = some f' ∧ f'.status = f.status := by
  obtain ⟨hbefore, hafter⟩ := Machine.guarded_append hg h
  have hstep : ∀ (s : System) (m : Move) (s' : System), s.FillInv → m.Fresh s →
      s.step env m = some s' → s'.FillInv := fun s m s' hI hm hs => hI.step hm hs
  have hI := Machine.run_invariant hstep (System.FillInv.init c) hbefore h
  have hI' := Machine.run_invariant hstep hI hafter h'
  constructor
  · intro k f hf hlive k' f' hf' hlive' hid
    exact hI'.db.one k k' f f' hf hf' hid (Or.inl hlive) (Or.inl hlive')
  · intro k f hf ht
    refine Machine.run_invariant
      (I := fun s => ∃ f', s.db.fills.get k = some f' ∧ f'.status = f.status) ?_ ⟨f, hf, rfl⟩ hafter h'
    intro s m s' hex hm hs
    obtain ⟨g, hg, hstatus⟩ := hex
    obtain ⟨g', hg', hkept⟩ := terminal_step hm hs hg (hstatus ▸ ht)
    exact ⟨g', hg', hkept.trans hstatus⟩

end

/-- A listing is made and reserved, and the reservation runs out. -/
def lapsedRun : List Move :=
  [Move.call (.createListing sampleListingId sampleListing)] ++ sampleTurns 0 1 ++
  [Move.call (.reserveListing 1 sampleReserve)] ++ sampleTurns 1 1 ++
  [Move.observe (sampleView 101 400000 none), Move.call .reconcileMarket] ++ sampleTurns 2 11

/-- Another buyer reserves it. -/
def reservedAgain : List Move := [Move.call (.reserveListing 2 sampleReserve)] ++ sampleTurns 3 1

theorem live_fills_sample : ∃ s s',
    Machine.run (System.step sampleEnv) (System.init (sampleView 100 0 none)) lapsedRun = some s ∧
    Machine.run (System.step sampleEnv) s reservedAgain = some s' ∧ OneLive s'.db ∧
    ∃ f, s'.db.fills.get 1 = some f ∧ f.status = .expired := by
  have hrun : ((Machine.run (System.step sampleEnv) (System.init (sampleView 100 0 none))
      lapsedRun).any fun s => (s.db.fills.get 1).any (·.status = .expired) ∧
        (Machine.run (System.step sampleEnv) s reservedAgain).isSome) = true := by
    decide +kernel
  have hg : Machine.Guarded (System.step sampleEnv) (fun s m => m.Fresh s)
      (System.init (sampleView 100 0 none)) (lapsedRun ++ reservedAgain) := by
    decide +kernel
  obtain ⟨s, hs, htest⟩ := (Option.any_eq_true _ _).mp hrun
  obtain ⟨hexpired, hsome⟩ := of_decide_eq_true htest
  obtain ⟨s', hs'⟩ := Option.isSome_iff_exists.mp hsome
  obtain ⟨f, hf, hstatus⟩ := (Option.any_eq_true _ _).mp hexpired
  obtain ⟨hone, hkept⟩ := live_fills_safe hg hs hs'
  have hexp : f.status = .expired := of_decide_eq_true hstatus
  obtain ⟨f', hf', heq⟩ := hkept 1 f hf (Or.inr (Or.inl hexp))
  exact ⟨s, s', hs, hs', hone, f', hf', heq.trans hexp⟩

/-- `buildFillPsbt` has read its fill as RESERVED when the reservation runs out and another buyer
reserves the listing; then it writes PSBT_BUILT. -/
def staleBuildRun : List Move :=
  [Move.call (.createListing sampleListingId sampleListing)] ++ sampleTurns 0 1 ++
  [Move.call (.reserveListing 1 sampleReserve)] ++ sampleTurns 1 1 ++
  [Move.call (.buildFillPsbt 1 sampleBuilt), Move.observe (sampleView 101 400000 none),
    Move.call .reconcileMarket] ++ sampleTurns 3 11 ++
  [Move.call (.reserveListing 2 sampleReserve)] ++ sampleTurns 4 1 ++ sampleTurns 2 2

/-- The expired fill is live again, beside the second one. -/
theorem stale_build_revives : ∃ s,
    Machine.run (System.step sampleEnv) (System.init (sampleView 100 0 none)) staleBuildRun =
      some s ∧ ¬ OneLive s.db := by
  have hrun : ((Machine.run (System.step sampleEnv) (System.init (sampleView 100 0 none))
      staleBuildRun).any fun s => ¬ OneLive s.db) = true := by
    decide +kernel
  obtain ⟨s, hs, htest⟩ := (Option.any_eq_true _ _).mp hrun
  exact ⟨s, hs, of_decide_eq_true htest⟩

end Cove
