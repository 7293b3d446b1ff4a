import Cove.Indexer.Reorg
import Cove.Lib.Machine

/-! The app's transaction sessions: `packages/cove-app/src/tx-session.ts` and
`reconcileAppSessions` of `service.ts`, beside the worker's indexing. -/

namespace Cove

inductive AppTxOperation
  | deploy
  | backingBuy
  | redeem
  | transfer
  | p2p
  deriving DecidableEq, Repr

inductive AppTxStatus
  | built
  | walletSigned
  | broadcast
  | confirmed
  | reorged
  | failed
  | expired
  deriving DecidableEq, Repr

/-- What the builders hand over; all of them build the session as `BUILT`, without a txid. -/
structure NewTxSession where
  operation : AppTxOperation
  tokenId : Option Bytes
  walletScript : Bytes
  backing : Option OutPoint
  unsignedTxDigest : Bytes
  idempotencyKey : Bytes
  deriving DecidableEq, Repr

/-- A row of `cove_v3_app_transactions`. -/
structure TxSessionRow extends NewTxSession where
  txid : Option Bytes := none
  status : AppTxStatus := .built
  errorCode : Option String := none
  deriving DecidableEq, Repr

/-- The rows one idempotency key stands for. -/
def NewTxSession.SameKey (a b : NewTxSession) : Prop :=
  a.walletScript = b.walletScript ∧ a.operation = b.operation ∧ a.idempotencyKey = b.idempotencyKey

instance (a b : NewTxSession) : Decidable (a.SameKey b) := inferInstanceAs (Decidable (_ ∧ _))

abbrev TxSessions := Dict Nat TxSessionRow

/-- `createTxSession`: under a known key the stored session is returned or the payload refused,
and either leaves the table alone. -/
def createTxSession (sessions : TxSessions) (id : Nat) (input : NewTxSession) : TxSessions :=
  if ∃ k r, sessions.get k = some r ∧ r.SameKey input then sessions
  else sessions.set id { input with }

/-- The update that ends every submission. A txid another session has fails it. The check of the
status is an earlier statement, so the row may be in any status by now. -/
def markBroadcast (sessions : TxSessions) (id : Nat) (txid : Bytes) : TxSessions :=
  if ∃ k r, sessions.get k = some r ∧ (k ≠ id ∧ r.txid = some txid) then sessions
  else Table.update sessions id fun r => { r with txid := some txid, status := .broadcast }

def Db.hasValidEvent (db : Db) (txid : Bytes) : Bool := (db.events.get txid).any EventRow.valid

/-- One turn of the loop in `reconcileAppSessions`, for a session of any status: what is not
`BROADCAST` is not selected. The node knows a transaction or throws. -/
def reconcileTxSession (db : Db) (known : Bytes → Bool) (s : TxSessionRow) : TxSessionRow :=
  if s.status = .broadcast then
    match s.txid with
    | none => s
    | some txid =>
      if db.events.has txid then { s with status := .confirmed }
      else if known txid then s
      else { s with status := .failed, errorCode := some "MEMPOOL_EVICTED" }
  else s

/-- The rows are handled one by one and no row's turn looks at another row. -/
def reconcileAppSessions (db : Db) (known : Bytes → Bool) (sessions : TxSessions) : TxSessions :=
  sessions.map fun _ => reconcileTxSession db known

/-- The worker and the app's sessions. -/
structure AppWorld where
  world : World
  sessions : TxSessions

inductive AppAction
  | create (id : Nat) (input : NewTxSession)
  | submit (id : Nat) (txid : Bytes)
  /-- The node's blocks are indexed, whatever reorg came before. -/
  | index (node : CoreNode)
  | reconcile (known : Bytes → Bool)

section

variable (C : Crypto) (cfg : V3IndexerConfig)

def appStep (s : AppWorld) : AppAction → Option AppWorld
  | .create id input => some { s with sessions := createTxSession s.sessions id input }
  | .submit id txid => some { s with sessions := markBroadcast s.sessions id txid }
  | .index node => some { s with world := tick C cfg node s.world }
  | .reconcile known =>
    some { s with sessions := reconcileAppSessions s.world.db known s.sessions }

/-- Indexing takes no valid event from the transaction of a `CONFIRMED` session and gives none to
that of a `FAILED` one. -/
def EventsKept (before after : Db) (sessions : TxSessions) : Prop :=
  ∀ k r, sessions.get k = some r → ∀ txid ∈ r.txid,
    (r.status = .confirmed → before.hasValidEvent txid = true →
      after.hasValidEvent txid = true) ∧
    (r.status = .failed → after.hasValidEvent txid = true → before.hasValidEvent txid = true)

/-- The transaction of no `BROADCAST` session was recorded as invalid. -/
def BroadcastsValid (db : Db) (sessions : TxSessions) : Prop :=
  ∀ k r, sessions.get k = some r → ∀ txid ∈ r.txid,
    r.status = .broadcast → db.events.has txid = true → db.hasValidEvent txid = true

def AppStepOk (s : AppWorld) : AppAction → Prop
  | .create _ _ => True
  | .submit _ _ => True
  | .index node => EventsKept s.world.db (tick C cfg node s.world).db s.sessions
  | .reconcile _ => BroadcastsValid s.world.db s.sessions

end

instance (before after : Db) (sessions : TxSessions) : Decidable (EventsKept before after sessions) :=
  inferInstanceAs (Decidable (∀ k r, sessions.get k = some r → ∀ txid ∈ r.txid, _ ∧ _))

instance (db : Db) (sessions : TxSessions) : Decidable (BroadcastsValid db sessions) :=
  inferInstanceAs (Decidable (∀ k r, sessions.get k = some r → ∀ txid ∈ r.txid, _))

instance (C : Crypto) (cfg : V3IndexerConfig) (s : AppWorld) (a : AppAction) :
    Decidable (AppStepOk C cfg s a) :=
  match a with
  | .create _ _ => .isTrue trivial
  | .submit _ _ => .isTrue trivial
  | .index node =>
    inferInstanceAs (Decidable (EventsKept s.world.db (tick C cfg node s.world).db s.sessions))
  | .reconcile _ => inferInstanceAs (Decidable (BroadcastsValid s.world.db s.sessions))

/-- A session with a txid is `CONFIRMED` exactly when its transaction has a valid event. -/
def AppWorld.FollowsChain (s : AppWorld) : Prop :=
  ∀ k r, s.sessions.get k = some r → ∀ txid ∈ r.txid,
    (r.status = .confirmed ↔ s.world.db.hasValidEvent txid = true)

instance (s : AppWorld) : Decidable s.FollowsChain :=
  inferInstanceAs (Decidable (∀ k r, s.sessions.get k = some r → ∀ txid ∈ r.txid, _))

/-- What holds of a session between reconciliations: only `BROADCAST` leaves the chain's answer
open. -/
def TxSessionRow.Settled (db : Db) (r : TxSessionRow) : Prop :=
  (r.txid = none ∧ r.status = .built) ∨
  ∃ txid, r.txid = some txid ∧ (r.status = .broadcast ∨
    (r.status = .confirmed ∧ db.hasValidEvent txid = true) ∨
    (r.status = .failed ∧ db.hasValidEvent txid = false))

def AppWorld.Settled (s : AppWorld) : Prop :=
  ∀ k r, s.sessions.get k = some r → r.Settled s.world.db

section Steps

variable {db db' : Db} {sessions : TxSessions} {r : TxSessionRow}

theorem get_createTxSession {id k : Nat} {input : NewTxSession}
    (h : (createTxSession sessions id input).get k = some r) :
    sessions.get k = some r ∨ (r.txid = none ∧ r.status = .built) := by
  unfold createTxSession at h
  split at h
  · exact .inl h
  · rw [Dict.get_set] at h
    split at h
    · obtain rfl := Option.some.inj h
      exact .inr ⟨rfl, rfl⟩
    · exact .inl h

theorem get_markBroadcast {id k : Nat} {txid : Bytes}
    (h : (markBroadcast sessions id txid).get k = some r) :
    sessions.get k = some r ∨ (r.txid = some txid ∧ r.status = .broadcast) := by
  unfold markBroadcast at h
  split at h
  · exact .inl h
  · rw [Table.get_update] at h
    split at h
    · obtain ⟨old, -, rfl⟩ := Option.map_eq_some_iff.mp h
      exact .inr ⟨rfl, rfl⟩
    · exact .inl h

theorem TxSessionRow.Settled.index (h : r.Settled db)
    (hkept : ∀ txid ∈ r.txid,
      (r.status = .confirmed → db.hasValidEvent txid = true → db'.hasValidEvent txid = true) ∧
      (r.status = .failed → db'.hasValidEvent txid = true → db.hasValidEvent txid = true)) :
    r.Settled db' := by
  rcases h with hbuilt | ⟨txid, htxid, hstatus⟩
  · exact .inl hbuilt
  obtain ⟨hconfirmed, hfailed⟩ := hkept txid htxid
  refine .inr ⟨txid, htxid, ?_⟩
  rcases hstatus with hb | ⟨hc, hv⟩ | ⟨hf, hv⟩
  · exact .inl hb
  · exact .inr (.inl ⟨hc, hconfirmed hc hv⟩)
  · refine .inr (.inr ⟨hf, ?_⟩)
    rw [Bool.eq_false_iff]
    intro hnew
    rw [hfailed hf hnew] at hv
    exact absurd hv (by decide)

theorem hasValidEvent_of_none {txid : Bytes} (h : db.events.has txid = false) :
    db.hasValidEvent txid = false := by
  rw [Dict.has, Option.isSome_eq_false_iff, Option.isNone_iff_eq_none] at h
  rw [Db.hasValidEvent, h]
  rfl

theorem reconcileTxSession_open {known : Bytes → Bool} {txid : Bytes}
    (hb : r.status = .broadcast) (htxid : r.txid = some txid) :
    reconcileTxSession db known r =
      if db.events.has txid then { r with status := .confirmed }
      else if known txid then r
      else { r with status := .failed, errorCode := some "MEMPOOL_EVICTED" } := by
  rw [reconcileTxSession, if_pos hb, htxid]

/-- A reconciled session is settled, and no longer open when its transaction has an event. -/
theorem TxSessionRow.Settled.reconcile (known : Bytes → Bool) (h : r.Settled db)
    (hvalid : ∀ txid ∈ r.txid,
      r.status = .broadcast → db.events.has txid = true → db.hasValidEvent txid = true) :
    (reconcileTxSession db known r).Settled db ∧
    ∀ txid ∈ (reconcileTxSession db known r).txid,
      (reconcileTxSession db known r).status = .broadcast → db.hasValidEvent txid = false := by
  by_cases hb : r.status = .broadcast
  · rcases h with ⟨-, hbuilt⟩ | ⟨txid, htxid, -⟩
    · rw [hbuilt] at hb
      cases hb
    rw [reconcileTxSession_open hb htxid]
    cases hev : db.events.has txid with
    | true =>
      have hv := hvalid txid htxid hb hev
      exact ⟨.inr ⟨txid, htxid, .inr (.inl ⟨rfl, hv⟩)⟩, fun _ _ hst => by cases hst⟩
    | false =>
      have hv := hasValidEvent_of_none hev
      cases hk : known txid with
      | true =>
        refine ⟨.inr ⟨txid, htxid, .inl hb⟩, ?_⟩
        intro t ht _
        obtain rfl : txid = t := Option.some.inj (htxid.symm.trans ht)
        exact hv
      | false =>
        exact ⟨.inr ⟨txid, htxid, .inr (.inr ⟨rfl, hv⟩)⟩, fun _ _ hst => by cases hst⟩
  · rw [reconcileTxSession, if_neg hb]
    exact ⟨h, fun _ _ hst => absurd hst hb⟩

end Steps

section Runs

variable {C : Crypto} {cfg : V3IndexerConfig}

theorem AppWorld.Settled.step {s s' : AppWorld} {a : AppAction} (h : s.Settled)
    (hok : AppStepOk C cfg s a) (hstep : appStep C cfg s a = some s') : s'.Settled := by
  cases a with
  | create id input =>
    obtain rfl := Option.some.inj hstep
    intro k r hr
    rcases get_createTxSession hr with hold | hnew
    · exact h k r hold
    · exact .inl hnew
  | submit id txid =>
    obtain rfl := Option.some.inj hstep
    intro k r hr
    rcases get_markBroadcast hr with hold | ⟨htxid, hb⟩
    · exact h k r hold
    · exact .inr ⟨txid, htxid, .inl hb⟩
  | index node =>
    obtain rfl := Option.some.inj hstep
    intro k r hr
    exact (h k r hr).index (hok k r hr)
  | reconcile known =>
    obtain rfl := Option.some.inj hstep
    intro k r hr
    simp only [reconcileAppSessions, Dict.get_map] at hr
    obtain ⟨old, hold, rfl⟩ := Option.map_eq_some_iff.mp hr
    exact ((h k old hold).reconcile known (hok k old hold)).1

theorem AppWorld.settled_empty (w : World) : AppWorld.Settled ⟨w, ∅⟩ := by
  intro k r hr
  rw [Dict.get_empty] at hr
  cases hr

/-- A reconciliation that meets no invalid transaction leaves every status at the chain's
answer. -/
theorem AppWorld.Settled.followsChain {s : AppWorld} (h : s.Settled) (known : Bytes → Bool)
    (hok : BroadcastsValid s.world.db s.sessions) :
    AppWorld.FollowsChain ⟨s.world, reconcileAppSessions s.world.db known s.sessions⟩ := by
  intro k r hr txid htxid
  simp only [reconcileAppSessions, Dict.get_map] at hr
  obtain ⟨old, hold, rfl⟩ := Option.map_eq_some_iff.mp hr
  obtain ⟨hsettled, hopen⟩ := (h k old hold).reconcile known (hok k old hold)
  rcases hsettled with ⟨hnone, -⟩ | ⟨t, ht, hstatus⟩
  · rw [hnone] at htxid
    cases htxid
  obtain rfl : t = txid := Option.some.inj (ht.symm.trans htxid)
  rcases hstatus with hb | ⟨hc, hv⟩ | ⟨hf, hv⟩
  · simp [hb, hopen t ht hb]
  · simp [hc, hv]
  · simp [hf, hv]

/-- Right after a reconciliation whose run kept to the condition, every session's status is the
chain's answer. -/
theorem sessions_follow_chain {w : World} {s : AppWorld} {as : List AppAction}
    {known : Bytes → Bool}
    (hok : Machine.Guarded (appStep C cfg) (AppStepOk C cfg) ⟨w, ∅⟩ (as ++ [.reconcile known]))
    (hrun : Machine.run (appStep C cfg) ⟨w, ∅⟩ (as ++ [.reconcile known]) = some s) :
    s.FollowsChain := by
  obtain ⟨mid, hmid, hlast⟩ := Machine.run_append.mp hrun
  obtain ⟨hbefore, hreconcile⟩ := Machine.guarded_append hok hmid
  have hsettled : mid.Settled := Machine.run_invariant
    (fun _ _ _ hI hok hstep => AppWorld.Settled.step hI hok hstep)
    (AppWorld.settled_empty w) hbefore hmid
  obtain rfl := Option.some.inj hlast
  exact hsettled.followsChain known hreconcile.1

end Runs

/-! A launch: broadcast, mined, and its block orphaned later. -/

def sampleSession : NewTxSession where
  operation := .deploy
  tokenId := some alphaId
  walletScript := sampleOwner
  backing := none
  unsignedTxDigest := List.replicate 32 7
  idempotencyKey := Bytes.ascii "launch"

def deployedChain : List CoreBlock := mintedChain.take 2

def undeployedChain : List CoreBlock := [coreBlock 0xb0 0 [], coreBlock 0xb4 0xb0 []]

def newAppWorld : AppWorld := ⟨⟨.new sampleCrypto sampleConfig, .empty, 0, []⟩, ∅⟩

def launchRun : List AppAction :=
  [.create 0 sampleSession, .submit 0 (alphaDeploy.getId sampleCrypto),
    .index (staticNode deployedChain undeployedChain)]

def reorgedRun : List AppAction :=
  launchRun ++ [.reconcile fun _ => true, .index (staticNode undeployedChain deployedChain)]

/-- One evaluation of both runs. -/
theorem launch_runs : Machine.Guarded (appStep sampleCrypto sampleConfig)
      (AppStepOk sampleCrypto sampleConfig) newAppWorld (launchRun ++ [.reconcile fun _ => true]) ∧
    (Machine.run (appStep sampleCrypto sampleConfig) newAppWorld
      (reorgedRun ++ [.reconcile fun _ => true])).any (fun s => ¬ s.FollowsChain) = true := by
  decide +kernel

theorem sessions_follow_chain_sample : ∃ s,
    Machine.run (appStep sampleCrypto sampleConfig) newAppWorld
      (launchRun ++ [.reconcile fun _ => true]) = some s ∧ s.FollowsChain :=
  ⟨_, rfl, sessions_follow_chain launch_runs.1 rfl⟩

/-- The session stays `CONFIRMED`, and no valid event of its transaction is left. -/
theorem reorged_session_confirmed : ∃ s,
    Machine.run (appStep sampleCrypto sampleConfig) newAppWorld
      (reorgedRun ++ [.reconcile fun _ => true]) = some s ∧ ¬ s.FollowsChain := by
  obtain ⟨s, hs, hfollows⟩ := (Option.any_eq_true _ _).mp launch_runs.2
  exact ⟨s, hs, of_decide_eq_true hfollows⟩

end Cove
