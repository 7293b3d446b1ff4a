import Cove.App.Sessions
import Cove.App.Transfer
import Cove.Guardian.FinalAccept
import Cove.Indexer.LedgerRun

/-! The pending backing: `followPendingBacking` of `packages/cove-app/src/service.ts` over
`findBroadcastSpendOfBacking` of `tx-session.ts`, beside what the indexer makes of the same
transactions once they are mined. -/

namespace Cove

open Checked

def maxPendingBackingChain : Nat := 24

/-- The backing a transaction is built on: `BackingRow` of the service. -/
structure AppBacking extends BackingTip where
  stateHash : Bytes
  script : Bytes
  valueSats : Int
  deriving DecidableEq, Repr

def loadConfirmedBacking (db : Db) (tokenId : Bytes) : Option AppBacking :=
  (db.backingStates.get tokenId).map fun b => {
    state := b.toState tokenId
    outpoint := ⟨b.txid, b.vout⟩
    stateHash := b.stateHash
    script := b.scriptPubKey
    valueSats := b.btcValue }

/-- A session that has been broadcast and spends the outpoint as the token's backing. -/
def TxSessionRow.Spends (r : TxSessionRow) (tokenId : Bytes) (o : OutPoint) : Prop :=
  r.tokenId = some tokenId ∧ r.backing = some o ∧ r.status = .broadcast

instance (r : TxSessionRow) (tokenId : Bytes) (o : OutPoint) : Decidable (r.Spends tokenId o) :=
  inferInstanceAs (Decidable (_ ∧ _))

/-- The one row of `limit(1)`; the table may be read in any order. -/
def findBroadcastSpendOfBacking (sessions : TxSessions) (order : List Nat) (tokenId : Bytes)
    (o : OutPoint) : Option TxSessionRow :=
  (order.filterMap fun id => sessions.get id).find? fun r => r.Spends tokenId o

section

variable (C : Crypto)

/-- The vault output of a transaction, when it holds what the next state needs. -/
def pendingVault (tx : Transaction) (nextState : CoveStateV2) : Except Fault (Option AppBacking) :=
  let expectedValue := reserveAnchorSats + nextState.backingSats
  match tx.outs[1]? with
  | none => .ok none
  | some vaultOut =>
    if (vaultOut.value : Int) = expectedValue then do
      let stateHash ← stateHashV2 C nextState
      return some {
        state := nextState
        outpoint := ⟨tx.getId C, 1⟩
        stateHash
        script := vaultOut.script
        valueSats := expectedValue }
    else .ok none

/-- One turn of the walk's loop on the transaction the node returned. Nothing but a mint or a
redeem moves the vault, and the envelope's token id is not looked at. -/
def pendingSuccessor (tip : AppBacking) (tx : Transaction) : Except Fault (Option AppBacking) :=
  match decodeCoveOpReturnTx tx with
  | .ok (.mint _ amount _) => do
    let canonical ← applyMintV2 tip.state amount
    pendingVault C tx canonical.nextState
  | .ok (.redeem _ redeemAmount _) => do
    let canonical ← applyRedeemV2 tip.state redeemAmount
    pendingVault C tx canonical.nextState
  | _ => .ok none

/-- The walk from a tip. `raw` is what the node returns for a txid, if anything. -/
def followPendingBacking (sessions : TxSessions) (order : List Nat)
    (raw : Bytes → Option Transaction) (tokenId : Bytes) (stopAt : Option OutPoint) :
    Nat → AppBacking → Except Fault AppBacking
  | 0, tip => .ok tip
  | depth + 1, tip =>
    if stopAt = some tip.outpoint then .ok tip
    else match (findBroadcastSpendOfBacking sessions order tokenId tip.outpoint).bind
        TxSessionRow.txid with
      | none => .ok tip
      | some txid =>
        match raw txid with
        | none => .ok tip
        | some tx => do
          match ← pendingSuccessor C tip tx with
          | none => return tip
          | some next => followPendingBacking sessions order raw tokenId stopAt depth next

/-- What a submission hands the final validators: the token's own snapshot under the tip. -/
def FinalizeParams.submitted (rules : FinalizeParams) (db : Db) (tokenId : Bytes)
    (relevant : List OutPoint) (tip : BackingTip) (tx : Transaction) : FinalizeParams :=
  { rules with
    tx := tx
    view := overlayPendingBacking (loadCanonicalViewSnapshotFromDb db tokenId relevant) tokenId tip }

variable (X : SimplicityExecutor) (rules : FinalizeParams) (db : Db) (sessions : TxSessions)
  (raw : Bytes → Option Transaction) (tokenId : Bytes)

/-- A final validator takes the transaction at the tip. A buy names no relevant outpoints, a
redeem its own inputs. -/
def AcceptedAt (tip : AppBacking) (tx : Transaction) : Prop :=
  (∃ r, validateFinalizedMintTransaction C X
    (rules.submitted db tokenId [] tip.toBackingTip tx) = .ok r) ∨
  ∃ r, validateFinalizedRedeemTransaction C X
    (rules.submitted db tokenId tx.spends tip.toBackingTip tx) = .ok r

/-- A pending transaction between two tips. It is no coinbase, and the node has it. -/
structure PendingStep (tip : AppBacking) (tx : Transaction) (next : AppBacking) : Prop where
  accepted : AcceptedAt C X rules db tokenId tip tx
  row : ∃ id r, sessions.get id = some r ∧ r.Spends tokenId tip.outpoint ∧
    r.txid = some (tx.getId C)
  known : raw (tx.getId C) = some tx
  no_coinbase : nullOutPoint ∉ tx.spends
  next : pendingSuccessor C tip tx = .ok (some next)

/-- A chain of pending transactions from one tip to the last. -/
inductive PendingChain : AppBacking → List Transaction → AppBacking → Prop
  | nil (tip : AppBacking) : PendingChain tip [] tip
  | cons {tip next last : AppBacking} {tx : Transaction} {txs : List Transaction}
      (h : PendingStep C X rules db sessions raw tokenId tip tx next)
      (rest : PendingChain next txs last) : PendingChain tip (tx :: txs) last

end

/-- The node knows transactions under their ids, and no two of them spend one output. -/
structure NodeConsistent (C : Crypto) (raw : Bytes → Option Transaction) : Prop where
  ids : ∀ txid tx, raw txid = some tx → tx.getId C = txid
  conflicts : ∀ txid txid' tx tx' o, raw txid = some tx → raw txid' = some tx' → o ∈ tx.spends →
    o ∈ tx'.spends → o ≠ nullOutPoint → txid = txid'

/-- A session's transaction spends the session's backing as its first input. -/
def SessionsTrue (sessions : TxSessions) (raw : Bytes → Option Transaction) (tokenId : Bytes) :
    Prop :=
  ∀ id r o txid tx, sessions.get id = some r → r.Spends tokenId o → r.txid = some txid →
    raw txid = some tx → ∃ ins0, tx.ins[0]? = some ins0 ∧ ins0.outpoint = o

/-- No session beyond the tip has a transaction the node knows. -/
def WalkEnds (sessions : TxSessions) (order : List Nat) (raw : Bytes → Option Transaction)
    (tokenId : Bytes) (tip : AppBacking) : Prop :=
  ∀ txid, (findBroadcastSpendOfBacking sessions order tokenId tip.outpoint).bind
    TxSessionRow.txid = some txid → raw txid = none

def V3Backing.toAppBacking (b : V3Backing) : AppBacking where
  state := b.state
  outpoint := b.outpoint
  stateHash := b.stateHash
  script := b.scriptPubKey
  valueSats := b.btcValue

/-- The ledger's backing of the token is the tip, in state, outpoint, value and all else. -/
def BackedBy (σ : Ledger) (tokenId : Bytes) (tip : AppBacking) : Prop :=
  (σ.backing.get tokenId).map V3Backing.toAppBacking = some tip

/-! When the walk and the indexer part. -/

/-- The session found for the vault a transaction spends is its own. -/
def Followed (C : Crypto) (sessions : TxSessions) (order : List Nat) (tokenId : Bytes)
    (tx : Transaction) : Prop :=
  ∃ ins0 ∈ tx.ins[0]?, (findBroadcastSpendOfBacking sessions order tokenId ins0.outpoint).bind
    TxSessionRow.txid = some (tx.getId C)

/-- A redeem spends no live carrier of another token, and none that an earlier transaction of
the chain makes. -/
def RedeemsConfirmed (C : Crypto) (σ : Ledger) (tokenId : Bytes) (done : List Transaction)
    (tx : Transaction) : Prop :=
  ∀ amount changes, decodeCoveOpReturnTx tx = .ok (.redeem tokenId amount changes) →
    ∀ o ∈ tx.spends, (∀ u, σ.tokenUtxos.get o = some u → u.tokenId = tokenId) ∧
      o ∉ done.flatMap (carriersOf C)

/-- Up to the first redeem that spends a carrier unknown to the token's snapshot, every
transaction is the one the walk finds, and that redeem is not. -/
def FollowsConfirmed (C : Crypto) (σ : Ledger) (sessions : TxSessions) (order : List Nat)
    (tokenId : Bytes) : List Transaction → List Transaction → Prop
  | _, [] => True
  | done, tx :: txs =>
    (Followed C sessions order tokenId tx ↔ RedeemsConfirmed C σ tokenId done tx) ∧
      (RedeemsConfirmed C σ tokenId done tx →
        FollowsConfirmed C σ sessions order tokenId (done ++ [tx]) txs)

/-! The walk. -/

section

variable {C : Crypto} {X : SimplicityExecutor} {rules : FinalizeParams} {db : Db}
  {sessions : TxSessions} {order : List Nat} {raw : Bytes → Option Transaction} {tokenId : Bytes}
  {tip next last : AppBacking} {tx : Transaction} {txs : List Transaction} {depth : Nat}

theorem findBroadcastSpendOfBacking_some {o : OutPoint} {r : TxSessionRow}
    (h : findBroadcastSpendOfBacking sessions order tokenId o = some r) :
    (∃ id, sessions.get id = some r) ∧ r.Spends tokenId o := by
  unfold findBroadcastSpendOfBacking at h
  have hspends := List.find?_some h
  obtain ⟨id, -, hid⟩ := List.mem_filterMap.mp (List.mem_of_find?_eq_some h)
  exact ⟨⟨id, hid⟩, of_decide_eq_true hspends⟩

theorem pendingVault_some {nextState : CoveStateV2}
    (h : pendingVault C tx nextState = .ok (some next)) : next.outpoint = ⟨tx.getId C, 1⟩ := by
  unfold pendingVault at h
  dsimp only at h
  split at h
  · cases h
  · split at h
    · simp only [bind_eq_ok, pure_eq_ok, Option.some.injEq] at h
      obtain ⟨_, -, rfl⟩ := h
      rfl
    · cases h

theorem pendingSuccessor_outpoint (h : pendingSuccessor C tip tx = .ok (some next)) :
    next.outpoint = ⟨tx.getId C, 1⟩ := by
  unfold pendingSuccessor at h
  split at h
  · simp only [bind_eq_ok] at h
    obtain ⟨_, -, h⟩ := h
    exact pendingVault_some h
  · simp only [bind_eq_ok] at h
    obtain ⟨_, -, h⟩ := h
    exact pendingVault_some h
  · cases h

/-- The walk takes a transaction it finds. -/
theorem follow_found {ins0 : TxIn} (hins : tx.ins[0]? = some ins0)
    (hout : ins0.outpoint = tip.outpoint)
    (hstep : PendingStep C X rules db sessions raw tokenId tip tx next)
    (hf : Followed C sessions order tokenId tx) :
    followPendingBacking C sessions order raw tokenId none (depth + 1) tip =
      followPendingBacking C sessions order raw tokenId none depth next := by
  obtain ⟨ins0', hins', hfind⟩ := hf
  obtain rfl : ins0 = ins0' := by simpa [hins] using hins'
  rw [hout] at hfind
  rw [followPendingBacking, if_neg (by simp), hfind]
  dsimp only
  rw [hstep.known]
  dsimp only
  rw [hstep.next]
  rfl

/-- The walk ends at a tip whose transaction it does not find: a conflicting one is unknown to
the node. -/
theorem follow_lost (hnode : NodeConsistent C raw) (hrows : SessionsTrue sessions raw tokenId)
    {ins0 : TxIn} (hins : tx.ins[0]? = some ins0) (hout : ins0.outpoint = tip.outpoint)
    (hstep : PendingStep C X rules db sessions raw tokenId tip tx next)
    (hf : ¬ Followed C sessions order tokenId tx) :
    followPendingBacking C sessions order raw tokenId none (depth + 1) tip = .ok tip := by
  rw [followPendingBacking, if_neg (by simp)]
  cases hfind : (findBroadcastSpendOfBacking sessions order tokenId tip.outpoint).bind
      TxSessionRow.txid with
  | none => rfl
  | some txid =>
    dsimp only
    cases hraw : raw txid with
    | none => rfl
    | some other =>
      exfalso
      apply hf
      obtain ⟨r, hr, htxid⟩ := Option.bind_eq_some_iff.mp hfind
      obtain ⟨⟨id, hid⟩, hspends⟩ := findBroadcastSpendOfBacking_some hr
      obtain ⟨first, hfirst, hfirstout⟩ := hrows id r _ txid other hid hspends htxid hraw
      have hspend : ins0.outpoint ∈ tx.spends :=
        List.mem_map.mpr ⟨ins0, List.mem_of_getElem? hins, rfl⟩
      have hother : ins0.outpoint ∈ other.spends := by
        rw [hout, ← hfirstout]
        exact List.mem_map.mpr ⟨first, List.mem_of_getElem? hfirst, rfl⟩
      have hne : ins0.outpoint ≠ nullOutPoint := by
        intro heq
        exact hstep.no_coinbase (heq ▸ hspend)
      obtain rfl := hnode.conflicts _ _ other tx _ hraw hstep.known hother hspend hne
      exact ⟨ins0, hins, by rw [hout, hfind]⟩

theorem follow_ends (h : WalkEnds sessions order raw tokenId tip) :
    followPendingBacking C sessions order raw tokenId none depth tip = .ok tip := by
  cases depth with
  | zero => rfl
  | succ depth =>
    rw [followPendingBacking, if_neg (by simp)]
    cases hfind : (findBroadcastSpendOfBacking sessions order tokenId tip.outpoint).bind
        TxSessionRow.txid with
    | none => rfl
    | some txid =>
      dsimp only
      rw [h txid hfind]

end

end Cove
