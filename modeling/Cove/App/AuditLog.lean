import Cove.Guardian.Audit
import Cove.Indexer.Types
import Cove.Lib.Machine
import Mathlib.Data.List.Sort
import Mathlib.Data.List.TakeWhile

/-! The durable audit log under concurrent writers: `packages/cove-app/src/audit.ts` over the table
of `packages/db/src/schema.ts`. -/

namespace Cove

open Checked HashChain

/-- What `writeBeforeSign` is called with, as far as the chain goes. -/
structure AuditRecord where
  network : Network
  fields : GuardianAuditDigestFields
  deriving DecidableEq, Repr

/-- A row of `cove_v3_guardian_audit`. -/
structure AuditRow where
  network : Network
  link : AuditLink
  beforeSignPersistedAt : Nat
  deriving DecidableEq, Repr

/-- The table in order of insertion, and the calls between their two statements, each with its
record and the head hash it has read. -/
structure AuditLog where
  rows : List AuditRow
  calls : Dict Nat (AuditRecord × Bytes)

def AuditLog.empty : AuditLog := ⟨[], ∅⟩

def networkRows (network : Network) (rows : List AuditRow) : List AuditRow :=
  rows.filter fun row => row.network = network

/-- What `headHash` may answer: the hash of a row that no row of the network is newer than. Among
rows of one time the query is free to choose. -/
def IsHeadHash (rows : List AuditRow) (network : Network) (head : Bytes) : Prop :=
  (networkRows network rows = [] ∧ head = zeroAuditHash) ∨
    ∃ row ∈ networkRows network rows, row.link.auditHash = head ∧
      ∀ other ∈ networkRows network rows, other.beforeSignPersistedAt ≤ row.beforeSignPersistedAt

instance (rows : List AuditRow) (network : Network) (head : Bytes) :
    Decidable (IsHeadHash rows network head) := inferInstanceAs (Decidable (_ ∨ _))

/-- The two statements of a call, and its failure between them. The time of the row is the caller's
clock's. -/
inductive AuditAction
  | readHead (call : Nat) (record : AuditRecord) (head : Bytes)
  | insertRow (call : Nat) (now : Nat)
  | fail (call : Nat)
  deriving DecidableEq, Repr

/-- Values the columns can hold: `integer` and `bigint` are signed, and no text has a zero byte. -/
def FitsColumns (fields : GuardianAuditDigestFields) : Prop :=
  fields.backingVout ≤ 0x7fffffff ∧
    (∀ n ∈ [fields.amountAtoms, fields.grossSats, fields.protocolFeeSats, fields.minerFeeSats],
      n ≤ 0x7fffffffffffffff) ∧
    0 ∉ fields.requestId ∧ ∀ reason ∈ fields.rejectionReason, 0 ∉ reason

instance (fields : GuardianAuditDigestFields) : Decidable (FitsColumns fields) :=
  inferInstanceAs (Decidable (_ ∧ _))

/-- The row a call adds. There is none where the record has no canonical bytes, where a column
refuses a value and where the index on network and hash refuses the row: then the call throws. -/
def rowToInsert (C : Crypto) (log : AuditLog) (call now : Nat) : Option AuditRow := do
  let (record, previousAuditHash) ← log.calls.get call
  let auditHash ← (computeGuardianAuditHash C previousAuditHash record.fields).toOption
  if ¬ FitsColumns record.fields then none
  else if log.rows.any fun row => row.network = record.network ∧ row.link.auditHash = auditHash then
    none
  else some ⟨record.network, ⟨previousAuditHash, auditHash, record.fields⟩, now⟩

def auditStep (C : Crypto) (log : AuditLog) : AuditAction → Option AuditLog
  | .readHead call record head =>
    if log.calls.has call = false ∧ IsHeadHash log.rows record.network head then
      some { log with calls := log.calls.set call (record, head) }
    else none
  | .insertRow call now =>
    if log.calls.has call then
      some {
        rows := log.rows ++ (rowToInsert C log call now).toList
        calls := log.calls.delete call }
    else none
  | .fail call =>
    if log.calls.has call then some { log with calls := log.calls.delete call } else none

/-- The rows of a network in an order the reader may load them in. -/
structure LoadedInOrder (rows : List AuditRow) (network : Network) (loaded : List AuditRow) :
    Prop where
  perm : loaded.Perm (networkRows network rows)
  sorted : loaded.Pairwise fun a b => a.beforeSignPersistedAt ≤ b.beforeSignPersistedAt

/-- However each network's rows are loaded, they verify. -/
def ChainVerifies (C : Crypto) (log : AuditLog) : Prop :=
  ∀ network loaded, LoadedInOrder log.rows network loaded →
    verifyGuardianAuditChain C (loaded.map AuditRow.link) = .ok true

/-- The hash of the row of the network that was inserted last. -/
def lastHash (rows : List AuditRow) (network : Network) : Bytes :=
  head AuditLink.auditHash zeroAuditHash ((networkRows network rows).map AuditRow.link)

/-- A call whose row is added has read the hash of the row added last, and its time is later than
that of every row. -/
def InTurn (C : Crypto) (log : AuditLog) : AuditAction → Prop
  | .readHead _ _ _ | .fail _ => True
  | .insertRow call now => ∀ row ∈ rowToInsert C log call now,
      row.link.previousAuditHash = lastHash log.rows row.network ∧
      ∀ other ∈ networkRows row.network log.rows, other.beforeSignPersistedAt < now

instance (C : Crypto) (log : AuditLog) : ∀ action, Decidable (InTurn C log action)
  | .readHead _ _ _ | .fail _ => .isTrue trivial
  | .insertRow call now => inferInstanceAs (Decidable (∀ row ∈ rowToInsert C log call now,
      row.link.previousAuditHash = lastHash log.rows row.network ∧
      ∀ other ∈ networkRows row.network log.rows, other.beforeSignPersistedAt < now))

/-! What one call adds. -/

section

variable {C : Crypto} {log log' : AuditLog} {rows : List AuditRow} {row : AuditRow}
  {network : Network} {call now : Nat}

theorem mem_networkRows : row ∈ networkRows network rows ↔ row ∈ rows ∧ row.network = network := by
  simp [networkRows]

theorem networkRows_concat_self :
    networkRows row.network (rows ++ [row]) = networkRows row.network rows ++ [row] := by
  simp [networkRows]

theorem networkRows_concat_of_ne (h : row.network ≠ network) :
    networkRows network (rows ++ [row]) = networkRows network rows := by
  simp [networkRows, h]

/-- A row is that of a call which has read its head; it has the hash of what it carries, which no
row of its network has. -/
theorem rowToInsert_eq_some (h : rowToInsert C log call now = some row) :
    log.calls.has call = true ∧ row.beforeSignPersistedAt = now ∧
      computeGuardianAuditHash C row.link.previousAuditHash row.link.fields =
        .ok row.link.auditHash ∧
      ∀ other ∈ networkRows row.network log.rows, other.link.auditHash ≠ row.link.auditHash := by
  simp only [rowToInsert, Option.bind_eq_bind, Option.bind_eq_some_iff] at h
  obtain ⟨⟨record, previousAuditHash⟩, hcall, auditHash, hhash, h⟩ := h
  split at h
  · cases h
  split at h
  · cases h
  rename_i hnew
  cases h
  refine ⟨Dict.has_iff.mpr ⟨_, hcall⟩, rfl, toOption_eq_some.mp hhash, ?_⟩
  intro other hother heq
  obtain ⟨hmem, hnetwork⟩ := mem_networkRows.mp hother
  apply hnew
  rw [List.any_eq_true]
  exact ⟨other, hmem, by simp [hnetwork, heq]⟩

/-- A step adds the row of one call or none; rows are never changed or taken away. -/
theorem auditStep_rows {action : AuditAction} (h : auditStep C log action = some log') :
    log'.rows = log.rows ∨
      ∃ call now row, action = .insertRow call now ∧ rowToInsert C log call now = some row ∧
        log'.rows = log.rows ++ [row] := by
  cases action with
  | readHead call record head =>
    simp only [auditStep] at h
    split at h
    · cases h
      exact .inl rfl
    · cases h
  | insertRow call now =>
    simp only [auditStep] at h
    split at h
    · cases h
      cases hrow : rowToInsert C log call now with
      | none => exact .inl (by simp)
      | some row => exact .inr ⟨call, now, row, rfl, hrow, rfl⟩
    · cases h
  | fail call =>
    simp only [auditStep] at h
    split at h
    · cases h
      exact .inl rfl
    · cases h

theorem auditStep_subset {action : AuditAction} (h : auditStep C log action = some log') :
    log.rows ⊆ log'.rows := by
  obtain heq | ⟨_, _, row, -, -, heq⟩ := auditStep_rows h
  · rw [heq]
    exact List.Subset.refl _
  · rw [heq]
    exact List.subset_append_left _ _

theorem audit_run_subset {actions : List AuditAction}
    (h : Machine.run (auditStep C) log actions = some log') : log.rows ⊆ log'.rows := by
  induction actions generalizing log with
  | nil =>
    cases h
    exact List.Subset.refl _
  | cons action actions ih =>
    rw [Machine.run, Option.bind_eq_some_iff] at h
    obtain ⟨mid, hmid, h⟩ := h
    exact List.Subset.trans (auditStep_subset hmid) (ih h)

/-! The order of insertion as the order of the chain. -/

/-- The rows of each network, in the order of their insertion, are a chain of increasing times and
distinct hashes. -/
structure KeptInOrder (C : Crypto) (rows : List AuditRow) : Prop where
  chained : ∀ network, Chained AuditLink.previousAuditHash AuditLink.auditHash zeroAuditHash
    ((networkRows network rows).map AuditRow.link)
  hashed : ∀ row ∈ rows,
    computeGuardianAuditHash C row.link.previousAuditHash row.link.fields = .ok row.link.auditHash
  later : ∀ network, (networkRows network rows).Pairwise fun a b =>
    a.beforeSignPersistedAt < b.beforeSignPersistedAt
  distinct : ∀ network, (networkRows network rows).Pairwise fun a b =>
    a.link.auditHash ≠ b.link.auditHash

theorem keptInOrder_nil : KeptInOrder C [] :=
  ⟨fun _ => trivial, fun _ h => by simp at h, fun _ => .nil, fun _ => .nil⟩

theorem KeptInOrder.concat (h : KeptInOrder C rows)
    (hprevious : row.link.previousAuditHash = lastHash rows row.network)
    (hhash : computeGuardianAuditHash C row.link.previousAuditHash row.link.fields =
      .ok row.link.auditHash)
    (hlater : ∀ other ∈ networkRows row.network rows,
      other.beforeSignPersistedAt < row.beforeSignPersistedAt)
    (hnew : ∀ other ∈ networkRows row.network rows, other.link.auditHash ≠ row.link.auditHash) :
    KeptInOrder C (rows ++ [row]) where
  chained network := by
    by_cases hnetwork : row.network = network
    · subst hnetwork
      rw [networkRows_concat_self, List.map_append, List.map_singleton, chained_concat]
      exact ⟨h.chained row.network, hprevious⟩
    · rw [networkRows_concat_of_ne hnetwork]
      exact h.chained network
  hashed other hother := by
    obtain hother | hother := List.mem_append.mp hother
    · exact h.hashed other hother
    · obtain rfl := List.mem_singleton.mp hother
      exact hhash
  later network := by
    by_cases hnetwork : row.network = network
    · subst hnetwork
      rw [networkRows_concat_self, List.pairwise_append]
      refine ⟨h.later row.network, List.pairwise_singleton _ _, ?_⟩
      simpa using hlater
    · rw [networkRows_concat_of_ne hnetwork]
      exact h.later network
  distinct network := by
    by_cases hnetwork : row.network = network
    · subst hnetwork
      rw [networkRows_concat_self, List.pairwise_append]
      refine ⟨h.distinct row.network, List.pairwise_singleton _ _, ?_⟩
      simpa using hnew
    · rw [networkRows_concat_of_ne hnetwork]
      exact h.distinct network

theorem KeptInOrder.step {action : AuditAction} (h : KeptInOrder C log.rows)
    (hturn : InTurn C log action) (hstep : auditStep C log action = some log') :
    KeptInOrder C log'.rows := by
  obtain heq | ⟨call, now, row, rfl, hrow, heq⟩ := auditStep_rows hstep
  · rw [heq]
    exact h
  · obtain ⟨-, htime, hhash, hnew⟩ := rowToInsert_eq_some hrow
    obtain ⟨hprevious, hlater⟩ := hturn row hrow
    rw [← htime] at hlater
    rw [heq]
    exact h.concat hprevious hhash hlater hnew

/-- Times that increase leave the reader one order. -/
theorem KeptInOrder.loaded_eq (h : KeptInOrder C rows) {loaded : List AuditRow}
    (hloaded : LoadedInOrder rows network loaded) : loaded = networkRows network rows := by
  apply hloaded.perm.eq_of_pairwise _ hloaded.sorted ((h.later network).imp Nat.le_of_lt)
  have htimes : ((networkRows network rows).map AuditRow.beforeSignPersistedAt).Nodup :=
    List.pairwise_map.mpr ((h.later network).imp Nat.ne_of_lt)
  intro a b ha hb hab hba
  have ha := hloaded.perm.mem_iff.mp ha
  exact List.inj_on_of_nodup_map htimes ha hb (Nat.le_antisymm hab hba)

theorem KeptInOrder.verifies (h : KeptInOrder C log.rows) : ChainVerifies C log := by
  intro network loaded hloaded
  rw [h.loaded_eq hloaded, verifyGuardianAuditChain, verifyGuardianAuditLinks_eq_true]
  refine ⟨h.chained network, ?_⟩
  intro link hlink
  obtain ⟨row, hrow, rfl⟩ := List.mem_map.mp hlink
  exact h.hashed row (mem_networkRows.mp hrow).1

/-! A row out of turn breaks the chain. -/

/-- The reader may load a row before every row of its network that is not older. -/
theorem loadedInOrder_insert (hlater : (networkRows row.network rows).Pairwise fun a b =>
    a.beforeSignPersistedAt ≤ b.beforeSignPersistedAt) :
    LoadedInOrder (rows ++ [row]) row.network ((networkRows row.network rows).orderedInsert
      (fun a b => a.beforeSignPersistedAt ≤ b.beforeSignPersistedAt) row) where
  perm := by
    rw [networkRows_concat_self]
    exact (List.perm_orderedInsert _ _ _).trans (List.perm_append_singleton _ _).symm
  sorted := by
    have htotal : Std.Total fun a b : AuditRow =>
        a.beforeSignPersistedAt ≤ b.beforeSignPersistedAt :=
      ⟨fun a b => Nat.le_total _ _⟩
    have htrans : IsTrans AuditRow fun a b =>
        a.beforeSignPersistedAt ≤ b.beforeSignPersistedAt :=
      ⟨fun a b c => Nat.le_trans⟩
    exact List.Pairwise.orderedInsert row _ hlater

/-- What a chain ends in is the start or the hash of one of its rows. -/
theorem hash_ne_head {ls : List AuditLink} {hash : Bytes} (hzero : hash ≠ zeroAuditHash)
    (hnew : ∀ l ∈ ls, l.auditHash ≠ hash) : hash ≠ head AuditLink.auditHash zeroAuditHash ls := by
  induction ls using List.reverseRecOn with
  | nil => exact hzero
  | append_singleton ls l _ =>
    rw [head_concat]
    exact (hnew l (by simp)).symm

/-- A row that verifies where the reader may load it is the newest of its network and names the
row before it. -/
theorem KeptInOrder.newest (h : KeptInOrder C rows) (hzero : row.link.auditHash ≠ zeroAuditHash)
    (hnew : ∀ other ∈ networkRows row.network rows, other.link.auditHash ≠ row.link.auditHash)
    (hverifies : ∀ loaded, LoadedInOrder (rows ++ [row]) row.network loaded →
      Chained AuditLink.previousAuditHash AuditLink.auditHash zeroAuditHash
        (loaded.map AuditRow.link)) :
    row.link.previousAuditHash = lastHash rows row.network ∧
      ∀ other ∈ networkRows row.network rows,
        other.beforeSignPersistedAt < row.beforeSignPersistedAt := by
  have hload := hverifies _ (loadedInOrder_insert ((h.later row.network).imp Nat.le_of_lt))
  rw [List.orderedInsert_eq_take_drop] at hload
  -- The rows that are not older come after the new one: there are none.
  have hrest : (networkRows row.network rows).dropWhile (fun other =>
      ¬ row.beforeSignPersistedAt ≤ other.beforeSignPersistedAt) = [] := by
    by_contra hne
    obtain ⟨other, others, hsplit⟩ := List.exists_cons_of_ne_nil hne
    have hold := h.chained row.network
    rw [← List.takeWhile_append_dropWhile (l := networkRows row.network rows) (p := fun other =>
      decide (¬ row.beforeSignPersistedAt ≤ other.beforeSignPersistedAt)), hsplit] at hold
    rw [hsplit] at hload
    simp only [List.map_append, List.map_cons] at hold hload
    apply hash_ne_head hzero _ (hold.hash_between hload)
    intro link hlink
    obtain ⟨other, hother, rfl⟩ := List.mem_map.mp hlink
    exact hnew other (List.takeWhile_subset _ hother)
  have hfront : (networkRows row.network rows).takeWhile (fun other =>
      ¬ row.beforeSignPersistedAt ≤ other.beforeSignPersistedAt) = networkRows row.network rows := by
    have hwhole := List.takeWhile_append_dropWhile (l := networkRows row.network rows)
      (p := fun other => decide (¬ row.beforeSignPersistedAt ≤ other.beforeSignPersistedAt))
    rwa [hrest, List.append_nil] at hwhole
  constructor
  · rw [hrest, hfront, List.map_append, List.map_singleton, chained_concat] at hload
    exact hload.2
  · intro other hother
    rw [← hfront] at hother
    simpa using List.mem_takeWhile_imp hother

/-- A call that is not in turn ends its statement in a log that need not verify. -/
theorem KeptInOrder.not_inTurn {action : AuditAction} (h : KeptInOrder C log.rows)
    (hturn : ¬ InTurn C log action) : ∃ log', auditStep C log action = some log' ∧
      ¬ (ChainVerifies C log' ∧ ∀ row ∈ log'.rows, row.link.auditHash ≠ zeroAuditHash) := by
  cases action with
  | readHead call record head => exact absurd trivial hturn
  | fail call => exact absurd trivial hturn
  | insertRow call now =>
    simp only [InTurn, not_forall] at hturn
    obtain ⟨row, hrow, hturn⟩ := hturn
    have hrow := Option.mem_def.mp hrow
    obtain ⟨hcall, htime, -, hnew⟩ := rowToInsert_eq_some hrow
    refine ⟨_, by rw [auditStep, if_pos hcall], ?_⟩
    intro hgood
    obtain ⟨hverifies, hnonzero⟩ := hgood
    simp only [hrow, Option.toList_some] at hverifies hnonzero
    apply hturn
    rw [← htime]
    apply h.newest (hnonzero row (by simp)) hnew
    intro loaded hloaded
    exact (verifyGuardianAuditLinks_eq_true.mp (hverifies row.network loaded hloaded)).1

/-- The log verifies wherever a run can be read exactly where every call of it is in turn. -/
theorem audit_chain_iff {actions : List AuditAction}
    (hrun : Machine.run (auditStep C) .empty actions = some log)
    (hnonzero : ∀ row ∈ log.rows, row.link.auditHash ≠ zeroAuditHash) :
    (∀ front mid, front <+: actions → Machine.run (auditStep C) .empty front = some mid →
        ChainVerifies C mid) ↔
      Machine.Guarded (auditStep C) (InTurn C) .empty actions := by
  constructor
  · intro hverifies
    apply Machine.guarded_of_prefixes (I := fun log => KeptInOrder C log.rows) (p := fun _ => True)
      (P := fun log => ChainVerifies C log ∧ ∀ row ∈ log.rows, row.link.auditHash ≠ zeroAuditHash)
    · intro log action log' hkept hok hstep
      exact hkept.step hok.1 hstep
    · intro log action hkept hturn
      exact hkept.not_inTurn hturn
    · exact keptInOrder_nil
    · intro action _
      trivial
    · intro front mid hfront hmid
      obtain ⟨back, rfl⟩ := hfront
      obtain ⟨mid', hmid', hback⟩ := Machine.run_append.mp hrun
      obtain rfl : mid = mid' := Option.some.inj (hmid.symm.trans hmid')
      refine ⟨hverifies front mid ⟨back, rfl⟩ hmid, ?_⟩
      intro row hrow
      exact hnonzero row (audit_run_subset hback hrow)
  · intro hguarded front mid hfront hmid
    have hkept := Machine.run_invariant (I := fun log => KeptInOrder C log.rows)
      (fun log action log' hkept hturn hstep => hkept.step hturn hstep) keptInOrder_nil
      (hguarded.take_front hfront) hmid
    exact hkept.verifies

end

/-! Two records: one call after the other, and both calls on one head. -/

def sampleAuditRecord (operation : AuditOperation) : AuditRecord :=
  ⟨.testnet, { sampleAuditFields none with operation }⟩

def oneAfterTheOther : List AuditAction :=
  [.readHead 0 (sampleAuditRecord .mint) zeroAuditHash, .insertRow 0 1,
    .readHead 1 (sampleAuditRecord .redeem) sampleAuditHash, .insertRow 1 2]

def bothOnOneHead : List AuditAction :=
  [.readHead 0 (sampleAuditRecord .mint) zeroAuditHash,
    .readHead 1 (sampleAuditRecord .redeem) zeroAuditHash, .insertRow 0 1, .insertRow 1 2]

theorem audit_chain_sample :
    Machine.Guarded (auditStep sha256Crypto) (InTurn sha256Crypto) .empty oneAfterTheOther ∧
    ∀ front mid, front <+: oneAfterTheOther →
      Machine.run (auditStep sha256Crypto) .empty front = some mid →
      ChainVerifies sha256Crypto mid := by
  have hguarded : Machine.Guarded (auditStep sha256Crypto) (InTurn sha256Crypto) .empty
      oneAfterTheOther := by decide +kernel
  have hnonzero : ∀ log ∈ Machine.run (auditStep sha256Crypto) .empty oneAfterTheOther,
      ∀ row ∈ log.rows, row.link.auditHash ≠ zeroAuditHash := by decide +kernel
  have hruns : (Machine.run (auditStep sha256Crypto) .empty oneAfterTheOther).isSome := by
    decide +kernel
  obtain ⟨log, hrun⟩ := Option.isSome_iff_exists.mp hruns
  exact ⟨hguarded, (audit_chain_iff hrun (hnonzero log hrun)).mpr hguarded⟩

/-- Both calls add their rows, which name the same hash before them. -/
theorem shared_head_forks : ∃ log,
    Machine.run (auditStep sha256Crypto) .empty bothOnOneHead = some log ∧
    log.rows.length = 2 ∧ ¬ ChainVerifies sha256Crypto log := by
  have hends : ∀ log ∈ Machine.run (auditStep sha256Crypto) .empty bothOnOneHead,
      log.rows.length = 2 ∧ networkRows .testnet log.rows = log.rows ∧
      (log.rows.Pairwise fun a b => a.beforeSignPersistedAt ≤ b.beforeSignPersistedAt) ∧
      verifyGuardianAuditChain sha256Crypto (log.rows.map AuditRow.link) = .ok false := by
    decide +kernel
  have hruns : (Machine.run (auditStep sha256Crypto) .empty bothOnOneHead).isSome := by
    decide +kernel
  obtain ⟨log, hrun⟩ := Option.isSome_iff_exists.mp hruns
  obtain ⟨hlength, hnetwork, hsorted, hfork⟩ := hends log hrun
  refine ⟨log, hrun, hlength, ?_⟩
  intro hverifies
  have hloaded : LoadedInOrder log.rows .testnet log.rows := by
    constructor
    · rw [hnetwork]
    · exact hsorted
  have htrue := hverifies .testnet log.rows hloaded
  rw [hfork] at htrue
  simp at htrue

end Cove
