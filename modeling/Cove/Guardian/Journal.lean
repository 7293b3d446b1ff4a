import Cove.Indexer.Types

/-! The signing journal: `packages/cove-guardian/src/v3/journal.ts` and
`packages/cove-app/src/journal.ts`. -/

namespace Cove

/-- `${network}:${backingTxid}:${backingVout}`. -/
structure JournalKey where
  network : Network
  backing : OutPoint
  deriving DecidableEq, Repr

structure ReserveParams where
  key : JournalKey
  unsignedTxDigest : Bytes
  deriving DecidableEq, Repr

structure JournalEntry where
  digest : Bytes
  expiresAt : Nat
  deriving DecidableEq, Repr

inductive SigningReservation
  | reserved
  | idempotent
  | conflict
  deriving DecidableEq, Repr

/-- Thirty minutes. -/
def signingJournalTtlMs : Nat := 30 * 60 * 1000

abbrev SigningJournal := Dict JournalKey JournalEntry

namespace SigningJournal

/-- The entry under a key, unless its time is over. -/
def held (j : SigningJournal) (now : Nat) (key : JournalKey) : Option JournalEntry :=
  (j.get key).filter fun e => now < e.expiresAt

def take (j : SigningJournal) (now : Nat) (p : ReserveParams) : SigningJournal :=
  j.set p.key ⟨p.unsignedTxDigest, now + signingJournalTtlMs⟩

/-- `InMemorySigningJournal.reserve`, one uninterrupted step. -/
def reserve (j : SigningJournal) (now : Nat) (p : ReserveParams) :
    SigningReservation × SigningJournal :=
  match j.held now p.key with
  | some e => (if e.digest = p.unsignedTxDigest then .idempotent else .conflict, j)
  | none => (.reserved, j.take now p)

/-- The insert of `PostgresSigningJournal.reserve`: the row is claimed when it is absent
or expired, and the statement returns nothing otherwise. -/
def claim (j : SigningJournal) (now : Nat) (p : ReserveParams) : Option SigningJournal :=
  if j.held now p.key = none then some (j.take now p) else none

/-- The select that follows a lost claim. It does not look at the expiry. -/
def reread (j : SigningJournal) (p : ReserveParams) : SigningReservation :=
  match j.get p.key with
  | none => .conflict
  | some e => if e.digest = p.unsignedTxDigest then .idempotent else .conflict

/-- `release`, alike in both journals. -/
def release (j : SigningJournal) (p : ReserveParams) : SigningJournal :=
  match j.get p.key with
  | some e => if e.digest = p.unsignedTxDigest then j.delete p.key else j
  | none => j

theorem held_eq_none {j : SigningJournal} {now : Nat} {key : JournalKey} :
    j.held now key = none ↔ ∀ e, j.get key = some e → e.expiresAt ≤ now := by
  unfold held
  cases j.get key with
  | none => simp
  | some e => simp

theorem held_eq_some {j : SigningJournal} {now : Nat} {key : JournalKey} {e : JournalEntry} :
    j.held now key = some e ↔ j.get key = some e ∧ now < e.expiresAt := by
  unfold held
  rw [Option.filter_eq_some_iff]
  simp

/-- A reservation taken where nothing is held leaves every held entry in place. -/
theorem get_take {j : SigningJournal} {now : Nat} {p : ReserveParams} {key : JournalKey}
    {e : JournalEntry} (hfree : j.held now p.key = none) (hg : j.get key = some e)
    (hl : now < e.expiresAt) : (j.take now p).get key = some e := by
  rw [take, Dict.get_set_ne, hg]
  rintro rfl
  have := held_eq_none.mp hfree e hg
  omega

/-- A release takes out nothing but an entry with its own digest. -/
theorem get_release {j : SigningJournal} {p : ReserveParams} {key : JournalKey}
    {e : JournalEntry} (hg : j.get key = some e)
    (hne : key = p.key → e.digest ≠ p.unsignedTxDigest) : (j.release p).get key = some e := by
  unfold release
  split
  · rename_i e' he'
    split
    · rw [Dict.get_delete, if_neg, hg]
      rintro rfl
      rw [hg] at he'
      obtain rfl := Option.some.inj he'
      exact hne rfl (by assumption)
    · exact hg
  · exact hg

end SigningJournal

end Cove
