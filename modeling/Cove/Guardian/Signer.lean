import Cove.Guardian.Journal
import Cove.Lib.Machine

/-! Concurrent `LocalGuardianTransitionSigner.sign` calls over one journal:
`packages/cove-guardian/src/v3/transitionSigner.ts`. Each call's reservation, signing and
release are steps of their own, and each may fail. -/

namespace Cove

/-- Where a call stands. Up to `requested` it has touched nothing shared. A call that was
admitted keeps the expiry of the entry that admitted it. -/
inductive SignPhase
  | requested
  | rereading
  | admitted (reservation : SigningReservation) (heldUntil : Nat)
  | releasing
  | returned
  deriving DecidableEq, Repr

structure SignCall where
  params : ReserveParams
  phase : SignPhase
  deriving DecidableEq, Repr

/-- A signature the signer has produced, when, and until when its reservation holds. -/
structure Signature where
  params : ReserveParams
  time : Nat
  heldUntil : Nat
  deriving DecidableEq, Repr

inductive JournalKind
  | memory
  | postgres
  deriving DecidableEq, Repr

structure SignerSystem where
  clock : Nat
  journal : SigningJournal
  calls : Dict Nat SignCall
  signatures : List Signature
  deriving DecidableEq

def SignerSystem.new (clock : Nat) : SignerSystem := ⟨clock, ∅, ∅, []⟩

/-- The steps of one call. -/
inductive CallStep
  /-- Validation, the risk policy, the audit or the journal itself ends the call. -/
  | refuse
  | reserve
  | reread
  /-- `buildBackingVaultV3` throws: outside the `try`, so nothing is released. -/
  | vaultThrows
  | signed
  | signThrows
  | release
  | releaseThrows
  deriving DecidableEq, Repr

/-- A call begins, time passes, or a call takes a step. -/
inductive SignAction
  | sign (id : Nat) (params : ReserveParams)
  | wait (ms : Nat)
  | call (id : Nat) (step : CallStep)
  deriving DecidableEq, Repr

namespace SignerSystem

def setPhase (s : SignerSystem) (id : Nat) (c : SignCall) (phase : SignPhase) : SignerSystem :=
  { s with calls := s.calls.set id { c with phase } }

/-- The expiry of the entry a call was admitted under. -/
def heldUntil (s : SignerSystem) (key : JournalKey) : Nat :=
  (s.journal.get key).elim 0 JournalEntry.expiresAt

/-- Go on with a reservation, or return `BACKING_ALREADY_SIGNED`. -/
def grant (s : SignerSystem) (id : Nat) (c : SignCall) (r : SigningReservation) : SignerSystem :=
  if r = .conflict then s.setPhase id c .returned
  else s.setPhase id c (.admitted r (s.heldUntil c.params.key))

def reserveStep (kind : JournalKind) (s : SignerSystem) (id : Nat) (c : SignCall) : SignerSystem :=
  match kind with
  | .memory =>
    let (r, journal) := s.journal.reserve s.clock c.params
    grant { s with journal } id c r
  | .postgres =>
    match s.journal.claim s.clock c.params with
    | some journal => grant { s with journal } id c .reserved
    | none => s.setPhase id c .rereading

def callStep (kind : JournalKind) (s : SignerSystem) (id : Nat) (c : SignCall) :
    CallStep → SignPhase → Option SignerSystem
  | .refuse, .requested => some (s.setPhase id c .returned)
  | .refuse, .rereading => some (s.setPhase id c .returned)
  | .reserve, .requested => some (s.reserveStep kind id c)
  | .reread, .rereading => some (s.grant id c (s.journal.reread c.params))
  | .vaultThrows, .admitted _ _ => some (s.setPhase id c .returned)
  | .signed, .admitted _ heldUntil =>
    some { s.setPhase id c .returned with
      signatures := ⟨c.params, s.clock, heldUntil⟩ :: s.signatures }
  -- Only a call that made the reservation itself releases it.
  | .signThrows, .admitted r _ =>
    some (s.setPhase id c (if r = .reserved then .releasing else .returned))
  | .release, .releasing =>
    some { s.setPhase id c .returned with journal := s.journal.release c.params }
  | .releaseThrows, .releasing => some (s.setPhase id c .returned)
  | _, _ => none

def step (kind : JournalKind) (s : SignerSystem) : SignAction → Option SignerSystem
  | .sign id params =>
    if s.calls.has id then none
    else some { s with calls := s.calls.set id ⟨params, .requested⟩ }
  | .wait ms => some { s with clock := s.clock + ms }
  | .call id a => (s.calls.get id).bind fun c => s.callStep kind id c a c.phase

end SignerSystem

/-- No two signatures with different digests spend one backing outpoint while both
reservations hold. -/
def AtMostOneSignature (s : SignerSystem) : Prop :=
  ∀ a ∈ s.signatures, ∀ b ∈ s.signatures, a.params.key = b.params.key →
    a.params.unsignedTxDigest ≠ b.params.unsignedTxDigest →
      min a.heldUntil b.heldUntil ≤ max a.time b.time

instance (s : SignerSystem) : Decidable (AtMostOneSignature s) :=
  inferInstanceAs (Decidable (∀ a ∈ s.signatures, ∀ b ∈ s.signatures, _ → _ → _))

/-- The call is admitted under a reservation that still holds. -/
def SignPhase.holding (clock : Nat) : SignPhase → Bool
  | .admitted _ heldUntil => clock < heldUntil
  | _ => false

/-- A release takes nothing from anyone else: no other call with its digest was admitted to
the outpoint under a reservation that still holds, be it waiting to sign or signed. -/
def SoleHolder (s : SignerSystem) : SignAction → Prop
  | .call id .release => ∀ c ∈ s.calls.get id,
    (∀ id' c', s.calls.get id' = some c' → c'.params = c.params → c'.phase.holding s.clock = false) ∧
    ∀ g ∈ s.signatures, g.params = c.params → g.heldUntil ≤ s.clock
  | _ => True

instance (s : SignerSystem) (a : SignAction) : Decidable (SoleHolder s a) := by
  unfold SoleHolder
  split <;> infer_instance

/-- While a reservation holds, the journal has its entry. -/
def SignerSystem.Holds (s : SignerSystem) (p : ReserveParams) (heldUntil : Nat) : Prop :=
  s.clock < heldUntil → s.journal.get p.key = some ⟨p.unsignedTxDigest, heldUntil⟩

structure SignerInv (s : SignerSystem) : Prop where
  pending : ∀ id c r t, s.calls.get id = some c → c.phase = .admitted r t → s.Holds c.params t
  live : ∀ g ∈ s.signatures, s.Holds g.params g.heldUntil
  past : ∀ g ∈ s.signatures, g.time ≤ s.clock
  single : AtMostOneSignature s

namespace SignerInv

variable {s : SignerSystem}

theorem new (clock : Nat) : SignerInv (.new clock) := by
  constructor <;> simp [SignerSystem.new, AtMostOneSignature]

theorem setPhase (hI : SignerInv s) (id : Nat) (c : SignCall) (phase : SignPhase)
    (h : ∀ r t, phase = .admitted r t → s.Holds c.params t) : SignerInv (s.setPhase id c phase) := by
  refine ⟨?_, hI.live, hI.past, hI.single⟩
  intro id' c' r t hc hp
  simp only [SignerSystem.setPhase, Dict.get_set] at hc
  split at hc
  · obtain rfl := Option.some.inj hc
    exact h r t hp
  · exact hI.pending id' c' r t hc hp

theorem setPhase_inert (hI : SignerInv s) (id : Nat) (c : SignCall) (phase : SignPhase)
    (h : ∀ r t, phase ≠ .admitted r t) : SignerInv (s.setPhase id c phase) :=
  hI.setPhase id c phase fun r t hp => absurd hp (h r t)

/-- Held entries may be added to, not taken away. -/
theorem keep (hI : SignerInv s) {j : SigningJournal}
    (h : ∀ key e, s.journal.get key = some e → s.clock < e.expiresAt → j.get key = some e) :
    SignerInv { s with journal := j } :=
  ⟨fun id c r t hc hp hl => h _ _ (hI.pending id c r t hc hp hl) hl,
    fun g hg hl => h _ _ (hI.live g hg hl) hl, hI.past, hI.single⟩

theorem take (hI : SignerInv s) {p : ReserveParams} (h : s.journal.held s.clock p.key = none) :
    SignerInv { s with journal := s.journal.take s.clock p } :=
  hI.keep fun _ _ hg hl => SigningJournal.get_take h hg hl

theorem grant (hI : SignerInv s) (id : Nat) (c : SignCall) {r : SigningReservation}
    (h : r ≠ .conflict → ∃ t, s.journal.get c.params.key = some ⟨c.params.unsignedTxDigest, t⟩) :
    SignerInv (s.grant id c r) := by
  unfold SignerSystem.grant
  split
  · exact hI.setPhase_inert id c _ (by simp)
  · rename_i hr
    apply hI.setPhase id c
    intro r' t' hp _
    obtain ⟨t, ht⟩ := h hr
    have : t' = t := by
      have hu := (SignPhase.admitted.inj hp).2
      rw [← hu, SignerSystem.heldUntil, ht]
      rfl
    rw [this, ht]

/-- The entry that made the reservation idempotent is there. -/
theorem reread (hI : SignerInv s) (id : Nat) (c : SignCall) :
    SignerInv (s.grant id c (s.journal.reread c.params)) := by
  apply hI.grant
  intro hr
  unfold SigningJournal.reread at hr
  split at hr
  · exact absurd rfl hr
  · rename_i e he
    split at hr
    · rename_i hd
      exact ⟨e.expiresAt, by rw [he, ← hd]⟩
    · exact absurd rfl hr

theorem reserveStep (hI : SignerInv s) (kind : JournalKind) (id : Nat) (c : SignCall) :
    SignerInv (s.reserveStep kind id c) := by
  have htaken : s.journal.held s.clock c.params.key = none →
      SignerInv (SignerSystem.grant { s with journal := s.journal.take s.clock c.params } id c
        .reserved) := by
    intro hfree
    exact (hI.take hfree).grant id c fun _ => ⟨_, Dict.get_set_self _ _ _⟩
  cases kind with
  | memory =>
    unfold SignerSystem.reserveStep SigningJournal.reserve
    dsimp only
    split
    · rename_i e he
      obtain ⟨hg, -⟩ := SigningJournal.held_eq_some.mp he
      apply hI.grant
      intro hr
      split at hr
      · rename_i hd
        exact ⟨e.expiresAt, by rw [hg, ← hd]⟩
      · exact absurd rfl hr
    · rename_i hfree
      exact htaken hfree
  | postgres =>
    unfold SignerSystem.reserveStep SigningJournal.claim
    dsimp only
    by_cases hfree : s.journal.held s.clock c.params.key = none
    · rw [if_pos hfree]
      exact htaken hfree
    · rw [if_neg hfree]
      exact hI.setPhase_inert id c _ (by simp)

/-- A signature under a reservation that holds agrees with every other that still holds. -/
theorem sign (hI : SignerInv s) (id : Nat) (c : SignCall) {t : Nat} (h : s.Holds c.params t) :
    SignerInv { s.setPhase id c .returned with
      signatures := ⟨c.params, s.clock, t⟩ :: s.signatures } := by
  have hI' := hI.setPhase_inert id c .returned (by simp)
  have hpair : ∀ g ∈ s.signatures, g.params.key = c.params.key →
      g.params.unsignedTxDigest ≠ c.params.unsignedTxDigest →
      min g.heldUntil t ≤ max g.time s.clock := by
    intro g hg hk hd
    by_contra hlt
    have hl : s.clock < g.heldUntil ∧ s.clock < t := by omega
    have hgot := hI.live g hg hl.1
    rw [hk, h hl.2] at hgot
    exact hd (congrArg JournalEntry.digest (Option.some.inj hgot)).symm
  refine ⟨hI'.pending, ?_, ?_, ?_⟩
  · intro g hg
    rcases List.mem_cons.mp hg with rfl | hg
    · exact h
    · exact hI.live g hg
  · intro g hg
    rcases List.mem_cons.mp hg with rfl | hg
    · exact le_refl _
    · exact hI.past g hg
  · intro a ha b hb hk hd
    rcases List.mem_cons.mp ha with rfl | ha <;> rcases List.mem_cons.mp hb with rfl | hb
    · exact absurd rfl hd
    · have := hpair b hb hk.symm hd.symm
      dsimp only
      omega
    · exact hpair a ha hk hd
    · exact hI.single a ha b hb hk hd

theorem release (hI : SignerInv s) (id : Nat) (c : SignCall) (hc : s.calls.get id = some c)
    (hsole : SoleHolder s (.call id .release)) :
    SignerInv { s.setPhase id c .returned with journal := s.journal.release c.params } := by
  obtain ⟨hothers, hsigned⟩ := hsole c hc
  have hI' := hI.setPhase_inert id c .returned (by simp)
  -- An entry some call or signature relies on has another digest, or is past its time.
  have hkeep : ∀ p t, s.Holds p t → (p = c.params → t ≤ s.clock) → s.clock < t →
      (s.journal.release c.params).get p.key = some ⟨p.unsignedTxDigest, t⟩ := by
    intro p t hp hpc hl
    apply SigningJournal.get_release (hp hl)
    intro hk hd
    have : p = c.params := by
      cases p
      simp only at hk hd
      rw [hk, hd]
    have := hpc this
    omega
  refine ⟨?_, ?_, hI.past, hI.single⟩
  · intro id' c' r t hc' hp hl
    have hother : c'.params = c.params → t ≤ s.clock := by
      intro hpc
      simp only [SignerSystem.setPhase, Dict.get_set] at hc'
      split at hc'
      · obtain rfl := Option.some.inj hc'
        cases hp
      · have hno := hothers id' c' hc' hpc
        rw [hp] at hno
        simpa [SignPhase.holding] using hno
    exact hkeep _ _ (hI'.pending id' c' r t hc' hp) hother hl
  · intro g hg hl
    exact hkeep _ _ (hI.live g hg) (hsigned g hg) hl

theorem callStep (hI : SignerInv s) {kind : JournalKind} {id : Nat} {c : SignCall}
    (hc : s.calls.get id = some c) {a : CallStep} {s' : SignerSystem}
    (hsole : SoleHolder s (.call id a)) (h : s.callStep kind id c a c.phase = some s') :
    SignerInv s' := by
  cases hp : c.phase <;> cases a <;> rw [hp] at h <;> simp only [SignerSystem.callStep] at h <;>
    cases h
  case requested.refuse => exact hI.setPhase_inert id c _ (by simp)
  case requested.reserve => exact hI.reserveStep kind id c
  case rereading.refuse => exact hI.setPhase_inert id c _ (by simp)
  case rereading.reread => exact hI.reread id c
  case admitted.vaultThrows => exact hI.setPhase_inert id c _ (by simp)
  case admitted.signed r t => exact hI.sign id c (hI.pending id c r t hc hp)
  case admitted.signThrows r t => exact hI.setPhase_inert id c _ (by split <;> simp)
  case releasing.release => exact hI.release id c hc hsole
  case releasing.releaseThrows => exact hI.setPhase_inert id c _ (by simp)

theorem step (hI : SignerInv s) {kind : JournalKind} {a : SignAction} {s' : SignerSystem}
    (hsole : SoleHolder s a) (h : s.step kind a = some s') : SignerInv s' := by
  cases a with
  | sign id params =>
    simp only [SignerSystem.step] at h
    split at h
    · cases h
    · cases h
      exact hI.setPhase_inert id ⟨params, .requested⟩ .requested (by simp)
  | wait ms =>
    cases h
    refine ⟨?_, ?_, ?_, hI.single⟩
    · intro id c r t hc hp hl
      exact hI.pending id c r t hc hp (by dsimp only at hl; omega)
    · intro g hg hl
      exact hI.live g hg (by dsimp only at hl; omega)
    · intro g hg
      have := hI.past g hg
      dsimp only
      omega
  | call id a =>
    simp only [SignerSystem.step, Option.bind_eq_some_iff] at h
    obtain ⟨c, hc, h⟩ := h
    exact hI.callStep hc hsole h

end SignerInv

/-- In a run whose releases take nothing from another call, no outpoint gets two different
signatures while their reservations hold. -/
theorem at_most_one_signature (kind : JournalKind) (clock : Nat) (actions : List SignAction)
    (s : SignerSystem) (hg : Machine.Guarded (SignerSystem.step kind) SoleHolder (.new clock) actions)
    (h : Machine.run (SignerSystem.step kind) (.new clock) actions = some s) :
    AtMostOneSignature s :=
  (Machine.run_invariant (fun _ _ _ hI hok h => SignerInv.step hI hok h) (.new clock) hg h).single

section

/-- A backing outpoint and two transactions that spend it. -/
def sampleRequest (digest : UInt8) : ReserveParams :=
  ⟨⟨.regtest, ⟨List.replicate 32 7, 1⟩⟩, List.replicate 32 digest⟩

/-- The call that made the reservation fails to sign and releases it after another call with
the same digest has signed; the next transaction then gets a reservation of its own. -/
def releaseAfterPeerSigned : List SignAction :=
  [.sign 0 (sampleRequest 1), .sign 1 (sampleRequest 1), .sign 2 (sampleRequest 2),
    .call 0 .reserve, .call 1 .reserve, .call 1 .signed, .call 0 .signThrows, .call 0 .release,
    .call 2 .reserve, .call 2 .signed]

theorem two_signatures_for_one_outpoint :
    ¬ ∀ kind clock actions s, Machine.run (SignerSystem.step kind) (.new clock) actions = some s →
      AtMostOneSignature s := by
  intro h
  have hbad : ((Machine.run (SignerSystem.step .memory) (.new 0) releaseAfterPeerSigned).map
      fun s => decide (AtMostOneSignature s)) = some false := by decide
  obtain ⟨s, hs, hd⟩ := Option.map_eq_some_iff.mp hbad
  exact of_decide_eq_false hd (h _ _ _ s hs)

/-- A lone call releases after its failure, and the next transaction signs. -/
def releaseAlone : List SignAction :=
  [.sign 0 (sampleRequest 1), .call 0 .reserve, .call 0 .signThrows, .call 0 .release,
    .sign 1 (sampleRequest 2), .call 1 .reserve, .call 1 .signed]

theorem at_most_one_signature_alone :
    ∃ s, Machine.run (SignerSystem.step .memory) (.new 0) releaseAlone = some s ∧
      s.signatures.length = 1 ∧ AtMostOneSignature s := by
  have hlen : ((Machine.run (SignerSystem.step .memory) (.new 0) releaseAlone).map
      fun s => s.signatures.length) = some 1 := by decide
  obtain ⟨s, hs, hl⟩ := Option.map_eq_some_iff.mp hlen
  exact ⟨s, hs, hl, at_most_one_signature .memory 0 releaseAlone s (by decide) hs⟩

end

end Cove
