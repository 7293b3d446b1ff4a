import Cove.Bitcoin.Transaction
import Cove.Lib.Checked
import Cove.Lib.Delimited
import Cove.Lib.HashChain
import Cove.Lib.Sha256

/-! The Guardian's audit chain: `packages/cove-guardian/src/v3/journal.ts`. -/

namespace Cove

open Checked

def guardianAuditDomain : Bytes := Bytes.ascii "Cove/GuardianAudit/v1"

inductive AuditOperation
  | mint
  | redeem
  deriving DecidableEq, Repr

def AuditOperation.text : AuditOperation → Bytes
  | .mint => Bytes.ascii "MINT"
  | .redeem => Bytes.ascii "REDEEM"

inductive AuditDecision
  | validToSign
  | rejected
  deriving DecidableEq, Repr

def AuditDecision.text : AuditDecision → Bytes
  | .validToSign => Bytes.ascii "VALID_TO_SIGN"
  | .rejected => Bytes.ascii "REJECTED"

structure GuardianAuditDigestFields where
  requestId : Bytes
  operation : AuditOperation
  tokenId : Bytes
  backingTxid : Bytes
  backingVout : Nat
  prevStateHash : Bytes
  nextStateHash : Bytes
  amountAtoms : Int
  grossSats : Int
  protocolFeeSats : Int
  minerFeeSats : Int
  expectedCmr : Bytes
  actualCmr : Bytes
  unsignedTxDigest : Bytes
  decision : AuditDecision
  rejectionReason : Option Bytes
  deriving DecidableEq, Repr

def rangeFault : Fault := ⟨some "ERR_OUT_OF_RANGE", "The value of value is out of range."⟩

/-- `writeBigUInt64BE`. -/
def u64 (n : Int) : Except Fault Bytes := do
  ensure (0 ≤ n ∧ n ≤ 0xffffffffffffffff) rangeFault
  return Bytes.ofNatBE 8 n.toNat

/-- A text behind its length in two bytes. -/
def str (s : Bytes) : Except Fault Bytes := do
  ensure (s.length ≤ 0xffff) rangeFault
  return Bytes.ofNatBE 2 s.length ++ s

/-- The hexadecimal fields stand as their bytes, which is all that `h64` does. -/
def canonicalAuditRecordBytes (f : GuardianAuditDigestFields) : Except Fault Bytes := do
  let requestId ← str f.requestId
  let operation ← str f.operation.text
  let backingVout ← u64 f.backingVout
  let amountAtoms ← u64 f.amountAtoms
  let grossSats ← u64 f.grossSats
  let protocolFeeSats ← u64 f.protocolFeeSats
  let minerFeeSats ← u64 f.minerFeeSats
  let decision ← str f.decision.text
  let rejectionReason ← str (f.rejectionReason.getD [])
  return requestId ++ (operation ++ (f.tokenId ++ (f.backingTxid ++ (backingVout ++
    (f.prevStateHash ++ (f.nextStateHash ++ (amountAtoms ++ (grossSats ++ (protocolFeeSats ++
    (minerFeeSats ++ (f.expectedCmr ++ (f.actualCmr ++ (f.unsignedTxDigest ++
    (decision ++ rejectionReason))))))))))))))

def zeroAuditHash : Bytes := List.replicate 32 0

/-- What is hashed for one link. -/
def guardianAuditMessage (previousAuditHash : Bytes) (fields : GuardianAuditDigestFields) :
    Except Fault Bytes := do
  let canonical ← canonicalAuditRecordBytes fields
  return guardianAuditDomain ++
    ((if previousAuditHash = [] then zeroAuditHash else previousAuditHash) ++ canonical)

/-- H(domain || previousAuditHash || canonicalBytes). -/
def computeGuardianAuditHash (C : Crypto) (previousAuditHash : Bytes)
    (fields : GuardianAuditDigestFields) : Except Fault Bytes := do
  let message ← guardianAuditMessage previousAuditHash fields
  return C.sha256 message

structure AuditLink where
  previousAuditHash : Bytes
  auditHash : Bytes
  fields : GuardianAuditDigestFields
  deriving DecidableEq, Repr

/-- The loop, with what the next link has to chain from. -/
def verifyGuardianAuditLinks (C : Crypto) : Bytes → List AuditLink → Except Fault Bool
  | _, [] => .ok true
  | before, link :: links => do
    let expected ← computeGuardianAuditHash C link.previousAuditHash link.fields
    if expected ≠ link.auditHash then return false
    if link.previousAuditHash ≠ before then return false
    verifyGuardianAuditLinks C link.auditHash links

def verifyGuardianAuditChain (C : Crypto) (head : List AuditLink) : Except Fault Bool :=
  verifyGuardianAuditLinks C zeroAuditHash head

/-- The lengths of the fields in a record the signer writes. -/
structure GuardianAuditDigestFields.Written (f : GuardianAuditDigestFields) : Prop where
  tokenId : f.tokenId.length = 32
  backingTxid : f.backingTxid.length = 32
  prevStateHash : f.prevStateHash.length = 32
  nextStateHash : f.nextStateHash.length = 32
  expectedCmr : f.expectedCmr.length = 32
  actualCmr : f.actualCmr.length = 32
  unsignedTxDigest : f.unsignedTxDigest.length = 32

instance (f : GuardianAuditDigestFields) : Decidable f.Written :=
  decidable_of_iff (f.tokenId.length = 32 ∧ f.backingTxid.length = 32 ∧
      f.prevStateHash.length = 32 ∧ f.nextStateHash.length = 32 ∧ f.expectedCmr.length = 32 ∧
      f.actualCmr.length = 32 ∧ f.unsignedTxDigest.length = 32)
    ⟨fun ⟨h₁, h₂, h₃, h₄, h₅, h₆, h₇⟩ => ⟨h₁, h₂, h₃, h₄, h₅, h₆, h₇⟩,
      fun ⟨h₁, h₂, h₃, h₄, h₅, h₆, h₇⟩ => ⟨h₁, h₂, h₃, h₄, h₅, h₆, h₇⟩⟩

/-- The fields as they are hashed: no reason and an empty one are the same. -/
def GuardianAuditDigestFields.hashed (f : GuardianAuditDigestFields) :
    GuardianAuditDigestFields :=
  { f with rejectionReason := some (f.rejectionReason.getD []) }

def AuditLink.hashed (l : AuditLink) : AuditLink := { l with fields := l.fields.hashed }

/-- The messages hashed along a chain. -/
def hashedMessages (links : List AuditLink) : List Bytes :=
  links.filterMap fun l => (guardianAuditMessage l.previousAuditHash l.fields).toOption

/-- SHA-256 on some messages: digests of 32 bytes, no two messages with one digest, and none
with the digest that stands for no message. -/
structure CollisionFree (C : Crypto) (messages : List Bytes) : Prop where
  width : ∀ m ∈ messages, (C.sha256 m).length = 32
  injective : ∀ m ∈ messages, ∀ m' ∈ messages, C.sha256 m = C.sha256 m' → m = m'
  nonzero : ∀ m ∈ messages, C.sha256 m ≠ zeroAuditHash

/-! The canonical bytes tell every field. -/

theorem u64_eq_ok {n : Int} {b : Bytes} : u64 n = .ok b ↔
    (0 ≤ n ∧ n ≤ 0xffffffffffffffff) ∧ Bytes.ofNatBE 8 n.toNat = b := by
  simp [u64]

theorem str_eq_ok {s b : Bytes} : str s = .ok b ↔
    s.length ≤ 0xffff ∧ Bytes.ofNatBE 2 s.length ++ s = b := by
  simp [str]

theorem delimited_u64 : Delimited (fun n : Int => 0 ≤ n ∧ n ≤ 0xffffffffffffffff)
    (fun n => Bytes.ofNatBE 8 n.toNat) := by
  intro m n hm hn s t he
  have hm' : m.toNat < 256 ^ 8 := by omega
  have hn' : n.toNat < 256 ^ 8 := by omega
  obtain ⟨hmn, hst⟩ := Delimited.natBE 8 hm' hn' he
  exact ⟨by omega, hst⟩

theorem delimited_str : Delimited (fun s : Bytes => s.length ≤ 0xffff)
    (fun s => Bytes.ofNatBE 2 s.length ++ s) := by
  apply Delimited.prefixed (N := fun n => n ≤ 0xffff)
  apply (Delimited.natBE 2).mono
  intro n hn
  omega

theorem AuditOperation.text_injective : Function.Injective AuditOperation.text := by
  intro a b
  cases a <;> cases b <;> decide

theorem AuditDecision.text_injective : Function.Injective AuditDecision.text := by
  intro a b
  cases a <;> cases b <;> decide

theorem canonicalAuditRecordBytes_injective {f g : GuardianAuditDigestFields} {b : Bytes}
    (hf : canonicalAuditRecordBytes f = .ok b) (hg : canonicalAuditRecordBytes g = .ok b)
    (hfw : f.Written) (hgw : g.Written) : f.hashed = g.hashed := by
  simp only [canonicalAuditRecordBytes, bind_eq_ok, pure_eq_ok, u64_eq_ok, str_eq_ok] at hf hg
  obtain ⟨_, ⟨hfRequest, rfl⟩, _, ⟨hfOp, rfl⟩, _, ⟨hfVout, rfl⟩, _, ⟨hfAmount, rfl⟩,
    _, ⟨hfGross, rfl⟩, _, ⟨hfProtocol, rfl⟩, _, ⟨hfMiner, rfl⟩, _, ⟨hfDecision, rfl⟩,
    _, ⟨hfReason, rfl⟩, rfl⟩ := hf
  obtain ⟨_, ⟨hgRequest, rfl⟩, _, ⟨hgOp, rfl⟩, _, ⟨hgVout, rfl⟩, _, ⟨hgAmount, rfl⟩,
    _, ⟨hgGross, rfl⟩, _, ⟨hgProtocol, rfl⟩, _, ⟨hgMiner, rfl⟩, _, ⟨hgDecision, rfl⟩,
    _, ⟨hgReason, rfl⟩, he⟩ := hg
  -- One field after the other, in the order of the bytes.
  obtain ⟨hRequest, he⟩ := delimited_str hgRequest hfRequest he
  obtain ⟨hOp, he⟩ := delimited_str hgOp hfOp he
  obtain ⟨hToken, he⟩ := Delimited.field 32 hgw.tokenId hfw.tokenId he
  obtain ⟨hTxid, he⟩ := Delimited.field 32 hgw.backingTxid hfw.backingTxid he
  obtain ⟨hVout, he⟩ := delimited_u64 hgVout hfVout he
  obtain ⟨hPrev, he⟩ := Delimited.field 32 hgw.prevStateHash hfw.prevStateHash he
  obtain ⟨hNext, he⟩ := Delimited.field 32 hgw.nextStateHash hfw.nextStateHash he
  obtain ⟨hAmount, he⟩ := delimited_u64 hgAmount hfAmount he
  obtain ⟨hGross, he⟩ := delimited_u64 hgGross hfGross he
  obtain ⟨hProtocol, he⟩ := delimited_u64 hgProtocol hfProtocol he
  obtain ⟨hMiner, he⟩ := delimited_u64 hgMiner hfMiner he
  obtain ⟨hExpected, he⟩ := Delimited.field 32 hgw.expectedCmr hfw.expectedCmr he
  obtain ⟨hActual, he⟩ := Delimited.field 32 hgw.actualCmr hfw.actualCmr he
  obtain ⟨hDigest, he⟩ := Delimited.field 32 hgw.unsignedTxDigest hfw.unsignedTxDigest he
  obtain ⟨hDecision, he⟩ := delimited_str hgDecision hfDecision he
  have hReason := delimited_str.inj hgReason hfReason he
  have hOp := AuditOperation.text_injective hOp
  have hDecision := AuditDecision.text_injective hDecision
  have hVout : g.backingVout = f.backingVout := by exact_mod_cast hVout
  simp only [GuardianAuditDigestFields.hashed, hRequest, hOp, hToken, hTxid, hVout, hPrev, hNext,
    hAmount, hGross, hProtocol, hMiner, hExpected, hActual, hDigest, hDecision, hReason]

theorem guardianAuditMessage_injective {p q : Bytes} {f g : GuardianAuditDigestFields} {m : Bytes}
    (hf : guardianAuditMessage p f = .ok m) (hg : guardianAuditMessage q g = .ok m)
    (hp : p.length = 32) (hq : q.length = 32) (hfw : f.Written) (hgw : g.Written) :
    p = q ∧ f.hashed = g.hashed := by
  have hp0 : p ≠ [] := by
    intro h
    simp [h] at hp
  have hq0 : q ≠ [] := by
    intro h
    simp [h] at hq
  simp only [guardianAuditMessage, bind_eq_ok, pure_eq_ok, if_neg hp0] at hf
  simp only [guardianAuditMessage, bind_eq_ok, pure_eq_ok, if_neg hq0] at hg
  obtain ⟨bf, hbf, rfl⟩ := hf
  obtain ⟨bg, hbg, he⟩ := hg
  obtain ⟨hqp, hb⟩ := Delimited.field 32 hq hp (List.append_cancel_left he)
  subst hb
  exact ⟨hqp.symm, canonicalAuditRecordBytes_injective hbf hbg hfw hgw⟩

/-! What verification accepts. -/

theorem computeGuardianAuditHash_eq_ok {C : Crypto} {p h : Bytes} {f : GuardianAuditDigestFields} :
    computeGuardianAuditHash C p f = .ok h ↔
      ∃ m, guardianAuditMessage p f = .ok m ∧ C.sha256 m = h := by
  simp [computeGuardianAuditHash]

/-- An accepted list is a chain, and each of its hashes is that of its message. -/
theorem verifyGuardianAuditLinks_eq_true {C : Crypto} {before : Bytes} {links : List AuditLink} :
    verifyGuardianAuditLinks C before links = .ok true ↔
      HashChain.Chained AuditLink.previousAuditHash AuditLink.auditHash before links ∧
      ∀ l ∈ links, computeGuardianAuditHash C l.previousAuditHash l.fields = .ok l.auditHash := by
  induction links generalizing before with
  | nil => simp [verifyGuardianAuditLinks, HashChain.Chained]
  | cons link links ih =>
    simp only [verifyGuardianAuditLinks, bind_eq_ok, HashChain.Chained, List.mem_cons,
      forall_eq_or_imp]
    constructor
    · rintro ⟨expected, hexpected, h⟩
      split at h
      · simp at h
      rename_i hhash
      split at h
      · simp at h
      rename_i hprev
      obtain ⟨hchain, hrest⟩ := ih.mp h
      rw [not_not] at hhash hprev
      rw [hhash] at hexpected
      exact ⟨⟨hprev, hchain⟩, hexpected, hrest⟩
    · rintro ⟨⟨hprev, hchain⟩, hhash, hrest⟩
      refine ⟨link.auditHash, hhash, ?_⟩
      rw [if_neg (not_not.mpr rfl), if_neg (not_not.mpr hprev)]
      exact ih.mpr ⟨hchain, hrest⟩

theorem mem_hashedMessages {links : List AuditLink} {l : AuditLink} {m : Bytes} (hl : l ∈ links)
    (hm : guardianAuditMessage l.previousAuditHash l.fields = .ok m) :
    m ∈ hashedMessages links := by
  rw [hashedMessages, List.mem_filterMap]
  exact ⟨l, hl, toOption_eq_some.mpr hm⟩

def sampleAuditFields (reason : Option Bytes) : GuardianAuditDigestFields where
  requestId := Bytes.ascii "7f7dd3ec-6a3f-4d70-9ad5-1e1a6f9bd7a0"
  operation := .mint
  tokenId := List.replicate 32 1
  backingTxid := List.replicate 32 2
  backingVout := 1
  prevStateHash := List.replicate 32 3
  nextStateHash := List.replicate 32 4
  amountAtoms := 1000
  grossSats := 2000
  protocolFeeSats := 20
  minerFeeSats := 300
  expectedCmr := List.replicate 32 5
  actualCmr := List.replicate 32 5
  unsignedTxDigest := List.replicate 32 6
  decision := .validToSign
  rejectionReason := reason

/-- The hash functions of the running Guardian; nothing here touches a point. -/
def sha256Crypto : Crypto := ⟨Sha256.sha256, fun _ => true, fun _ _ => none⟩

def sampleAuditHash : Bytes :=
  (computeGuardianAuditHash sha256Crypto zeroAuditHash (sampleAuditFields none)).toOption.getD []

def sampleAuditHash' : Bytes :=
  (computeGuardianAuditHash sha256Crypto sampleAuditHash
    { sampleAuditFields none with operation := .redeem }).toOption.getD []

def sampleAuditChain (reason : Option Bytes) : List AuditLink :=
  [⟨zeroAuditHash, sampleAuditHash, sampleAuditFields reason⟩,
    ⟨sampleAuditHash, sampleAuditHash', { sampleAuditFields reason with operation := .redeem }⟩]

theorem sampleAuditChain_collisionFree : CollisionFree sha256Crypto
    (hashedMessages (sampleAuditChain none) ++ hashedMessages (sampleAuditChain (some []))) where
  width := by decide +kernel
  injective := by decide +kernel
  nonzero := by decide +kernel

end Cove
