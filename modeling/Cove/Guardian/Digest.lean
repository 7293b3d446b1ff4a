import Cove.Bitcoin.Digest
import Cove.Guardian.Accept

/-! The Guardian's digest and signature hash: `unsignedTxDigest` of
`packages/cove-guardian/src/v3/resolve.ts` and `computeVaultExecutionSighash` of `signer.ts`. -/

namespace Cove

open Checked

/-- The unsigned transaction the PSBT holds. -/
def Psbt.transaction (psbt : Psbt) : Transaction where
  version := psbt.version
  ins := psbt.inputs.map fun i => { hash := i.hash, index := i.index, sequence := i.sequence }
  outs := psbt.txOutputs
  locktime := psbt.locktime

/-- `unsignedTxDigest`: the txid of the rebuilt transaction. -/
def unsignedTxDigest (C : Crypto) (psbt : Psbt) : Bytes := (unsignedTransaction psbt).getId C

/-- The prevouts named for the inputs; one without is read as `undefined`. -/
def Psbt.prevOuts (psbt : Psbt) : Except Fault (List TxOut) :=
  psbt.inputs.mapM fun i =>
    demand i.witnessUtxo ⟨none, "Cannot read properties of undefined (reading 'script')"⟩

/-- The signature hash of a leaf for a transaction over the PSBT's prevouts. -/
def Psbt.executionSighash (C : Crypto) (psbt : Psbt) (tx : Transaction) (inputIndex : Nat)
    (tapleafHash : Bytes) : Except Fault Bytes := do
  let prevOuts ← psbt.prevOuts
  tx.hashForWitnessV1 C inputIndex prevOuts tapleafHash

def computeVaultExecutionSighash (C : Crypto) (psbt : Psbt) (inputIndex : Nat)
    (tapleafHash : Bytes) : Except Fault Bytes :=
  psbt.executionSighash C (unsignedTransaction psbt) inputIndex tapleafHash

/-- The digest is the txid of the PSBT's own transaction, and the signature hash is that of every
transaction signing makes of it. -/
structure Psbt.DigestedFaithfully (C : Crypto) (psbt : Psbt) : Prop where
  digest : unsignedTxDigest C psbt = psbt.transaction.getId C
  sighash : ∀ tx, tx.unsigned = psbt.transaction → ∀ inputIndex tapleafHash,
    computeVaultExecutionSighash C psbt inputIndex tapleafHash =
      psbt.executionSighash C tx inputIndex tapleafHash

/-- The fields the Guardian does not carry over have the values it puts there. -/
def Psbt.Plain (psbt : Psbt) : Prop := psbt.version = 2 ∧ psbt.locktime = 0

instance (psbt : Psbt) : Decidable psbt.Plain := inferInstanceAs (Decidable (_ ∧ _))

/-- The txids of some transactions tell their serializations. -/
def TxidCollisionFree (C : Crypto) (txs : List Transaction) : Prop :=
  ∀ a ∈ txs, ∀ b ∈ txs, a.getId C = b.getId C → a.toBuffer = b.toBuffer

instance (C : Crypto) (txs : List Transaction) : Decidable (TxidCollisionFree C txs) :=
  inferInstanceAs (Decidable (∀ a ∈ txs, ∀ b ∈ txs, _ → _))

theorem Psbt.Plain.unsignedTransaction_eq {psbt : Psbt} (h : psbt.Plain) :
    unsignedTransaction psbt = psbt.transaction := by
  rw [unsignedTransaction, Psbt.transaction, h.1, h.2]

theorem unsignedTransaction_sized {psbt : Psbt} (h : psbt.transaction.Sized) :
    (unsignedTransaction psbt).Sized :=
  ⟨Nat.lt_of_sub_eq_succ rfl, h.insLength, h.ins, h.outsLength, h.outs, Nat.two_pow_pos 32⟩

theorem Psbt.transaction_witness (psbt : Psbt) : ∀ i ∈ psbt.transaction.ins, i.witness = [] := by
  simp [Psbt.transaction]

theorem unsignedTransaction_witness (psbt : Psbt) :
    ∀ i ∈ (unsignedTransaction psbt).ins, i.witness = [] := by
  simp [unsignedTransaction]

section

variable (params : ValidateParams) (version locktime : Nat)

theorem checkFundingInputs_of_fields (indices : List Nat) :
    checkFundingInputs { params with psbt := { params.psbt with version, locktime } } indices =
      checkFundingInputs params indices := by
  induction indices with
  | nil => rfl
  | cons i indices ih =>
    simp only [checkFundingInputs, ih]

/-- No validation looks at the version or the locktime. -/
theorem validateMint_of_fields (C : Crypto) (X : SimplicityExecutor) :
    validateMintTransitionV3 C X { params with psbt := { params.psbt with version, locktime } } =
      validateMintTransitionV3 C X params := by
  simp only [validateMintTransitionV3, checkFundingInputs_of_fields]
  rfl

theorem validateRedeem_of_fields (C : Crypto) (X : SimplicityExecutor) :
    validateRedeemTransitionV3 C X { params with psbt := { params.psbt with version, locktime } } =
      validateRedeemTransitionV3 C X params := by
  simp only [validateRedeemTransitionV3, checkFundingInputs_of_fields]
  rfl

end

section

variable {C : Crypto} {p q : Psbt}

theorem Psbt.Plain.digestedFaithfully (h : p.Plain) : p.DigestedFaithfully C := by
  have heq := h.unsignedTransaction_eq
  refine ⟨by rw [unsignedTxDigest, heq], ?_⟩
  intro tx htx inputIndex tapleafHash
  have hsighash : ∀ prevOuts, (unsignedTransaction p).hashForWitnessV1 C inputIndex prevOuts
      tapleafHash = tx.hashForWitnessV1 C inputIndex prevOuts tapleafHash := by
    intro prevOuts
    rw [heq, ← htx, Transaction.hashForWitnessV1_unsigned]
  rw [computeVaultExecutionSighash, Psbt.executionSighash, Psbt.executionSighash]
  simp only [hsighash]

theorem eq_of_getId {txs : List Transaction} {a b : Transaction} (hC : TxidCollisionFree C txs)
    (ha : a ∈ txs) (hb : b ∈ txs) (has : a.Sized) (hbs : b.Sized)
    (haw : ∀ i ∈ a.ins, i.witness = []) (hbw : ∀ i ∈ b.ins, i.witness = [])
    (h : a.getId C = b.getId C) : a = b :=
  Transaction.toBuffer_injective has hbs haw hbw (hC a ha b hb h)

/-- A faithful digest means that nothing was lost. -/
theorem Psbt.DigestedFaithfully.plain (hp : p.transaction.Sized)
    (hC : TxidCollisionFree C [unsignedTransaction p, p.transaction])
    (h : p.DigestedFaithfully C) : p.Plain := by
  have heq : unsignedTransaction p = p.transaction :=
    eq_of_getId hC (by simp) (by simp) (unsignedTransaction_sized hp) hp
      (unsignedTransaction_witness p) p.transaction_witness h.digest
  have hversion := congrArg Transaction.version heq
  have hlocktime := congrArg Transaction.locktime heq
  exact ⟨hversion.symm, hlocktime.symm⟩

/-- Digest and signature hash are faithful for two PSBTs, and a common digest means a common
transaction, exactly when both are of version 2 and without a locktime. -/
theorem guardian_digest_faithful_iff (hp : p.transaction.Sized) (hq : q.transaction.Sized)
    (hC : TxidCollisionFree C
      [unsignedTransaction p, p.transaction, unsignedTransaction q, q.transaction]) :
    (p.DigestedFaithfully C ∧ q.DigestedFaithfully C ∧
      (unsignedTxDigest C p = unsignedTxDigest C q → p.transaction = q.transaction)) ↔
      p.Plain ∧ q.Plain := by
  constructor
  · rintro ⟨hpf, hqf, -⟩
    have hCp : TxidCollisionFree C [unsignedTransaction p, p.transaction] := by
      intro a ha b hb
      simp only [List.mem_cons, List.not_mem_nil, or_false] at ha hb
      exact hC a (by simp; tauto) b (by simp; tauto)
    have hCq : TxidCollisionFree C [unsignedTransaction q, q.transaction] := by
      intro a ha b hb
      simp only [List.mem_cons, List.not_mem_nil, or_false] at ha hb
      exact hC a (by simp; tauto) b (by simp; tauto)
    exact ⟨hpf.plain hp hCp, hqf.plain hq hCq⟩
  · rintro ⟨hpp, hqp⟩
    refine ⟨hpp.digestedFaithfully, hqp.digestedFaithfully, ?_⟩
    intro hdigest
    rw [unsignedTxDigest, unsignedTxDigest, hpp.unsignedTransaction_eq,
      hqp.unsignedTransaction_eq] at hdigest
    exact eq_of_getId hC (by simp) (by simp) hp hq p.transaction_witness q.transaction_witness
      hdigest

end

/-- Both validators' acceptances, under any parameters. -/
def Psbt.Accepted (C : Crypto) (X : SimplicityExecutor) (psbt : Psbt) : Prop :=
  ∃ params : ValidateParams, params.psbt = psbt ∧
    ((∃ v, validateMintTransitionV3 C X params = .ok v) ∨
      ∃ v, validateRedeemTransitionV3 C X params = .ok v)

theorem guardian_digest_faithful_sample :
    sampleMintPsbt.DigestedFaithfully sampleCrypto ∧
    (sampleRedeemPsbt [sampleChange]).DigestedFaithfully sampleCrypto ∧
    (unsignedTxDigest sampleCrypto sampleMintPsbt =
        unsignedTxDigest sampleCrypto (sampleRedeemPsbt [sampleChange]) →
      sampleMintPsbt.transaction = (sampleRedeemPsbt [sampleChange]).transaction) :=
  (guardian_digest_faithful_iff (by decide +kernel) (by decide +kernel) (by decide +kernel)).mpr
    ⟨by decide, by decide⟩

/-- The sample mint with a locktime is accepted too, under the digest of the one without. -/
theorem locktime_digest_lost : ∃ p q : Psbt,
    p.Accepted sampleCrypto passingExecutor ∧ q.Accepted sampleCrypto passingExecutor ∧
    unsignedTxDigest sampleCrypto p = unsignedTxDigest sampleCrypto q ∧
    p.transaction ≠ q.transaction ∧
    unsignedTxDigest sampleCrypto q ≠ q.transaction.getId sampleCrypto := by
  obtain ⟨σ, -, v, -, hv⟩ := sampleMint_validates
  refine ⟨sampleMintPsbt, { sampleMintPsbt with locktime := 800000 },
    ⟨sampleMintParams σ.toLedger, rfl, .inl ⟨v, hv⟩⟩, ⟨{ sampleMintParams σ.toLedger with
      psbt := { sampleMintPsbt with locktime := 800000 } }, rfl, .inl ⟨v, ?_⟩⟩, rfl, ?_, ?_⟩
  · exact (validateMint_of_fields (sampleMintParams σ.toLedger) 2 800000 _ _).trans hv
  · intro h
    exact absurd (congrArg Transaction.locktime h) (by decide)
  · decide +kernel

end Cove
