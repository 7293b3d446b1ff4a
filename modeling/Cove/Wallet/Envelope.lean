import Cove.Wallet.Intent
import Cove.Wire.RoundTrip

/-! The envelope the browser checks against the one the indexer reads. -/

namespace Cove

open Checked

section

variable {e : ParsedEnvelopeV2}

/-- What decodes to an envelope behind an `OP_RETURN` is a candidate. -/
theorem candidate_of_decode {script : Bytes} (hop : script.getD 0 0 = 0x6a)
    (hpush : script.length = 2 + (script.getD 1 0).toNat) (h : decodeV2 (script.drop 2) = .ok e) :
    EnvelopeCandidate script := by
  have hlen := length_of_decodeV2 h
  rw [List.length_drop] at hlen
  have hmagic := (decodeV2_header h).2
  refine ⟨by omega, hop, ?_, hpush, ?_⟩
  · rw [UInt8.lt_iff_toNat_lt]
    have hbound : (0x4c : UInt8).toNat = 76 := rfl
    omega
  · simpa [Bytes.slice] using hmagic

/-- The indexer reads an envelope only from a candidate. -/
theorem candidate_of_parseCoveTx {tx : Transaction} (h : parseCoveTx tx = .cove e) :
    ∃ out0, tx.outs[0]? = some out0 ∧ EnvelopeCandidate out0.script := by
  obtain ⟨out0, hget, hop, hpush, hdecode⟩ := parseCoveTx_eq_cove.mp h
  exact ⟨out0, hget, candidate_of_decode hop hpush hdecode⟩

/-- A candidate in front is what both readers decode. -/
theorem parseCoveTx_of_candidate {tx : Transaction} {out0 : TxOut} (hget : tx.outs[0]? = some out0)
    (hcand : EnvelopeCandidate out0.script) (h : coveEnvelope tx.outs = .ok (some e)) :
    parseCoveTx tx = .cove e := by
  obtain ⟨rest, hrest⟩ : ∃ rest, tx.outs = out0 :: rest := by
    cases houts : tx.outs with
    | nil =>
      rw [houts] at hget
      cases hget
    | cons o rest =>
      rw [houts] at hget
      exact ⟨rest, by rw [Option.some.inj hget]⟩
  rw [hrest, coveEnvelope, if_pos hcand] at h
  simp only [bind_eq_ok, mapError_eq_ok, pure_eq_ok, Option.some.injEq] at h
  obtain ⟨_, hdecode, rfl⟩ := h
  obtain ⟨-, hop, -, hpush, -⟩ := hcand
  exact parseCoveTx_eq_cove.mpr ⟨out0, hget, hop, hpush, hdecode⟩

end

/-- Where tokens are said to move, the browser has decoded an envelope. -/
theorem IntentVerified.decoded {C : Crypto} {psbt : Psbt} {intent : ClientIntent}
    (h : IntentVerified C psbt intent) {amount : Int} (hamount : intent.tokenAmountAtoms = some amount)
    (hpos : 0 < amount) : ∃ e, coveEnvelope psbt.txOutputs = .ok (some e) := by
  have henvelope := h.envelope
  simp only [ClientIntent.verifyTokenEnvelope, bind_eq_ok] at henvelope
  obtain ⟨envelope, hdecoded, hcheck⟩ := henvelope
  cases envelope with
  | none =>
    simp only [ensure_eq_ok] at hcheck
    have := hcheck amount hamount
    omega
  | some e => exact ⟨e, hdecoded⟩

/-- The indexer reads the envelope the browser has checked exactly when the transaction has it in
front. -/
theorem client_envelope_iff {C : Crypto} {psbt : Psbt} {intent : ClientIntent} {v : VerifiedIntent}
    {amount : Int} (h : verifyClientIntent C psbt intent = .ok v)
    (hamount : intent.tokenAmountAtoms = some amount) (hpos : 0 < amount) :
    (∃ e, coveEnvelope psbt.txOutputs = .ok (some e) ∧ parseCoveTx psbt.transaction = .cove e) ↔
      ∃ out0, psbt.txOutputs[0]? = some out0 ∧ EnvelopeCandidate out0.script := by
  have hverified := verifyClientIntent_ok_iff.mp ⟨v, h⟩
  obtain ⟨e, he⟩ := hverified.decoded hamount hpos
  constructor
  · intro hreads
    obtain ⟨e', -, hparse⟩ := hreads
    exact candidate_of_parseCoveTx hparse
  · intro hfront
    obtain ⟨out0, hget, hcand⟩ := hfront
    have hout0 : psbt.transaction.outs[0]? = some out0 := hget
    exact ⟨e, he, parseCoveTx_of_candidate hout0 hcand he⟩

/-! Sixty percent of a lot sent to somebody else, with the rest as change. -/

def sampleStranger : Bytes := 0x00 :: 0x14 :: List.replicate 20 0xbb

/-- A transfer's envelope that gives its tokens to an output and to the one after it. -/
def sentEnvelope (vout : Nat) : TxOut where
  script := opReturnScript (Bytes.ofHex "43560202" ++ alphaId ++ [2, UInt8.ofNat vout] ++
    Bytes.ofNatBE 8 60000000000 ++ [UInt8.ofNat (vout + 1)] ++ Bytes.ofNatBE 8 40000000000)
  value := 0

def sentPsbt (outs : List TxOut) : Psbt where
  inputs := [
    { hash := List.replicate 32 1, index := 0, witnessUtxo := some ⟨sampleOwner, 1000⟩ },
    { hash := List.replicate 32 2, index := 0, witnessUtxo := some ⟨sampleOwner, 10000⟩ }]
  txOutputs := outs

def sentIntent (psbt : Psbt) : ClientIntent where
  operation := .transfer
  tokenId := some alphaId
  tokenAmountAtoms := some 60000000000
  grossSats := none
  protocolFeeSats := none
  minerFeeSats := psbt.totalIn - psbt.totalOut
  netSats := none
  walletScript := sampleOwner
  unsignedTxDigest := unsignedTxDigestHex sampleCrypto psbt

def frontPsbt : Psbt :=
  sentPsbt [sentEnvelope 1, ⟨sampleStranger, 1000⟩, ⟨sampleOwner, 1000⟩, ⟨sampleOwner, 8000⟩]

/-- The wallet's change stands before the envelope. -/
def hiddenPsbt : Psbt :=
  sentPsbt [⟨sampleOwner, 8000⟩, sentEnvelope 2, ⟨sampleStranger, 1000⟩, ⟨sampleOwner, 1000⟩]

theorem frontPsbt_verified :
    ∃ v, verifyClientIntent sampleCrypto frontPsbt (sentIntent frontPsbt) = .ok v := by
  rw [verifyClientIntent_ok_iff]
  constructor <;> decide +kernel

theorem hiddenPsbt_verified :
    ∃ v, verifyClientIntent sampleCrypto hiddenPsbt (sentIntent hiddenPsbt) = .ok v := by
  rw [verifyClientIntent_ok_iff]
  constructor <;> decide +kernel

theorem client_envelope_sample : ∃ e, coveEnvelope frontPsbt.txOutputs = .ok (some e) ∧
    parseCoveTx frontPsbt.transaction = .cove e := by
  obtain ⟨v, hv⟩ := frontPsbt_verified
  exact (client_envelope_iff hv rfl (by decide)).mpr ⟨_, rfl, by decide +kernel⟩

/-- The browser has checked an envelope that the indexer does not see. -/
theorem hidden_envelope_verified : ∃ psbt intent v e,
    verifyClientIntent sampleCrypto psbt intent = .ok v ∧
    (∃ amount, intent.tokenAmountAtoms = some amount ∧ 0 < amount) ∧
    coveEnvelope psbt.txOutputs = .ok (some e) ∧ parseCoveTx psbt.transaction = .nonCove := by
  obtain ⟨v, hv⟩ := hiddenPsbt_verified
  refine ⟨hiddenPsbt, sentIntent hiddenPsbt, v,
    .transfer alphaId [⟨2, 60000000000⟩, ⟨3, 40000000000⟩], hv, ⟨_, rfl, by decide⟩, ?_, ?_⟩
  · decide +kernel
  · decide +kernel

end Cove
