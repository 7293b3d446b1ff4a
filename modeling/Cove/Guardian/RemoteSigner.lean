import Cove.Bitcoin.Witness
import Cove.Guardian.Digest
import Cove.Guardian.DiscoveryBuilt
import Cove.Guardian.GuardianApi

/-! The client of the remote Guardian: `RemoteGuardianTransitionSigner` of
`packages/cove-guardian/src/v3/transitionSigner.ts` over the helpers of `signer.ts`. -/

namespace Cove

open Checked

/-- The client's PSBT, with what the remote signer reads and writes of input 0 besides: the version
of its first leaf and its final witness. -/
structure ClientPsbt where
  psbt : Psbt
  leafVersion : UInt8 := leafVersionTapscript
  finalScriptWitness : Option Bytes := none
  deriving DecidableEq, Repr

namespace ClientPsbt

/-- `tapLeafScript[0]` of input 0. -/
def tapLeaf (p : ClientPsbt) : Option TapLeafScript :=
  p.psbt.inputs[0]?.bind fun input => input.tapLeafScript[0]?

/-- `updateInput(0, { finalScriptWitness })`; a witness that is there is not replaced. -/
def updateInput (p : ClientPsbt) (witness : Bytes) : Except Fault ClientPsbt := do
  ensure (p.psbt.inputs ≠ []) ⟨none, "No input #0"⟩
  ensure (p.finalScriptWitness = none) ⟨none, "Can not add duplicate data to input"⟩
  return { p with finalScriptWitness := some witness }

theorem inputs_ne_nil {p : ClientPsbt} {leaf : TapLeafScript} (h : p.tapLeaf = some leaf) :
    p.psbt.inputs ≠ [] := by
  intro hnil
  rw [tapLeaf, hnil] at h
  cases h

theorem updateInput_eq_ok {p p' : ClientPsbt} {witness : Bytes} :
    p.updateInput witness = .ok p' ↔ p.psbt.inputs ≠ [] ∧ p.finalScriptWitness = none ∧
      p' = { p with finalScriptWitness := some witness } := by
  simp only [updateInput, bind_eq_ok, ensure_eq_ok, pure_eq_ok, exists_const]
  simp [eq_comm]

end ClientPsbt

/-- The third-party calls: the signature hash of `bitcoinjs-lib` for any hash type, its reader of
a base64 PSBT as far as each input's final witness goes, and `verifySchnorr` of
`tiny-secp256k1`. -/
structure SignerLibrary where
  hashForWitnessV1 : Transaction → Nat → List TxOut → UInt8 → Bytes → Except Fault Bytes
  psbtFromBase64 : Bytes → Except Fault (List (Option Bytes))
  verifySchnorr : Bytes → Bytes → Bytes → Except Fault Bool

structure VaultLeafRef where
  script : Bytes
  tapleafHash : Bytes
  deriving DecidableEq, Repr

/-- A signature of 65 bytes names its hash type in the last one. -/
def verifyVaultExecutionSignature (L : SignerLibrary) (psbt : Psbt) (inputIndex : Nat)
    (leaf : VaultLeafRef) (sig xOnly : Bytes) : Except Fault Unit := do
  let (sig64, hashType) :=
    if sig.length = 65 then (sig.take 64, sig.getD 64 0) else (sig, 0x00)
  let prevOuts ← psbt.prevOuts
  let sighash ← L.hashForWitnessV1 (unsignedTransaction psbt) inputIndex prevOuts hashType
    leaf.tapleafHash
  let valid ← L.verifySchnorr sighash xOnly sig64
  ensure (valid = true) ⟨none, "SCHNORR_VERIFY_FAILED: signature failed independent verification"⟩

/-- The policy identity hash at the front of an execution leaf. -/
def policyReveal (script : Bytes) : Bytes := Bytes.slice script 1 32

/-- The PSBT with the witness on its input 0. The signature handed back is the one given. -/
def commitVaultExecutionWitness (p : ClientPsbt) (leaf : VaultLeafRef) (controlBlock sig : Bytes) :
    Except Fault ClientPsbt := do
  let witness ← scriptWitness [sig, policyReveal leaf.script, leaf.script, controlBlock]
  p.updateInput witness

/-- What `sign` returns: a refusal of its own or the service's, or the value of `resultJson`. -/
inductive RemoteOutcome
  | refused (reason detail : String)
  | result (v : JsValue)

def RemoteOutcome.ok : RemoteOutcome → Bool
  | .refused _ _ => false
  | .result v => v.ok

structure RemoteGuardianTransitionSigner where
  transport : GuardianSignRequestWire → TransportAnswer
  expectedProfileHash : Bytes
  expectedGuardianXOnly : Bytes

namespace RemoteGuardianTransitionSigner

/-- `text.includes("timeout")`. -/
def namesTimeout (text : String) : Prop := "timeout".toList <:+: text.toList

instance (text : String) : Decidable (namesTimeout text) :=
  inferInstanceAs (Decidable (_ <:+: _))

section

variable (C : Crypto) (L : SignerLibrary) (s : RemoteGuardianTransitionSigner)

def independentlyVerifySignature (p : ClientPsbt) (sig : Bytes) : Except Fault Unit := do
  ensure (p.psbt.inputs ≠ [])
    ⟨none, "Cannot read properties of undefined (reading 'tapLeafScript')"⟩
  let tapLeaf ← demand p.tapLeaf
    ⟨none, "SIGNATURE_VERIFICATION_FAILED: no tap leaf script on input 0"⟩
  let leaf : VaultLeafRef := ⟨tapLeaf.script, tapleafHash C tapLeaf.script p.leafVersion⟩
  verifyVaultExecutionSignature L p.psbt 0 leaf sig (bufferFromHex s.expectedGuardianXOnly)

/-- The checks a success has to pass; an error is the reason and the detail of the refusal. -/
def verifyResponse (p : ClientPsbt) (response : GuardianSignSuccess) :
    Except (String × String) Unit := do
  ensure (response.profileHash = s.expectedProfileHash)
    ("GUARDIAN_PROFILE_MISMATCH", "service profile hash differs from the committed profile")
  ensure (toLowerCase response.guardianXOnly = toLowerCase s.expectedGuardianXOnly)
    ("GUARDIAN_KEY_MISMATCH", "service Guardian key differs from the committed profile")
  (s.independentlyVerifySignature C L p (bufferFromHex response.sigHex)).mapError
    fun e => ("SIGNATURE_VERIFICATION_FAILED", e.message)

/-- The final witness on input 0 of the PSBT the service sends back. -/
def carriedWitness (response : GuardianSignSuccess) : Except Fault (Option Bytes) := do
  let inputs ← L.psbtFromBase64 response.signedPsbtBase64
  demand inputs[0]? ⟨none, "Cannot read properties of undefined (reading 'finalScriptWitness')"⟩

/-- The end of `sign`, once the response is verified. -/
def applyResponse (p : ClientPsbt) (response : GuardianSignSuccess) :
    ClientPsbt × Except Fault RemoteOutcome :=
  match carriedWitness L response with
  | .error e => (p, .error e)
  | .ok none =>
    (p, .ok (.refused "SIGNATURE_VERIFICATION_FAILED" "service returned no final witness"))
  | .ok (some witness) =>
    match p.updateInput witness with
    | .error e => (p, .error e)
    | .ok p' => (p', (parseBigint response.resultJson).map .result)

/-- The client's PSBT afterwards, beside what `sign` returns or throws. -/
def sign (op : V3Operation) (p : ClientPsbt) : ClientPsbt × Except Fault RemoteOutcome :=
  match signRequest op p.psbt with
  | .error (.fault e) => (p, .error e)
  | .error (.rejected _ detail) => (p, .ok (.refused "BAD_PSBT" detail))
  | .ok wire =>
    match s.transport wire with
    | .rejected name message =>
      let code := if name = "TimeoutError" ∨ namesTimeout message then "GUARDIAN_TIMEOUT"
        else "REMOTE_GUARDIAN_UNAVAILABLE"
      (p, .ok (.refused code message))
    | .failure reason detail => (p, .ok (.refused reason detail))
    | .success response =>
      match s.verifyResponse C L p response with
      | .error (reason, detail) => (p, .ok (.refused reason detail))
      | .ok () => applyResponse L p response

/-- A witness that spends the client's own leaf with a signature the client's own PSBT bears
out. -/
def Verified (p : ClientPsbt) (witness : Bytes) : Prop :=
  ∃ leaf sig, p.tapLeaf = some leaf ∧
    verifyVaultExecutionSignature L p.psbt 0
      ⟨leaf.script, tapleafHash C leaf.script p.leafVersion⟩ sig
      (bufferFromHex s.expectedGuardianXOnly) = .ok () ∧
    parseWitness witness = some [sig, policyReveal leaf.script, leaf.script, leaf.controlBlock]

/-- What is returned as signed carries a verified witness, and a failure leaves the PSBT as it
was. -/
def AppliesVerified (op : V3Operation) (p : ClientPsbt) : Prop :=
  ∀ outcome, (s.sign C L op p).2 = .ok outcome →
    (outcome.ok = true → ∃ witness, (s.sign C L op p).1.finalScriptWitness = some witness ∧
      s.Verified C L p witness) ∧
    (outcome.ok = false → (s.sign C L op p).1 = p)

/-- A response that passes every check, with the witness it carries and its result. -/
structure Admits (op : V3Operation) (p : ClientPsbt) (response : GuardianSignSuccess)
    (witness : Bytes) (result : JsValue) : Prop where
  answer : ∃ wire, signRequest op p.psbt = .ok wire ∧ s.transport wire = .success response
  verified : s.verifyResponse C L p response = .ok ()
  carried : carriedWitness L response = .ok (some witness)
  /-- The client's PSBT has no final witness yet. -/
  fresh : p.finalScriptWitness = none
  parsed : parseBigint response.resultJson = .ok result

end

section

variable {C : Crypto} {L : SignerLibrary} {s : RemoteGuardianTransitionSigner} {op : V3Operation}
  {p p' : ClientPsbt} {response : GuardianSignSuccess} {witness sig : Bytes} {result : JsValue}

theorem independentlyVerifySignature_eq_ok :
    s.independentlyVerifySignature C L p sig = .ok () ↔ ∃ leaf, p.tapLeaf = some leaf ∧
      verifyVaultExecutionSignature L p.psbt 0
        ⟨leaf.script, tapleafHash C leaf.script p.leafVersion⟩ sig
        (bufferFromHex s.expectedGuardianXOnly) = .ok () := by
  simp only [independentlyVerifySignature, bind_eq_ok, ensure_eq_ok, demand_eq_ok]
  constructor
  · intro h
    obtain ⟨_, _, leaf, hleaf, hsig⟩ := h
    exact ⟨leaf, hleaf, hsig⟩
  · intro h
    obtain ⟨leaf, hleaf, hsig⟩ := h
    exact ⟨(), ClientPsbt.inputs_ne_nil hleaf, leaf, hleaf, hsig⟩

theorem verifyResponse_eq_ok : s.verifyResponse C L p response = .ok () ↔
    response.profileHash = s.expectedProfileHash ∧
      toLowerCase response.guardianXOnly = toLowerCase s.expectedGuardianXOnly ∧
      s.independentlyVerifySignature C L p (bufferFromHex response.sigHex) = .ok () := by
  simp [verifyResponse]

/-- A call either leaves the PSBT as it was and refuses or throws, or throws on the result's
text, or returns the result of a response that passed every check. -/
theorem sign_cases (C : Crypto) (L : SignerLibrary) (s : RemoteGuardianTransitionSigner)
    (op : V3Operation) (p : ClientPsbt) :
    (∃ reason detail, s.sign C L op p = (p, .ok (.refused reason detail))) ∨
    (∃ p' e, s.sign C L op p = (p', .error e)) ∨
    ∃ response witness result, s.Admits C L op p response witness result ∧
      s.sign C L op p = ({ p with finalScriptWitness := some witness }, .ok (.result result)) := by
  rw [sign]
  cases hwire : signRequest op p.psbt with
  | error e =>
    cases e with
    | fault e => exact .inr (.inl ⟨p, e, rfl⟩)
    | rejected reason detail => exact .inl ⟨_, detail, rfl⟩
  | ok wire =>
    dsimp only
    cases hanswer : s.transport wire with
    | rejected name message => exact .inl ⟨_, message, rfl⟩
    | failure reason detail => exact .inl ⟨reason, detail, rfl⟩
    | success response =>
      dsimp only
      cases hverified : s.verifyResponse C L p response with
      | error e => exact .inl ⟨e.1, e.2, rfl⟩
      | ok =>
        dsimp only [applyResponse]
        cases hcarried : carriedWitness L response with
        | error e => exact .inr (.inl ⟨p, e, rfl⟩)
        | ok carried =>
          cases carried with
          | none => exact .inl ⟨_, _, rfl⟩
          | some witness =>
            dsimp only
            cases hupdate : p.updateInput witness with
            | error e => exact .inr (.inl ⟨p, e, rfl⟩)
            | ok p' =>
              dsimp only
              obtain ⟨-, hfresh, rfl⟩ := ClientPsbt.updateInput_eq_ok.mp hupdate
              cases hparsed : parseBigint response.resultJson with
              | error e => exact .inr (.inl ⟨_, e, rfl⟩)
              | ok result =>
                exact .inr (.inr ⟨response, witness, result,
                  ⟨⟨wire, hwire, hanswer⟩, hverified, hcarried, hfresh, hparsed⟩, rfl⟩)

/-- Nothing but the checks stands between a response and the PSBT. -/
theorem Admits.sign_eq (h : s.Admits C L op p response witness result) :
    s.sign C L op p = ({ p with finalScriptWitness := some witness }, .ok (.result result)) := by
  obtain ⟨wire, hwire, hanswer⟩ := h.answer
  obtain ⟨-, -, hsig⟩ := verifyResponse_eq_ok.mp h.verified
  obtain ⟨leaf, hleaf, -⟩ := independentlyVerifySignature_eq_ok.mp hsig
  have hupdate : p.updateInput witness = .ok { p with finalScriptWitness := some witness } :=
    ClientPsbt.updateInput_eq_ok.mpr ⟨ClientPsbt.inputs_ne_nil hleaf, h.fresh, rfl⟩
  simp only [sign, hwire, hanswer, h.verified, applyResponse, h.carried, hupdate, h.parsed]
  rfl

/-- With every response that passes the checks carrying a verified witness and a success, so does
the client. -/
theorem AppliesVerified.of_admits (h : ∀ response witness result,
    s.Admits C L op p response witness result → result.ok = true ∧ s.Verified C L p witness) :
    s.AppliesVerified C L op p := by
  intro outcome houtcome
  obtain ⟨reason, detail, heq⟩ | ⟨p', e, heq⟩ | ⟨response, witness, result, hadmits, heq⟩ :=
    sign_cases C L s op p
  · rw [heq] at houtcome ⊢
    obtain rfl := Except.ok.inj houtcome
    exact ⟨by simp [RemoteOutcome.ok], fun _ => rfl⟩
  · rw [heq] at houtcome
    cases houtcome
  · obtain ⟨hok, hverified⟩ := h response witness result hadmits
    rw [heq] at houtcome ⊢
    obtain rfl := Except.ok.inj houtcome
    refine ⟨fun _ => ⟨witness, rfl, hverified⟩, ?_⟩
    intro hfail
    rw [RemoteOutcome.ok, hok] at hfail
    cases hfail

end

/-- The witness of a response is applied as it came: the client ends up with a verified one, and a
failure changes nothing, exactly when no response that passes the checks carries another witness
or another verdict. -/
theorem sign_applies_verified_iff (C : Crypto) (L : SignerLibrary)
    (s : RemoteGuardianTransitionSigner) (op : V3Operation) (p : ClientPsbt) :
    s.AppliesVerified C L op p ↔ ∀ response witness result,
      s.Admits C L op p response witness result → result.ok = true ∧ s.Verified C L p witness := by
  constructor
  · intro h response witness result hadmits
    have heq := hadmits.sign_eq
    have happlied := h (.result result) (by rw [heq])
    rw [heq] at happlied
    have hok : result.ok = true := by
      by_contra hfail
      -- A failure would have had to leave the PSBT without a witness.
      have hsame := happlied.2 (Bool.eq_false_iff.mpr hfail)
      have hwitness := congrArg ClientPsbt.finalScriptWitness hsame
      rw [hadmits.fresh] at hwitness
      cases hwitness
    obtain ⟨applied, happ, hverified⟩ := happlied.1 hok
    obtain rfl := Option.some.inj happ
    exact ⟨hok, hverified⟩
  · intro h
    exact .of_admits h

/-- The service that answers one response to everything. -/
def answering (response : GuardianSignSuccess) : RemoteGuardianTransitionSigner where
  transport _ := .success response
  expectedProfileHash := response.profileHash
  expectedGuardianXOnly := response.guardianXOnly

/-! A backing input whose execution leaf the Guardian signs for a mint. -/

def guardedScript : Bytes :=
  0x20 :: List.replicate 32 9 ++ 0x88 :: 0x20 :: millionKeys.guardianXOnly ++ [0xac]

def guardedMint : ClientPsbt where
  psbt := {
    inputs := [{
      hash := List.replicate 32 1
      index := 1
      witnessUtxo := some ⟨millionFreshScript, 10000⟩
      tapLeafScript := [⟨guardedScript, 0xc1 :: coveNumsXOnly ++ List.replicate 32 8⟩] }]
    txOutputs := [⟨opReturnScript (headerV2 opMint ++ millionId ++ Bytes.ofNatBE 8 100000000000000 ++
      [1]), 0⟩] }

/-- The Guardian's signature of `guardedMint` under the hash that follows it. -/
def guardedSignature : Bytes :=
  Bytes.ofNatBE 32 0x02c59ffd57705cb1cf918d4ddf0ff8dc07dd5e50194293d4f16421de2c4aff73 ++
    Bytes.ofNatBE 32 0xc6b446567cd347100db765c49715f253a9829870e5832f69dc3fea4c6176bec9

def guardedSighash : Bytes :=
  Bytes.ofNatBE 32 0xa201e50cf4d37e04baf7a004e623871a953c2144623f9a93962f183b9173c888

/-- The same transaction with a final witness of no items on its input. -/
def emptyWitnessPsbt : Bytes := Bytes.ascii
  ("cHNidP8BAGsCAAAAAQEBAQEBAQEBAQEBAQEBAQEBAQEBAQEBAQEBAQEBAQEBAQAAAAD/////AQAAAAAAAAAAL2otQ1YC" ++
    "A6urq6urq6urq6urq6urq6urq6urq6urq6urq6urq6urAABa8xB6QAABAAAAAAABCAEAAAA=")

def guardedLibrary : SignerLibrary where
  hashForWitnessV1 tx inIndex prevOuts hashType leafHash := do
    ensure (hashType = 0x00) ⟨none, "unsupported hash type"⟩
    tx.hashForWitnessV1 millionCrypto inIndex prevOuts leafHash
  psbtFromBase64 text := do
    ensure (text = emptyWitnessPsbt) ⟨none, "Invalid Magic Number"⟩
    return [some [0x00]]
  verifySchnorr hash key sig :=
    .ok ((hash, key, sig) = (guardedSighash, millionKeys.guardianXOnly, guardedSignature))

/-- A signature that verifies beside a PSBT that does not carry it. -/
def hollowResponse : GuardianSignSuccess where
  sigHex := guardedSignature.hexText
  signedPsbtBase64 := emptyWitnessPsbt
  profileHash := Bytes.hexText (List.replicate 32 0x11)
  guardianXOnly := millionKeys.guardianXOnly.hexText
  resultJson := (Json.obj [(Bytes.ascii "ok", .bool true)]).stringify

/-- The client applies a witness that holds no signature, and returns it as signed. -/
theorem hollow_witness_applied : ¬ ∀ (C : Crypto) (L : SignerLibrary)
    (s : RemoteGuardianTransitionSigner) (op : V3Operation) (p : ClientPsbt),
    s.AppliesVerified C L op p := by
  intro h
  have hrun : (((answering hollowResponse).sign millionCrypto guardedLibrary .mint
        guardedMint).2.toOption.any RemoteOutcome.ok) = true ∧
      ((answering hollowResponse).sign millionCrypto guardedLibrary .mint
        guardedMint).1.finalScriptWitness = some [0x00] := by
    decide +kernel
  obtain ⟨outcome, houtcome, hok⟩ := (Option.any_eq_true _ _).mp hrun.1
  rw [toOption_eq_some] at houtcome
  obtain ⟨witness, hwitness, leaf, sig, -, -, hparsed⟩ := (h _ _ _ _ _ outcome houtcome).1 hok
  obtain rfl := Option.some.inj (hrun.2.symm.trans hwitness)
  have hempty : parseWitness [0x00] = some [] := by decide
  rw [hempty] at hparsed
  cases hparsed

/-- The answer of `InProcessGuardianTransport` to a request it signed: the client's leaf committed
with a signature, and the signature as extracted from that witness. -/
structure Honest (C : Crypto) (L : SignerLibrary) (p : ClientPsbt)
    (response : GuardianSignSuccess) : Prop where
  committed : ∃ leaf sig signed witness, p.tapLeaf = some leaf ∧
    commitVaultExecutionWitness p ⟨leaf.script, tapleafHash C leaf.script p.leafVersion⟩
      leaf.controlBlock sig = .ok signed ∧
    signed.finalScriptWitness = some witness ∧
    carriedWitness L response = .ok (some witness) ∧
    (extractWitnessSig witness).map Bytes.hexText = .ok response.sigHex
  ok : ∃ result, parseBigint response.resultJson = .ok result ∧ result.ok = true

/-- Over an honest service nothing but what was verified is applied. -/
theorem honest_applies_verified {C : Crypto} {L : SignerLibrary}
    {s : RemoteGuardianTransitionSigner} {op : V3Operation} {p : ClientPsbt}
    (h : ∀ wire response, s.transport wire = .success response → Honest C L p response) :
    s.AppliesVerified C L op p := by
  apply AppliesVerified.of_admits
  intro response witness result hadmits
  obtain ⟨wire, -, hanswer⟩ := hadmits.answer
  obtain ⟨⟨leaf, sig, signed, w, hleaf, hcommit, hw, hcarried, hsig⟩, ⟨v, hv, hok⟩⟩ :=
    h wire response hanswer
  obtain rfl : witness = w := by
    rw [hadmits.carried] at hcarried
    exact Option.some.inj (Except.ok.inj hcarried)
  obtain rfl : result = v := by
    rw [hadmits.parsed] at hv
    exact Except.ok.inj hv
  refine ⟨hok, ?_⟩
  simp only [commitVaultExecutionWitness, bind_eq_ok] at hcommit
  obtain ⟨written, hwritten, hupdate⟩ := hcommit
  obtain ⟨-, -, rfl⟩ := ClientPsbt.updateInput_eq_ok.mp hupdate
  obtain rfl := Option.some.inj hw
  have hhex : response.sigHex = sig.hexText := by
    rw [extractWitnessSig_scriptWitness hwritten] at hsig
    exact (Except.ok.inj hsig).symm
  have hverified := (verifyResponse_eq_ok.mp hadmits.verified).2.2
  rw [hhex, bufferFromHex_hexText] at hverified
  obtain ⟨leaf', hleaf', hsigned⟩ := independentlyVerifySignature_eq_ok.mp hverified
  obtain rfl := Option.some.inj (hleaf.symm.trans hleaf')
  exact ⟨leaf, sig, hleaf, hsigned, parseWitness_scriptWitness hwritten⟩

end RemoteGuardianTransitionSigner

end Cove
