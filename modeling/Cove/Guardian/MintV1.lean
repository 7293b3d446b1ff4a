import Cove.Covenant.StateV1
import Cove.Guardian.Psbt
import Cove.Protocol.Ledger
import Cove.Vault.Taproot

/-! The first Guardian: `taproot.ts` of `packages/cove-covenant/src`, and `policy.ts`, `tx.ts` and
`signer.ts` of `packages/cove-guardian/src`. The key signs what `signMintTx` lets through; the
signature itself is another package's. -/

namespace Cove

open Checked

namespace V1

/-! The state's output. -/

def stateDomain : Bytes := Bytes.ascii "Cove/State/v1"

def stateHash (C : Crypto) (state : CoveState) : Except Fault Bytes := do
  let bytes ← serializeState state
  return C.sha256 (stateDomain ++ 0x00 :: bytes)

def stateCommitment (C : Crypto) (state : CoveState) : Except Fault Bytes := do
  let hash ← stateHash C state
  return taggedHash C "CoveState" hash

def stateTweak (C : Crypto) (internalKey : Bytes) (state : CoveState) : Except Fault Bytes := do
  ensure (internalKey.length = 32)
    ⟨none, s!"internalKey must be 32 bytes (x-only), got {internalKey.length}"⟩
  let commitment ← stateCommitment C state
  return tapTweak C internalKey commitment

/-- The output key, of `deriveStateOutput`, behind the two bytes of a Taproot script. -/
def stateOutputScript (C : Crypto) (state : CoveState) (internalKey : Bytes) :
    Except Fault Bytes := do
  ensure (internalKey.length = 32)
    ⟨none, s!"internalKey must be 32 bytes (x-only), got {internalKey.length}"⟩
  let tweak ← stateTweak C internalKey state
  let tweaked ← demand (C.xOnlyPointAddTweak internalKey tweak)
    ⟨none, "State tweak produced the point at infinity (invalid for this internal key + state)."⟩
  return 0x51 :: 0x20 :: tweaked.1

/-! The transaction. -/

/-- The parameters of a `bitcoinjs-lib` network that the Guardian compares. -/
structure Network where
  bech32 : String
  pubKeyHash : UInt8
  scriptHash : UInt8
  deriving DecidableEq, Repr

def Network.bitcoin : Network := ⟨"bc", 0x00, 0x05⟩
def Network.testnet : Network := ⟨"tb", 0x6f, 0xc4⟩
def Network.regtest : Network := ⟨"bcrt", 0x6f, 0xc4⟩

inductive GuardianNetwork
  | mainnet
  | signet
  | regtest
  | testnet
  deriving DecidableEq, Repr

/-- Signet shares the parameters of the testnet. -/
def bitcoinNetworkFor : GuardianNetwork → Network
  | .mainnet => .bitcoin
  | .signet => .testnet
  | .regtest => .regtest
  | .testnet => .testnet

/-- A previous transaction stands for the bytes it parses from. -/
structure PsbtInput where
  hash : Bytes
  index : Nat
  sequence : Nat := 0xffffffff
  witnessUtxo : Option TxOut := none
  nonWitnessUtxo : Option Transaction := none
  deriving DecidableEq, Repr

structure Psbt where
  network : Network
  version : Nat := 2
  inputs : List PsbtInput
  txOutputs : List TxOut
  locktime : Nat := 0
  deriving DecidableEq, Repr

def PsbtInput.outpoint (i : PsbtInput) : OutPoint := ⟨i.hash.reverse, i.index⟩

/-- The unsigned transaction, for the sighash. -/
def unsignedTransaction (psbt : Psbt) : Transaction where
  version := psbt.version
  ins := psbt.inputs.map fun i => { hash := i.hash, index := i.index, sequence := i.sequence }
  outs := psbt.txOutputs
  locktime := psbt.locktime

structure MintIntent where
  prevState : CoveState
  amountAtoms : Int
  recipientCommitment : Bytes
  platformFeeScript : Bytes
  deriving DecidableEq, Repr

structure MintTxAnalysis where
  stateInputIndex : Option Nat
  nextState : CoveState
  curveContributionSats : Int
  platformFeeSats : Int
  minerFeeSats : Int
  buyerInputSats : Int
  buyerChangeSats : Int
  deriving DecidableEq, Repr

def reserveAnchorSats : Int := 10000
def tokenCommitmentSats : Int := 1000
def maxFeeSats : Int := 50000
def primaryMintFeeBps : Int := 100

def inputMissing (message : String) : Fault := ⟨some "INPUT_MISSING", message⟩

def inputScriptAndValue (index : Nat) (input : PsbtInput) : Except Fault TxOut :=
  match input.witnessUtxo with
  | some out => .ok out
  | none => do
    let prevTx ← demand input.nonWitnessUtxo (inputMissing s!"input #{index} has no prevout data")
    demand prevTx.outs[input.index]? (inputMissing s!"input #{index} prevout missing")

/-- The loop of `resolveAllInputs` from an index on. -/
def resolveInputs : Nat → List PsbtInput → Except Fault (List TxOut)
  | _, [] => .ok []
  | i, input :: inputs => do
    let out ← inputScriptAndValue i input
    let outs ← resolveInputs (i + 1) inputs
    return out :: outs

def resolveAllInputs (psbt : Psbt) : Except Fault (List TxOut) := resolveInputs 0 psbt.inputs

def sats (outs : List TxOut) : Int := (outs.map fun o => (o.value : Int)).sum

/-- The inputs that spend the state's script. -/
def stateIndices (stateScript : Bytes) (resolved : List TxOut) : List Nat :=
  (List.range resolved.length).filter fun i => resolved[i]?.any fun r => r.script = stateScript

/-! The policy. -/

/-- How the Guardian says no: with a reason, or by a throw. -/
inductive Rejection
  | refused (reason : String)
  | thrown (fault : Fault)
  deriving DecidableEq, Repr

def thrown {α : Type} (x : Except Fault α) : Except Rejection α := x.mapError .thrown

/-- A Taproot or a witness public key hash script. -/
def isWellFormedCommitment (script : Bytes) : Bool := isP2TR script || isP2WPKH script

def validateStateInvariants (state : CoveState) (mint : Bool) : Except Rejection Unit := do
  ensure (state.version = coveStateVersion) (.refused "INVALID_STATE_VERSION")
  ensure (state.tokenId.length = 32) (.refused "INVALID_TOKEN_ID")
  ensure (state.tokenId ≠ List.replicate 32 0) (.refused "INVALID_TOKEN_ID")
  ensure (0 ≤ state.publicSupplyAtoms ∧ state.publicSupplyAtoms ≤ Cove.publicSupplyAtoms)
    (.refused "SUPPLY_OUT_OF_RANGE")
  ensure (state.publicSupplyAtoms % atomsPerToken = 0) (.refused "SUPPLY_NOT_ATOMIC")
  let impliedStage ← (getStageForSupply (state.publicSupplyAtoms / atomsPerToken)).mapError
    fun _ => Rejection.refused "SUPPLY_OUT_OF_RANGE"
  ensure (state.curveStage = impliedStage) (.refused "CURVE_STAGE_MISMATCH")
  ensure (0 ≤ state.reserveSats) (.refused "RESERVE_NEGATIVE")
  ensure (mint = true → state.phase = .publicMint) (.refused "PHASE_NOT_PUBLIC_MINT")

def u64Check (v : Int) (label : String) : Except Rejection Unit :=
  ensure (0 ≤ v ∧ v ≤ u64Max) (.thrown ⟨some "AMOUNT_OVERFLOW", label ++ " out of u64 range"⟩)

/-- The platform's output, where a fee is due, and the outputs behind it. -/
def platformOutput (platformFeeSats : Int) (platformFeeScript : Bytes) (outs : List TxOut) :
    Except Rejection (List TxOut) := do
  if 0 < platformFeeSats then
    let out ← demand outs.head? (.refused "OUTPUT_LAYOUT_INCOMPLETE")
    ensure (out.script = platformFeeScript ∧ (out.value : Int) = platformFeeSats)
      (.refused "PLATFORM_FEE_MISMATCH")
    return outs.tail
  else return outs

def validateMintTx (C : Crypto) (psbt : Psbt) (internalKey : Bytes) (intent : MintIntent)
    (network : GuardianNetwork) : Except Rejection Unit := do
  ensure (network ≠ .mainnet) (.refused "MAINNET_NOT_ACTIVATED")
  ensure (psbt.network = bitcoinNetworkFor network) (.refused "WRONG_NETWORK")
  validateStateInvariants intent.prevState true
  let canonical ← (applyMint intent.prevState intent.amountAtoms).mapError
    fun _ => Rejection.refused "INVALID_TRANSITION"
  let curveContributionSats := canonical.curveContributionSats
  let platformFeeSats ← thrown (Protocol.computePlatformFee curveContributionSats primaryMintFeeBps)
  ensure (isWellFormedCommitment intent.recipientCommitment = true)
    (.refused "RECIPIENT_MALFORMED")
  ensure (0 < platformFeeSats → isWellFormedCommitment intent.platformFeeScript = true)
    (.refused "PLATFORM_FEE_MALFORMED")
  let stateScript ← thrown (stateOutputScript C intent.prevState internalKey)
  let resolved ← thrown (resolveAllInputs psbt)
  let stateInputIndex ← demand (stateIndices stateScript resolved).head?
    (.refused "STATE_INPUT_NOT_FOUND")
  ensure ((stateIndices stateScript resolved).length ≤ 1) (.refused "MULTIPLE_STATE_INPUTS")
  let prevValue : Int := (resolved.getD stateInputIndex ⟨[], 0⟩).value
  ensure (prevValue = intent.prevState.reserveSats + reserveAnchorSats)
    (.refused "STATE_INPUT_WRONG_VALUE")
  let buyerInputSats := sats (resolved.eraseIdx stateInputIndex)
  ensure (0 < buyerInputSats) (.refused "NO_BUYER_INPUT")
  let successor : TxOut ← demand psbt.txOutputs[0]? (.refused "OUTPUT_LAYOUT_INCOMPLETE")
  let recipient : TxOut ← demand psbt.txOutputs[1]? (.refused "OUTPUT_LAYOUT_INCOMPLETE")
  let successorScript ← thrown (stateOutputScript C canonical.nextState internalKey)
  ensure (successor.script = successorScript) (.refused "SUCCESSOR_SCRIPT_MISMATCH")
  ensure ((successor.value : Int) = prevValue + curveContributionSats)
    (.refused "RESERVE_CONTRIBUTION_MISMATCH")
  ensure (recipient.script = intent.recipientCommitment ∧
      (recipient.value : Int) = tokenCommitmentSats) (.refused "RECIPIENT_OUTPUT_MISMATCH")
  let rest ← platformOutput platformFeeSats intent.platformFeeScript (psbt.txOutputs.drop 2)
  let platValue := if 0 < platformFeeSats then platformFeeSats else 0
  let changeValue : Int := rest.head?.elim 0 fun out => out.value
  ensure (rest.length ≤ 1) (.refused "EXTRA_UNAUTHORIZED_OUTPUT")
  let totalIn := prevValue + buyerInputSats
  let totalOut := successor.value + recipient.value + platValue + changeValue
  let minerFeeSats := totalIn - totalOut
  ensure (0 ≤ minerFeeSats ∧ minerFeeSats ≤ maxFeeSats) (.refused "FEE_OUT_OF_RANGE")
  ensure (changeValue = buyerInputSats - curveContributionSats - tokenCommitmentSats - platValue -
    minerFeeSats) (.refused "CURVE_PAYMENT_MISMATCH")
  u64Check minerFeeSats "minerFeeSats"
  u64Check totalIn "totalIn"
  u64Check totalOut "totalOut"

/-- Reading an output that is not there is a `TypeError`. -/
def outputAt (outs : List TxOut) (i : Nat) : Except Fault TxOut :=
  demand outs[i]? ⟨none, "Cannot read properties of undefined (reading 'value')"⟩

def platformValue (platformFeeSats : Int) (outs : List TxOut) : Except Fault Int := do
  if 0 < platformFeeSats then
    let out ← outputAt outs 2
    return out.value
  else return 0

def computeMintAnalysis (C : Crypto) (psbt : Psbt) (internalKey : Bytes) (intent : MintIntent) :
    Except Fault MintTxAnalysis := do
  let canonical ← applyMint intent.prevState intent.amountAtoms
  let curveContributionSats := canonical.curveContributionSats
  let platformFeeSats ← Protocol.computePlatformFee curveContributionSats primaryMintFeeBps
  let stateScript ← stateOutputScript C intent.prevState internalKey
  let resolved ← resolveAllInputs psbt
  -- Of several the last is kept.
  let stateInputIndex := (stateIndices stateScript resolved).getLast?
  let prevValue : Int := stateInputIndex.elim 0 fun i => (resolved.getD i ⟨[], 0⟩).value
  let buyerInputSats := stateInputIndex.elim (sats resolved) fun i => sats (resolved.eraseIdx i)
  let successor ← outputAt psbt.txOutputs 0
  let recipient ← outputAt psbt.txOutputs 1
  let platValue ← platformValue platformFeeSats psbt.txOutputs
  let rest := psbt.txOutputs.drop (if 0 < platformFeeSats then 3 else 2)
  let changeValue : Int := rest.head?.elim 0 fun out => out.value
  return {
    stateInputIndex
    nextState := canonical.nextState
    curveContributionSats
    platformFeeSats
    minerFeeSats := prevValue + buyerInputSats -
      (successor.value + recipient.value + platValue + changeValue)
    buyerInputSats
    buyerChangeSats := changeValue }

/-- A refusal is thrown on under its reason. -/
def policyRejected : Rejection → Fault
  | .refused reason => ⟨some "POLICY_REJECTED", reason⟩
  | .thrown fault => fault

def analyzeMintTx (C : Crypto) (psbt : Psbt) (internalKey : Bytes) (intent : MintIntent)
    (network : GuardianNetwork) : Except Fault MintTxAnalysis := do
  (validateMintTx C psbt internalKey intent network).mapError policyRejected
  computeMintAnalysis C psbt internalKey intent

/-- What `TaprootGuardianSigner.signMintTx` does before it tweaks its key and signs the input the
analysis names. -/
def signMintTx (C : Crypto) (internalKey : Bytes) (network : GuardianNetwork) (psbt : Psbt)
    (intent : MintIntent) : Except Fault MintTxAnalysis := do
  (validateMintTx C psbt internalKey intent network).mapError policyRejected
  analyzeMintTx C psbt internalKey intent network

/-! What an accepted transaction looks like. -/

section

variable {C : Crypto} {internalKey : Bytes} {network : GuardianNetwork} {psbt : Psbt}
  {intent : MintIntent}

def platformOutputs (platformFeeSats : Int) (platformFeeScript : Bytes) : List TxOut :=
  if 0 < platformFeeSats then [⟨platformFeeScript, platformFeeSats.toNat⟩] else []

theorem sats_append (l l' : List TxOut) : sats (l ++ l') = sats l + sats l' := by
  rw [sats, List.map_append, List.sum_append]
  rfl

theorem sats_cons (out : TxOut) (l : List TxOut) : sats (out :: l) = out.value + sats l := rfl

theorem sats_nonneg (l : List TxOut) : 0 ≤ sats l := by
  induction l with
  | nil => exact le_refl 0
  | cons out l ih =>
    rw [sats_cons]
    omega

theorem sats_platformOutputs (platformFeeSats : Int) (platformFeeScript : Bytes) :
    sats (platformOutputs platformFeeSats platformFeeScript) =
      if 0 < platformFeeSats then platformFeeSats else 0 := by
  unfold platformOutputs
  split
  · simp only [sats, List.map_singleton, List.sum_singleton]
    omega
  · rfl

/-- An input and the others make up all inputs. -/
theorem sats_eraseIdx {l : List TxOut} {i : Nat} (h : i < l.length) :
    ((l.getD i ⟨[], 0⟩).value : Int) + sats (l.eraseIdx i) = sats l := by
  induction l generalizing i with
  | nil => cases h
  | cons out l ih =>
    cases i with
    | zero => rfl
    | succ i =>
      have hrest := ih (Nat.lt_of_succ_lt_succ h)
      rw [List.getD_cons_succ, List.eraseIdx_cons_succ, sats_cons, sats_cons]
      omega

theorem platformOutput_eq_ok {platformFeeSats : Int} {platformFeeScript : Bytes}
    {outs rest : List TxOut} : platformOutput platformFeeSats platformFeeScript outs = .ok rest ↔
      outs = platformOutputs platformFeeSats platformFeeScript ++ rest := by
  unfold platformOutput platformOutputs
  split
  · next hfee =>
    simp only [bind_eq_ok, demand_eq_ok, ensure_eq_ok, pure_eq_ok]
    constructor
    · intro h
      obtain ⟨out, hout, -, hpaid, rfl⟩ := h
      have hvalue : out.value = platformFeeSats.toNat := by omega
      obtain ⟨rest, rfl⟩ := List.head?_eq_some_iff.mp hout
      rw [← hpaid.1, ← hvalue]
      rfl
    · intro h
      subst h
      have hvalue : ((platformFeeSats.toNat : Nat) : Int) = platformFeeSats := by omega
      exact ⟨_, rfl, (), ⟨rfl, hvalue⟩, rfl⟩
  · simp only [pure_eq_ok, List.nil_append]

theorem getD_of_lt {resolved : List TxOut} {i : Nat} (h : i < resolved.length) :
    resolved.getD i ⟨[], 0⟩ = resolved[i] := by
  rw [List.getD_eq_getElem?_getD, List.getElem?_eq_getElem h, Option.getD_some]

theorem mem_stateIndices {stateScript : Bytes} {resolved : List TxOut} {i : Nat} :
    i ∈ stateIndices stateScript resolved ↔
      i < resolved.length ∧ (resolved.getD i ⟨[], 0⟩).script = stateScript := by
  rw [stateIndices, List.mem_filter, List.mem_range]
  apply and_congr_right
  intro h
  rw [getD_of_lt h, List.getElem?_eq_getElem h]
  simp

/-- The canonical layout: the state is spent by one input, and paid on with the curve's price in
output 0; the recipient, the platform where it is due a fee, and at most one change follow. -/
structure Accepted (C : Crypto) (internalKey : Bytes) (psbt : Psbt) (intent : MintIntent)
    (canonical : MintResult) (platformFeeSats : Int) (resolved : List TxOut) (i : Nat)
    (change : List TxOut) : Prop where
  invariants : validateStateInvariants intent.prevState true = .ok ()
  minted : applyMint intent.prevState intent.amountAtoms = .ok canonical
  charged : Protocol.computePlatformFee canonical.curveContributionSats primaryMintFeeBps =
    .ok platformFeeSats
  recipient : isWellFormedCommitment intent.recipientCommitment = true
  platform : 0 < platformFeeSats → isWellFormedCommitment intent.platformFeeScript = true
  resolves : resolveAllInputs psbt = .ok resolved
  spends : ∃ stateScript, stateOutputScript C intent.prevState internalKey = .ok stateScript ∧
    stateIndices stateScript resolved = [i]
  reserve : ((resolved.getD i ⟨[], 0⟩).value : Int) =
    intent.prevState.reserveSats + reserveAnchorSats
  funded : 0 < sats (resolved.eraseIdx i)
  pays : ∃ successor : TxOut,
    stateOutputScript C canonical.nextState internalKey = .ok successor.script ∧
      (successor.value : Int) = canonical.nextState.reserveSats + reserveAnchorSats ∧
      psbt.txOutputs = successor :: ⟨intent.recipientCommitment, tokenCommitmentSats.toNat⟩ ::
        (platformOutputs platformFeeSats intent.platformFeeScript ++ change)
  change_le : change.length ≤ 1
  fee_nonneg : 0 ≤ sats resolved - sats psbt.txOutputs
  fee_le : sats resolved - sats psbt.txOutputs ≤ maxFeeSats
  fits : sats resolved ≤ u64Max

theorem applyMint_reserve {prev : CoveState} {amountAtoms : Int} {r : MintResult}
    (h : applyMint prev amountAtoms = .ok r) :
    r.nextState.reserveSats = prev.reserveSats + r.curveContributionSats := by
  simp only [applyMint, bind_eq_ok, ensure_eq_ok, pure_eq_ok] at h
  obtain ⟨-, -, -, -, -, -, _, -, _, -, rfl⟩ := h
  rfl

theorem applyMint_pos {prev : CoveState} {amountAtoms : Int} {r : MintResult}
    (h : applyMint prev amountAtoms = .ok r) : 1 ≤ r.curveContributionSats := by
  simp only [applyMint, bind_eq_ok, mapError_eq_ok, pure_eq_ok] at h
  obtain ⟨-, -, -, -, -, -, gross, hgross, _, -, rfl⟩ := h
  exact grossBuy_pos hgross

theorem platformFee_nonneg {prev : CoveState} {amountAtoms platformFeeSats : Int} {r : MintResult}
    (h : applyMint prev amountAtoms = .ok r)
    (hcharged : Protocol.computePlatformFee r.curveContributionSats primaryMintFeeBps =
      .ok platformFeeSats) : 0 ≤ platformFeeSats := by
  have hpos := applyMint_pos h
  obtain ⟨fee, hfee, hnonneg⟩ := Protocol.computePlatformFee_ok
    (by omega : 0 ≤ r.curveContributionSats) (by decide : 0 ≤ primaryMintFeeBps)
  rw [hcharged, Except.ok.injEq] at hfee
  rw [hfee]
  exact hnonneg

theorem head_change {change : List TxOut} (h : change.length ≤ 1) :
    (change.head?.elim 0 fun out => (out.value : Int)) = sats change := by
  cases change with
  | nil => rfl
  | cons out rest =>
    have hrest : rest = [] := List.eq_nil_of_length_eq_zero (by simpa using h)
    subst hrest
    simp [sats]

theorem sole_of_head {l : List Nat} {i : Nat} (hi : l.head? = some i) (hsole : l.length ≤ 1) :
    l = [i] := by
  obtain ⟨rest, rfl⟩ := List.head?_eq_some_iff.mp hi
  have hrest : rest = [] := List.eq_nil_of_length_eq_zero (by simpa using hsole)
  rw [hrest]

theorem outputs_of_two {outs : List TxOut} {first second : TxOut} (h0 : outs[0]? = some first)
    (h1 : outs[1]? = some second) : outs = first :: second :: outs.drop 2 := by
  cases outs with
  | nil => cases h0
  | cons a outs =>
    cases outs with
    | nil => cases h1
    | cons b outs =>
      cases h0
      cases h1
      rfl

/-- The Guardian accepts just the transactions of that layout. -/
theorem validateMintTx_eq_ok {u : Unit} :
    validateMintTx C psbt internalKey intent network = .ok u ↔
      network ≠ .mainnet ∧ psbt.network = bitcoinNetworkFor network ∧
        ∃ canonical platformFeeSats resolved i change,
          Accepted C internalKey psbt intent canonical platformFeeSats resolved i change := by
  simp only [validateMintTx, thrown, u64Check, bind_eq_ok, ensure_eq_ok, demand_eq_ok,
    mapError_eq_ok, platformOutput_eq_ok, exists_const]
  constructor
  · intro h
    obtain ⟨hmain, hnet, _, hinv, canonical, hminted, platformFeeSats, hcharged, hrecipient,
      hplatform, stateScript, hscript, resolved, hresolved, i, hi, hsole, hreserve, hfunded,
      successor, hsuccessor, recipient, hout1, successorScript, hnext, hsame, hmoved, hpaid, rest,
      hrest, hextra, hfee, -, -, hfits, -⟩ := h
    have hsole := sole_of_head hi hsole
    have hin := sats_eraseIdx (mem_stateIndices.mp (by rw [hsole]; exact List.mem_singleton_self i)).1
    have hmoved' := applyMint_reserve hminted
    have hvalue : recipient.value = tokenCommitmentSats.toNat := by omega
    have houts := outputs_of_two hsuccessor hout1
    have hcommitted : recipient = ⟨intent.recipientCommitment, tokenCommitmentSats.toNat⟩ := by
      rw [← hpaid.1, ← hvalue]
    have hout : sats psbt.txOutputs = successor.value + (recipient.value +
        ((if 0 < platformFeeSats then platformFeeSats else 0) + sats rest)) := by
      rw [houts, hrest, sats_cons, sats_cons, sats_append, sats_platformOutputs]
    rw [head_change hextra] at hfee
    refine ⟨hmain, hnet, canonical, platformFeeSats, resolved, i, rest, ?_⟩
    exact {
      invariants := hinv
      minted := hminted
      charged := hcharged
      recipient := hrecipient
      platform := hplatform
      resolves := hresolved
      spends := ⟨stateScript, hscript, hsole⟩
      reserve := hreserve
      funded := hfunded
      pays := ⟨successor, by rw [hsame]; exact hnext, by omega, by rw [houts, hrest, hcommitted]⟩
      change_le := hextra
      fee_nonneg := by omega
      fee_le := by omega
      fits := by omega }
  · intro h
    obtain ⟨hmain, hnet, canonical, platformFeeSats, resolved, i, rest, h⟩ := h
    obtain ⟨stateScript, hscript, hsole⟩ := h.spends
    obtain ⟨successor, hnext, hvalue, houts⟩ := h.pays
    have hin := sats_eraseIdx (mem_stateIndices.mp (by rw [hsole]; exact List.mem_singleton_self i)).1
    have hmoved := applyMint_reserve h.minted
    have hreserve := h.reserve
    have hfits := h.fits
    have hnonneg := h.fee_nonneg
    have hle := h.fee_le
    have hpositive := sats_nonneg psbt.txOutputs
    have hcommitment : ((tokenCommitmentSats.toNat : Nat) : Int) = tokenCommitmentSats := rfl
    have hout : sats psbt.txOutputs = successor.value + (tokenCommitmentSats +
        ((if 0 < platformFeeSats then platformFeeSats else 0) + sats rest)) := by
      rw [houts, sats_cons, sats_cons, sats_append, sats_platformOutputs, hcommitment]
    have hmax : maxFeeSats ≤ u64Max := by decide
    refine ⟨hmain, hnet, (), h.invariants, canonical, h.minted, platformFeeSats, h.charged,
      h.recipient, h.platform, stateScript, hscript, resolved, h.resolves, i, ?_⟩
    rw [hsole]
    refine ⟨rfl, le_refl 1, hreserve, h.funded, successor, by rw [houts]; rfl, _,
      by rw [houts]; rfl, successor.script, hnext, rfl, by omega, ⟨rfl, rfl⟩, rest,
      by rw [houts]; rfl, h.change_le, ?_⟩
    rw [head_change h.change_le]
    dsimp only
    omega

/-- What the Guardian reports of an accepted transaction. -/
def analysisOf (psbt : Psbt) (canonical : MintResult) (platformFeeSats : Int)
    (resolved : List TxOut) (i : Nat) (change : List TxOut) : MintTxAnalysis where
  stateInputIndex := some i
  nextState := canonical.nextState
  curveContributionSats := canonical.curveContributionSats
  platformFeeSats
  minerFeeSats := sats resolved - sats psbt.txOutputs
  buyerInputSats := sats (resolved.eraseIdx i)
  buyerChangeSats := sats change

section

variable {canonical : MintResult} {platformFeeSats : Int} {resolved : List TxOut} {i : Nat}
  {change : List TxOut}

theorem Accepted.index_lt
    (h : Accepted C internalKey psbt intent canonical platformFeeSats resolved i change) :
    i < resolved.length := by
  obtain ⟨stateScript, -, hsole⟩ := h.spends
  have hmem : i ∈ stateIndices stateScript resolved := by
    rw [hsole]
    exact List.mem_singleton_self i
  exact (mem_stateIndices.mp hmem).1

theorem Accepted.sats_outputs
    (h : Accepted C internalKey psbt intent canonical platformFeeSats resolved i change) :
    sats psbt.txOutputs = canonical.nextState.reserveSats + reserveAnchorSats +
      tokenCommitmentSats + (if 0 < platformFeeSats then platformFeeSats else 0) + sats change := by
  obtain ⟨successor, -, hvalue, houts⟩ := h.pays
  have hcommitment : ((tokenCommitmentSats.toNat : Nat) : Int) = tokenCommitmentSats := rfl
  rw [houts, sats_cons, sats_cons, sats_append, sats_platformOutputs, hcommitment, hvalue]
  omega

/-- Behind the two first outputs stand the platform's and the change. -/
theorem platform_change (platformFeeSats : Int) (platformFeeScript : Bytes) (first second : TxOut)
    (change : List TxOut) :
    platformValue platformFeeSats (first :: second ::
        (platformOutputs platformFeeSats platformFeeScript ++ change)) =
        .ok (if 0 < platformFeeSats then platformFeeSats else 0) ∧
      (first :: second :: (platformOutputs platformFeeSats platformFeeScript ++ change)).drop
        (if 0 < platformFeeSats then 3 else 2) = change := by
  unfold platformValue platformOutputs
  by_cases hfee : 0 < platformFeeSats
  · have hvalue : max platformFeeSats 0 = platformFeeSats := by omega
    simp [hfee, outputAt, demand, hvalue, bind, Except.bind, pure, Except.pure]
  · simp only [if_neg hfee]
    exact ⟨rfl, rfl⟩

theorem Accepted.analyzed
    (h : Accepted C internalKey psbt intent canonical platformFeeSats resolved i change) :
    computeMintAnalysis C psbt internalKey intent =
      .ok (analysisOf psbt canonical platformFeeSats resolved i change) := by
  obtain ⟨stateScript, hscript, hsole⟩ := h.spends
  obtain ⟨successor, -, hvalue, houts⟩ := h.pays
  have hcommitment : ((tokenCommitmentSats.toNat : Nat) : Int) = tokenCommitmentSats := rfl
  have hin := sats_eraseIdx h.index_lt
  have hout := h.sats_outputs
  have hplatform := platform_change platformFeeSats intent.platformFeeScript successor
    ⟨intent.recipientCommitment, tokenCommitmentSats.toNat⟩ change
  rw [← houts] at hplatform
  simp only [computeMintAnalysis, outputAt, bind_eq_ok, demand_eq_ok, pure_eq_ok]
  refine ⟨canonical, h.minted, platformFeeSats, h.charged, stateScript, hscript, resolved,
    h.resolves, successor, by rw [houts]; rfl, _, by rw [houts]; rfl, _, hplatform.1, ?_⟩
  rw [hplatform.2, hsole, head_change h.change_le, analysisOf, List.getLast?_singleton,
    MintTxAnalysis.mk.injEq]
  refine ⟨rfl, rfl, rfl, rfl, ?_, rfl, rfl⟩
  simp only [Option.elim_some]
  omega

/-- What the Guardian signs. -/
theorem signMintTx_eq_ok {analysis : MintTxAnalysis} :
    signMintTx C internalKey network psbt intent = .ok analysis ↔
      network ≠ .mainnet ∧ psbt.network = bitcoinNetworkFor network ∧
        ∃ canonical platformFeeSats resolved i change,
          Accepted C internalKey psbt intent canonical platformFeeSats resolved i change ∧
            analysisOf psbt canonical platformFeeSats resolved i change = analysis := by
  simp only [signMintTx, analyzeMintTx, bind_eq_ok, mapError_eq_ok, validateMintTx_eq_ok,
    exists_const]
  constructor
  · intro h
    obtain ⟨hall, -, hanalysis⟩ := h
    obtain ⟨hmain, hnet, canonical, platformFeeSats, resolved, i, change, haccepted⟩ := hall
    rw [haccepted.analyzed, Except.ok.injEq] at hanalysis
    exact ⟨hmain, hnet, canonical, platformFeeSats, resolved, i, change, haccepted, hanalysis⟩
  · intro h
    obtain ⟨hmain, hnet, canonical, platformFeeSats, resolved, i, change, haccepted, rfl⟩ := h
    refine ⟨?_, ?_, haccepted.analyzed⟩
    all_goals exact ⟨hmain, hnet, canonical, platformFeeSats, resolved, i, change, haccepted⟩

end

/-! Chains of mints: each spends the state its predecessor left. -/

/-- An unspent output. -/
structure StateUtxo where
  outpoint : OutPoint
  out : TxOut
  deriving DecidableEq, Repr

/-- A transaction the Guardian was asked to sign, under the id it went out with. -/
structure SignedMint where
  txid : Bytes
  psbt : Psbt
  intent : MintIntent
  analysis : MintTxAnalysis
  deriving DecidableEq, Repr

def SignedMint.successor (m : SignedMint) : StateUtxo :=
  ⟨⟨m.txid, 0⟩, m.psbt.txOutputs.getD 0 ⟨[], 0⟩⟩

/-- The signed input spends the output. The signature commits to the script and the value the PSBT
gives for it, so the network takes it only where these are the output's own. -/
structure SignedMint.Spends (m : SignedMint) (u : StateUtxo) : Prop where
  outpoint : (m.analysis.stateInputIndex.bind fun i => m.psbt.inputs[i]?).map PsbtInput.outpoint =
    some u.outpoint
  out : ∃ resolved, resolveAllInputs m.psbt = .ok resolved ∧
    (m.analysis.stateInputIndex.bind fun i => resolved[i]?) = some u.out

/-- From one unspent output on, each state signed away and spent by the next transaction. -/
inductive MintChain (C : Crypto) (internalKey : Bytes) (network : GuardianNetwork)
    (u : StateUtxo) : List SignedMint → StateUtxo → Prop
  | start : MintChain C internalKey network u [] u
  | mint {ms : List SignedMint} {v : StateUtxo} {m : SignedMint}
      (before : MintChain C internalKey network u ms v)
      (signed : signMintTx C internalKey network m.psbt m.intent = .ok m.analysis)
      (spends : m.Spends v) : MintChain C internalKey network u (ms ++ [m]) m.successor

/-- The states that the chain commits to or claims to spend. -/
def committedStates (s₀ : CoveState) (ms : List SignedMint) : List CoveState :=
  s₀ :: ms.flatMap fun m => [m.intent.prevState, m.analysis.nextState]

/-- Distinct states have distinct outputs. -/
def DistinctOutputs (C : Crypto) (internalKey : Bytes) (states : List CoveState) : Prop :=
  ∀ s ∈ states, ∀ s' ∈ states, ∀ script, stateOutputScript C s internalKey = .ok script →
    stateOutputScript C s' internalKey = .ok script → s = s'

/-- What the buyers of one mint pay for: the tokens, their carrier, the platform, the miner. -/
def MintTxAnalysis.bill (a : MintTxAnalysis) : Int :=
  a.curveContributionSats + tokenCommitmentSats + a.platformFeeSats + a.minerFeeSats

/-- Where a chain of mints from a state stands: the unspent output commits to a state of the same
token, holds its reserve and the anchor, and the reserve has grown by the price of what was sold. -/
structure Backed (C : Crypto) (internalKey : Bytes) (s₀ : CoveState) (before : Int)
    (ms : List SignedMint) (v : StateUtxo) (s : CoveState) : Prop where
  committed : stateOutputScript C s internalKey = .ok v.out.script
  held : (v.out.value : Int) = s.reserveSats + reserveAnchorSats
  tokenId : s.tokenId = s₀.tokenId
  issued : s.publicSupplyAtoms =
    s₀.publicSupplyAtoms + (ms.map fun m => m.intent.amountAtoms).sum
  priced : ∃ after, requiredBackingSats (s.publicSupplyAtoms / atomsPerToken) = .ok after ∧
    s.reserveSats - s₀.reserveSats = after - before
  billed : ∀ m ∈ ms, m.analysis.buyerInputSats - m.analysis.buyerChangeSats = m.analysis.bill ∧
    0 ≤ m.analysis.minerFeeSats ∧ m.analysis.minerFeeSats ≤ maxFeeSats

theorem applyMint_priced {prev : CoveState} {amountAtoms before : Int} {r : MintResult}
    (h : applyMint prev amountAtoms = .ok r)
    (hbefore : requiredBackingSats (prev.publicSupplyAtoms / atomsPerToken) = .ok before) :
    r.nextState.tokenId = prev.tokenId ∧
      r.nextState.publicSupplyAtoms = prev.publicSupplyAtoms + amountAtoms ∧
      requiredBackingSats (r.nextState.publicSupplyAtoms / atomsPerToken) =
        .ok (before + r.curveContributionSats) := by
  simp only [applyMint, bind_eq_ok, ensure_eq_ok, mapError_eq_ok, pure_eq_ok] at h
  obtain ⟨-, -, -, hwhole, -, -, gross, hgross, stage, -, rfl⟩ := h
  simp only [grossBuy, bind_eq_ok, ensure_eq_ok, pure_eq_ok] at hgross
  obtain ⟨-, -, -, -, -, -, after, hafter, before', hbefore', -, -, rfl⟩ := hgross
  rw [hbefore, Except.ok.injEq] at hbefore'
  subst hbefore'
  have hdiv : (prev.publicSupplyAtoms + amountAtoms) / atomsPerToken =
      prev.publicSupplyAtoms / atomsPerToken + amountAtoms / atomsPerToken := by
    unfold atomsPerToken at *
    omega
  refine ⟨rfl, rfl, ?_⟩
  dsimp only
  rw [hdiv, hafter]
  congr 1
  omega

/-- The Guardian signs on from the state that the spent output commits to. -/
theorem Backed.mint {s₀ s : CoveState} {before : Int} {ms : List SignedMint} {v : StateUtxo}
    {m : SignedMint} (h : Backed C internalKey s₀ before ms v s)
    (hsigned : signMintTx C internalKey network m.psbt m.intent = .ok m.analysis)
    (hspends : m.Spends v) (hdistinct : DistinctOutputs C internalKey [s, m.intent.prevState]) :
    Backed C internalKey s₀ before (ms ++ [m]) m.successor m.analysis.nextState := by
  obtain ⟨-, -, canonical, platformFeeSats, resolved, i, change, haccepted, hanalysis⟩ :=
    signMintTx_eq_ok.mp hsigned
  obtain ⟨stateScript, hscript, hsole⟩ := haccepted.spends
  have hindex : i ∈ stateIndices stateScript resolved := by
    rw [hsole]
    exact List.mem_singleton_self i
  -- The output spent is the one whose script gave the input away.
  have hout : resolved.getD i ⟨[], 0⟩ = v.out := by
    obtain ⟨resolved', hresolves, hspent⟩ := hspends.out
    rw [haccepted.resolves, Except.ok.injEq] at hresolves
    subst hresolves
    rw [← hanalysis] at hspent
    have hat : resolved[i]? = some v.out := hspent
    rw [List.getD_eq_getElem?_getD, hat, Option.getD_some]
  have hsame : s = m.intent.prevState := by
    refine hdistinct s (by simp) m.intent.prevState (by simp) v.out.script h.committed ?_
    rw [← hout, (mem_stateIndices.mp hindex).2]
    exact hscript
  obtain ⟨successor, hnext, hvalue, houts⟩ := haccepted.pays
  obtain ⟨before', hbefore', hreserve⟩ := h.priced
  rw [hsame] at hbefore' hreserve
  obtain ⟨htoken, hsupply, hafter⟩ := applyMint_priced haccepted.minted hbefore'
  have hmoved := applyMint_reserve haccepted.minted
  have hsuccessor : m.successor.out = successor := by
    rw [SignedMint.successor, houts]
    rfl
  have hissued := h.issued
  rw [hsame] at hissued
  rw [← hanalysis]
  refine {
    committed := by rw [hsuccessor]; exact hnext
    held := by rw [hsuccessor]; exact hvalue
    tokenId := htoken.trans (by rw [← hsame]; exact h.tokenId)
    issued := ?_
    priced := ⟨_, hafter, ?_⟩
    billed := ?_ }
  · rw [List.map_append, List.sum_append, List.map_singleton, List.sum_singleton]
    exact hsupply.trans (by omega)
  · have hnow : (analysisOf m.psbt canonical platformFeeSats resolved i change).nextState =
        canonical.nextState := rfl
    rw [hnow]
    omega
  · intro m' hm'
    rcases List.mem_append.mp hm' with hold | hnew
    · exact h.billed m' hold
    · rw [List.mem_singleton.mp hnew, ← hanalysis]
      have hin := sats_eraseIdx haccepted.index_lt
      have hreserved := haccepted.reserve
      have houtputs := haccepted.sats_outputs
      have hfee := platformFee_nonneg haccepted.minted haccepted.charged
      refine ⟨?_, haccepted.fee_nonneg, haccepted.fee_le⟩
      simp only [MintTxAnalysis.bill, analysisOf]
      split at houtputs <;> omega

/-- However many mints the Guardian signs, whoever asks for them and whatever states they claim,
the unspent state output holds the reserve its state names, grown by the price of all that was
sold, and the anchor; and every mint's buyers paid just its bill. -/
theorem mint_chain_backed {s₀ : CoveState} {u v : StateUtxo} {ms : List SignedMint} {before : Int}
    (hcommitted : stateOutputScript C s₀ internalKey = .ok u.out.script)
    (hheld : (u.out.value : Int) = s₀.reserveSats + reserveAnchorSats)
    (hbefore : requiredBackingSats (s₀.publicSupplyAtoms / atomsPerToken) = .ok before)
    (hchain : MintChain C internalKey network u ms v)
    (hdistinct : DistinctOutputs C internalKey (committedStates s₀ ms)) :
    ∃ s ∈ committedStates s₀ ms, Backed C internalKey s₀ before ms v s := by
  induction hchain with
  | start =>
    refine ⟨s₀, List.mem_cons_self, hcommitted, hheld, rfl, ?_, ⟨before, hbefore, ?_⟩, ?_⟩
    · rw [List.map_nil, List.sum_nil, add_zero]
    · rw [sub_self, sub_self]
    · exact fun m hm => absurd hm List.not_mem_nil
  | @mint ms v m before signed spends ih =>
    have hmore : ∀ s ∈ committedStates s₀ ms, s ∈ committedStates s₀ (ms ++ [m]) := by
      intro s hs
      simp only [committedStates, List.flatMap_append, List.mem_cons, List.mem_append] at hs ⊢
      tauto
    obtain ⟨s, hs, hbacked⟩ := ih fun a ha b hb => hdistinct a (hmore a ha) b (hmore b hb)
    refine ⟨m.analysis.nextState, ?_, hbacked.mint signed spends ?_⟩
    · simp [committedStates]
    · have hmem : ∀ a ∈ [s, m.intent.prevState], a ∈ committedStates s₀ (ms ++ [m]) := by
        intro a ha
        rcases List.mem_cons.mp ha with rfl | ha
        · exact hmore a hs
        · rw [List.mem_singleton.mp ha]
          simp [committedStates]
      exact fun a ha b hb => hdistinct a (hmem a ha) b (hmem b hb)

end

end V1

end Cove
