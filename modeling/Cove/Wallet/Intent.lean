import Cove.Guardian.Digest

/-! The browser's check of a PSBT against the intent the user reads:
`packages/wallets/src/cove-intent.ts`. Hex texts are the bytes they spell in lower case, and
`BigInt` texts the numbers they spell; a text that spells none is refused where it is read. -/

namespace Cove

open Checked

inductive IntentOperation
  | backingBuy
  | p2pBuy
  | redeem
  | transfer
  | p2pSell
  | other (name : String)
  deriving DecidableEq, Repr

def IntentOperation.text : IntentOperation → String
  | backingBuy => "BACKING_BUY"
  | p2pBuy => "P2P_BUY"
  | redeem => "REDEEM"
  | transfer => "TRANSFER"
  | p2pSell => "P2P_SELL"
  | other name => name

inductive TokenDirection
  | inward
  | outward
  deriving DecidableEq, Repr

/-- `TOKEN_DIRECTION`: which way tokens move for the signing wallet. -/
def IntentOperation.tokenDirection : IntentOperation → Option TokenDirection
  | backingBuy => some .inward
  | p2pBuy => some .inward
  | redeem => some .outward
  | transfer => some .outward
  | p2pSell => some .outward
  | other _ => none

structure ClientIntent where
  operation : IntentOperation
  tokenId : Option Bytes
  tokenAmountAtoms : Option Int
  grossSats : Option Int
  protocolFeeSats : Option Int
  creatorFeeSats : Option Int := none
  creatorScript : Option Bytes := none
  minerFeeSats : Int
  netSats : Option Int
  walletScript : Bytes
  ordinalsScript : Option Bytes := none
  unsignedTxDigest : Bytes
  walletDeltaSats : Option Int := none
  tokenDirection : Option TokenDirection := none
  deriving DecidableEq, Repr

def unsignedTxDigestHex (C : Crypto) (psbt : Psbt) : Bytes := C.sha256 psbt.transaction.toBuffer

structure VerifiedIntent where
  digest : Bytes
  inputCount : Nat
  outputCount : Nat
  totalInputSats : Int
  totalOutputSats : Int
  walletDeltaSats : Int
  deriving DecidableEq, Repr

def mismatch (detail : String) : Fault := ⟨none, "CLIENT_INTENT_MISMATCH: " ++ detail⟩

/-! The Cove `OP_RETURN`. -/

/-- A direct push below `0x4c` that starts with the Cove magic. -/
def EnvelopeCandidate (script : Bytes) : Prop :=
  6 ≤ script.length ∧ script.getD 0 0 = 0x6a ∧ script.getD 1 0 < 0x4c ∧
    script.length = 2 + (script.getD 1 0).toNat ∧ (script.slice 2 2).toNatBE = coveWireMagic

instance : DecidablePred EnvelopeCandidate := fun _ => inferInstanceAs (Decidable (_ ∧ _))

/-- The first candidate, decoded without a way past it. -/
def coveEnvelope : List TxOut → Except Fault (Option ParsedEnvelopeV2)
  | [] => .ok none
  | out :: rest =>
    if EnvelopeCandidate out.script then do
      let envelope ← (decodeV2 (out.script.drop 2)).mapError fun f =>
        mismatch ("the Cove envelope in this transaction is unreadable: " ++ f.message)
      return some envelope
    else coveEnvelope rest

namespace ClientIntent

variable (intent : ClientIntent)

/-- Both scripts of the wallet count as its own; an empty text names none. -/
def IsMine (script : Bytes) : Prop :=
  script ≠ [] ∧ (script = intent.walletScript ∨ intent.ordinalsScript = some script)

instance : DecidablePred intent.IsMine := fun _ => inferInstanceAs (Decidable (_ ∧ _))

def OwnInput (i : PsbtInput) : Prop := ∃ wu ∈ i.witnessUtxo, intent.IsMine wu.script

instance : DecidablePred intent.OwnInput := fun i =>
  inferInstanceAs (Decidable (∃ wu ∈ i.witnessUtxo, intent.IsMine wu.script))

def OwnOutput (o : TxOut) : Prop := intent.IsMine o.script

instance : DecidablePred intent.OwnOutput := fun o =>
  inferInstanceAs (Decidable (intent.IsMine o.script))

def walletIn (psbt : Psbt) : Int :=
  ((psbt.inputs.filter fun i => intent.OwnInput i).map PsbtInput.valueSats).sum

def walletOut (psbt : Psbt) : Int :=
  ((psbt.txOutputs.filter fun o => intent.OwnOutput o).map fun o => (o.value : Int)).sum

def othersIn (psbt : Psbt) : Int :=
  ((psbt.inputs.filter fun i => ¬ intent.OwnInput i).map PsbtInput.valueSats).sum

def othersOut (psbt : Psbt) : Int :=
  ((psbt.txOutputs.filter fun o => ¬ intent.OwnOutput o).map fun o => (o.value : Int)).sum

def walletDelta (psbt : Psbt) : Int := intent.walletOut psbt - intent.walletIn psbt

def creatorFee : Int := intent.creatorFeeSats.getD 0

/-- The creator's share, as far as it leaves the wallet. -/
def creatorLeaves : Int :=
  if ∃ s ∈ intent.creatorScript, ¬ intent.IsMine s then intent.creatorFee else 0

/-- Some output pays a script a value. -/
def Pays (psbt : Psbt) (script : Bytes) (value : Int) : Prop :=
  ∃ o ∈ psbt.txOutputs, o.script = script ∧ (o.value : Int) = value

instance (psbt : Psbt) (script : Bytes) (value : Int) : Decidable (Pays psbt script value) :=
  inferInstanceAs (Decidable (∃ o ∈ psbt.txOutputs, _))

/-! The balance of each operation. -/

def verifyBackingBuy (psbt : Psbt) : Except Fault Unit := do
  let missing := mismatch "buy intent is missing its price"
  let gross ← demand intent.grossSats missing
  let protocolFee ← demand intent.protocolFeeSats missing
  let creatorFee := intent.creatorFee
  ensure (0 < creatorFee → ∃ s ∈ intent.creatorScript, s ≠ [] ∧ Pays psbt s creatorFee)
    (mismatch s!"no {creatorFee}-sat creator payment")
  let creatorLeaves := intent.creatorLeaves
  let expectedMinerFee := intent.minerFeeSats
  let expected := -(gross + protocolFee + creatorLeaves + expectedMinerFee)
  let walletDelta := intent.walletDelta psbt
  ensure (walletDelta = expected) (mismatch
    (s!"buying costs {-walletDelta} sats, not the {-expected} you were shown " ++
      s!"({gross} price + {protocolFee} protocol fee + {creatorLeaves} creator + " ++
      s!"{expectedMinerFee} miner fee)"))

def verifyP2pBuy (psbt : Psbt) : Except Fault Unit := do
  let missing := mismatch "purchase intent is missing its price"
  let gross ← demand intent.grossSats missing
  let protocolFee ← demand intent.protocolFeeSats missing
  let paidToOthers := intent.othersOut psbt - intent.othersIn psbt
  ensure (paidToOthers ≤ gross + protocolFee) (mismatch
    (s!"this purchase pays others {paidToOthers} sats, more than the " ++
      s!"{gross} price + {protocolFee} fee you were shown"))
  ensure (∃ o ∈ psbt.txOutputs, ¬ intent.IsMine o.script ∧ (o.value : Int) = gross)
    (mismatch s!"no {gross}-sat payment to the seller")

def verifyRedeem (psbt : Psbt) : Except Fault Unit := do
  let net ← demand intent.netSats (mismatch "redeem intent is missing its payout")
  let expectedMinerFee := intent.minerFeeSats
  let expected := net - expectedMinerFee
  let walletDelta := intent.walletDelta psbt
  ensure (walletDelta = expected) (mismatch
    (s!"redeeming pays {walletDelta} sats, not the {expected} you were shown " ++
      s!"({net} payout less {expectedMinerFee} miner fee)"))

/-- Every other operation has no identity of its own. -/
def verifyBalance (psbt : Psbt) : Except Fault Unit :=
  match intent.operation with
  | .backingBuy => intent.verifyBackingBuy psbt
  | .p2pBuy => intent.verifyP2pBuy psbt
  | .redeem => intent.verifyRedeem psbt
  | .transfer => .ok ()
  | .p2pSell => .ok ()
  | .other _ => .ok ()

/-- A stated payout lands on the payments script; without one, some output is the wallet's. -/
def verifyPayout (psbt : Psbt) : Except Fault Unit :=
  match intent.netSats with
  | some net =>
    ensure (Pays psbt intent.walletScript net) (mismatch s!"no {net}-sat payout to your wallet")
  | none =>
    ensure (∃ o ∈ psbt.txOutputs, intent.IsMine o.script) (mismatch "no output to the wallet")

/-! The token side. -/

/-- An output of the transaction is the wallet's. -/
def OwnVout (psbt : Psbt) (vout : Nat) : Prop :=
  ∃ o ∈ psbt.txOutputs[vout]?, intent.IsMine o.script

instance (psbt : Psbt) (vout : Nat) : Decidable (intent.OwnVout psbt vout) :=
  inferInstanceAs (Decidable (∃ o ∈ psbt.txOutputs[vout]?, intent.IsMine o.script))

/-- The atoms an envelope allocates to the wallet's outputs. -/
def arriving (psbt : Psbt) (allocations : List TokenAllocation) : Int :=
  ((allocations.filter fun a => intent.OwnVout psbt a.vout).map TokenAllocation.amount).sum

def leaving (psbt : Psbt) (allocations : List TokenAllocation) : Int :=
  ((allocations.filter fun a => ¬ intent.OwnVout psbt a.vout).map TokenAllocation.amount).sum

/-- The token the envelope is about, when the intent names one and the envelope is no deploy. -/
def verifyTokenId (envelope : ParsedEnvelopeV2) : Except Fault Unit :=
  let check (tokenId : Bytes) := ensure (∀ t ∈ intent.tokenId, t ≠ [] → tokenId = t) (mismatch
    ("this transaction moves token " ++ Bytes.hexString (tokenId.take 8) ++ "…, not " ++
      Bytes.hexString ((intent.tokenId.getD []).take 8) ++ "…"))
  match envelope with
  | .deploy _ _ _ => .ok ()
  | .mint tokenId _ _ => check tokenId
  | .transfer tokenId _ => check tokenId
  | .redeem tokenId _ _ => check tokenId

def verifyMintEnvelope (psbt : Psbt) (amountAtoms : Int) (recipientVout : Nat) :
    Except Fault Unit := do
  let amount ← demand intent.tokenAmountAtoms (mismatch "buy intent is missing its token amount")
  ensure (amountAtoms = amount) (mismatch
    s!"this transaction mints {amountAtoms} atoms, not the {amount} you asked for")
  ensure (intent.OwnVout psbt recipientVout) (mismatch
    s!"the minted tokens go to output {recipientVout}, which is not your wallet")

def verifyChangeAllocations (psbt : Psbt) : List TokenAllocation → Except Fault Unit
  | [] => .ok ()
  | alloc :: rest => do
    ensure (intent.OwnVout psbt alloc.vout) (mismatch
      s!"token change at output {alloc.vout} does not return to your wallet")
    verifyChangeAllocations psbt rest

def verifyRedeemEnvelope (psbt : Psbt) (redeemAmount : Int)
    (changeAllocations : List TokenAllocation) : Except Fault Unit := do
  let amount ← demand intent.tokenAmountAtoms
    (mismatch "redeem intent is missing its token amount")
  ensure (redeemAmount = amount) (mismatch
    s!"this transaction redeems {redeemAmount} atoms, not the {amount} you asked for")
  intent.verifyChangeAllocations psbt changeAllocations

def verifyTransferEnvelope (psbt : Psbt) (allocations : List TokenAllocation) :
    Except Fault Unit := do
  let amount ← demand intent.tokenAmountAtoms
    (mismatch "transfer intent is missing its token amount")
  let direction ← demand (intent.tokenDirection.or intent.operation.tokenDirection) (mismatch
    ("cannot tell which way tokens move for operation " ++ intent.operation.text))
  let arriving := intent.arriving psbt allocations
  let leaving := intent.leaving psbt allocations
  ensure (direction = .inward → arriving = amount) (mismatch
    s!"this transaction delivers {arriving} atoms to you, not the {amount} agreed")
  ensure (direction = .outward → leaving = amount) (mismatch
    s!"this transaction sends {leaving} atoms away, not the {amount} you entered")

/-- Decoding leaves no other operation to refuse. -/
def verifyTokenEnvelope (psbt : Psbt) : Except Fault Unit := do
  let envelope ← coveEnvelope psbt.txOutputs
  match envelope with
  | none =>
    ensure (∀ amount ∈ intent.tokenAmountAtoms, amount ≤ 0)
      (mismatch "no Cove envelope in this transaction")
  | some envelope => do
    intent.verifyTokenId envelope
    match envelope with
    | .mint _ amount recipientVout => intent.verifyMintEnvelope psbt amount recipientVout
    | .redeem _ redeemAmount changeAllocations =>
      intent.verifyRedeemEnvelope psbt redeemAmount changeAllocations
    | .transfer _ allocations => intent.verifyTransferEnvelope psbt allocations
    | .deploy _ _ _ => .ok ()

end ClientIntent

def verifyClientIntent (C : Crypto) (psbt : Psbt) (intent : ClientIntent) :
    Except Fault VerifiedIntent := do
  let digest := unsignedTxDigestHex C psbt
  ensure (digest = intent.unsignedTxDigest) (mismatch "unsigned transaction changed")
  let minerFee := psbt.totalIn - psbt.totalOut
  ensure (minerFee = intent.minerFeeSats)
    (mismatch s!"miner fee {minerFee} != expected {intent.minerFeeSats}")
  let walletDelta := intent.walletDelta psbt
  ensure (∀ stated ∈ intent.walletDeltaSats, stated = walletDelta) (mismatch
    (s!"wallet balance changes by {walletDelta} sats, not the stated " ++
      intent.walletDeltaSats.elim "null" toString))
  ensure (∀ protocolFee ∈ intent.protocolFeeSats, 0 < protocolFee →
      ∃ o ∈ psbt.txOutputs, (o.value : Int) = protocolFee)
    (mismatch "protocol fee output missing")
  intent.verifyBalance psbt
  intent.verifyPayout psbt
  intent.verifyTokenEnvelope psbt
  return {
    digest
    inputCount := psbt.inputs.length
    outputCount := psbt.txOutputs.length
    totalInputSats := psbt.totalIn
    totalOutputSats := psbt.totalOut
    walletDeltaSats := walletDelta }

/-- What the browser has checked of a PSBT it lets the wallet sign. -/
structure IntentVerified (C : Crypto) (psbt : Psbt) (intent : ClientIntent) : Prop where
  digest : unsignedTxDigestHex C psbt = intent.unsignedTxDigest
  minerFee : psbt.totalIn - psbt.totalOut = intent.minerFeeSats
  stated : ∀ stated ∈ intent.walletDeltaSats, stated = intent.walletDelta psbt
  protocolFee : ∀ protocolFee ∈ intent.protocolFeeSats, 0 < protocolFee →
    ∃ o ∈ psbt.txOutputs, (o.value : Int) = protocolFee
  balance : intent.verifyBalance psbt = .ok ()
  payout : intent.verifyPayout psbt = .ok ()
  envelope : intent.verifyTokenEnvelope psbt = .ok ()

theorem verifyClientIntent_ok_iff {C : Crypto} {psbt : Psbt} {intent : ClientIntent} :
    (∃ v, verifyClientIntent C psbt intent = .ok v) ↔ IntentVerified C psbt intent := by
  simp only [verifyClientIntent, bind_eq_ok, ensure_eq_ok, pure_eq_ok]
  constructor
  · intro h
    obtain ⟨v, _, hdigest, _, hfee, _, hstated, _, hprotocol, _, hbalance, _, hpayout, _,
      henvelope, -⟩ := h
    exact ⟨hdigest, hfee, hstated, hprotocol, hbalance, hpayout, henvelope⟩
  · intro h
    exact ⟨_, (), h.digest, (), h.minerFee, (), h.stated, (), h.protocolFee, (), h.balance, (),
      h.payout, (), h.envelope, rfl⟩

end Cove
