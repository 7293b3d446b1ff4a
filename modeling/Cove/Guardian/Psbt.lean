import Cove.Indexer.State
import Cove.Wire.Discovery

/-! What the Guardian reads: the canonical view, a PSBT, and the funding checker's verdicts.
`packages/cove-covenant/src/resolver.ts`, `packages/cove-indexer/src/v3/canonical-view.ts` and
`types.ts`, `resolve.ts`, `discoveryOutput.ts` and `funding.ts` of
`packages/cove-guardian/src/v3`. -/

namespace Cove

open Checked

structure TokenUtxo where
  outpoint : OutPoint
  tokenId : Bytes
  amountAtoms : Int
  scriptPubKey : Bytes
  deriving DecidableEq, Repr

/-- The lookups of `CoveCanonicalView` the validators make. An absent creator method
answers like one that knows no creator. -/
structure CoveCanonicalView where
  getCurrentBackingState : Bytes → Option CoveStateV2
  getBackingOutpoint : Bytes → Option OutPoint
  getTokenUtxo : OutPoint → Option TokenUtxo
  getTokenCreatorScript : Bytes → Option Bytes

def V3TokenUtxo.toTokenUtxo (u : V3TokenUtxo) : TokenUtxo :=
  ⟨u.outpoint, u.tokenId, u.amountAtoms, u.scriptPubKey⟩

/-- The indexer's view of itself. With relevant outpoints named, only carriers on these are
in it. Carriers lie under their own outpoints, so the snapshot's keys are the map's. -/
def loadCanonicalViewSnapshot (state : Ledger) (relevantOutpoints : List OutPoint) :
    CoveCanonicalView where
  getCurrentBackingState tokenId := (state.backing.get tokenId).map V3Backing.state
  getBackingOutpoint tokenId := (state.backing.get tokenId).map V3Backing.outpoint
  getTokenUtxo o :=
    if relevantOutpoints = [] ∨ o ∈ relevantOutpoints then
      (state.tokenUtxos.get o).map V3TokenUtxo.toTokenUtxo
    else none
  -- The empty text is falsy, so an empty script is no creator.
  getTokenCreatorScript tokenId :=
    ((state.tokens.get tokenId).map V3TokenMeta.creatorScript).filter (· ≠ [])

structure TapLeafScript where
  script : Bytes
  controlBlock : Bytes
  deriving DecidableEq, Repr

/-- An input of a PSBT: the outpoint of the unsigned transaction beside the fields the
Guardian reads. -/
structure PsbtInput where
  hash : Bytes
  index : Nat
  sequence : Nat := 0xffffffff
  witnessUtxo : Option TxOut := none
  tapInternalKey : Option Bytes := none
  tapMerkleRoot : Option Bytes := none
  tapLeafScript : List TapLeafScript := []
  deriving DecidableEq, Repr

structure Psbt where
  version : Nat := 2
  inputs : List PsbtInput
  txOutputs : List TxOut
  locktime : Nat := 0
  deriving DecidableEq, Repr

def PsbtInput.outpoint (i : PsbtInput) : OutPoint := ⟨i.hash.reverse, i.index⟩

/-- A missing prevout counts as worth nothing. -/
def PsbtInput.valueSats (i : PsbtInput) : Int := i.witnessUtxo.elim 0 fun wu => wu.value

def Psbt.totalIn (psbt : Psbt) : Int := (psbt.inputs.map PsbtInput.valueSats).sum

def Psbt.totalOut (psbt : Psbt) : Int := (psbt.txOutputs.map fun o => (o.value : Int)).sum

/-- A transaction with the PSBT's outpoints and outputs: what signing and extraction give. -/
structure Psbt.Extracts (psbt : Psbt) (tx : Transaction) : Prop where
  spends : tx.spends = psbt.inputs.map PsbtInput.outpoint
  outs : tx.outs = psbt.txOutputs

/-- The unsigned transaction as the Guardian rebuilds it: always of version 2 and without a
locktime. -/
def unsignedTransaction (psbt : Psbt) : Transaction where
  version := 2
  ins := psbt.inputs.map fun i => { hash := i.hash, index := i.index, sequence := i.sequence }
  outs := psbt.txOutputs

theorem unsignedTransaction_extracts (psbt : Psbt) : psbt.Extracts (unsignedTransaction psbt) := by
  refine ⟨?_, rfl⟩
  rw [Transaction.spends, unsignedTransaction, List.map_map]
  rfl

/-- The envelope of an `OP_RETURN` script with one direct push. -/
def opReturnEnvelope (script : Bytes) : Except Fault ParsedEnvelopeV2 := do
  ensure (2 ≤ script.length ∧ script.getD 0 0 = 0x6a) ⟨none, "NO_COVE_OP_RETURN"⟩
  ensure (script.length = 2 + (script.getD 1 0).toNat) ⟨none, "NONCANONICAL_WIRE"⟩
  decodeV2 (script.drop 2)

def decodeCoveOpReturn (psbt : Psbt) : Except Fault ParsedEnvelopeV2 := do
  let out0 : TxOut ← demand psbt.txOutputs[0]? ⟨none, "NO_OUTPUT_0"⟩
  opReturnEnvelope out0.script

def decodeCoveOpReturnTx (tx : Transaction) : Except Fault ParsedEnvelopeV2 := do
  let out0 : TxOut ← demand tx.outs[0]? ⟨none, "NO_COVE_OP_RETURN"⟩
  opReturnEnvelope out0.script

namespace ParsedEnvelopeV2

def op : ParsedEnvelopeV2 → UInt8
  | .deploy _ _ _ => opDeploy
  | .mint _ _ _ => opMint
  | .transfer _ _ => opTransfer
  | .redeem _ _ _ => opRedeem

/-- The fields left once the opcode is known to be `OP_MINT`. -/
def asMint : ParsedEnvelopeV2 → Option (Bytes × Int × Nat)
  | .mint tokenId amount recipientVout => some (tokenId, amount, recipientVout)
  | _ => none

def asRedeem : ParsedEnvelopeV2 → Option (Bytes × Int × List TokenAllocation)
  | .redeem tokenId redeemAmount changeAllocations => some (tokenId, redeemAmount, changeAllocations)
  | _ => none

def asTransfer : ParsedEnvelopeV2 → Option (Bytes × List TokenAllocation)
  | .transfer tokenId allocations => some (tokenId, allocations)
  | _ => none

end ParsedEnvelopeV2

/-! The advisory discovery output. -/

structure DiscoveryOutputCheck where
  present : Bool
  agrees : Bool
  allowance : Nat
  reason : Option String := none
  deriving DecidableEq, Repr

/-- The payload of an `OP_RETURN` script with one direct push of at most 75 bytes. -/
def opReturnPayload (script : Bytes) : Option Bytes :=
  if script.length < 2 ∨ script.getD 0 0 ≠ 0x6a then none
  else if 0x4b < script.getD 1 0 ∨ script.length ≠ 2 + (script.getD 1 0).toNat then none
  else some (script.drop 2)

/-- The last output, when it carries a `crc-20` object. -/
def checkDiscoveryOutput (outputs : List TxOut) (binary : ParsedEnvelopeV2)
    (ticker : Option Bytes) : DiscoveryOutputCheck :=
  let absent : DiscoveryOutputCheck := ⟨false, false, 0, none⟩
  match outputs.getLast? with
  | none => absent
  | some last =>
    if outputs.length < 2 then absent
    else
      match opReturnPayload last.script with
      | none => absent
      | some payload =>
        if (decodeDiscovery payload).isNone then absent
        else if last.value ≠ 0 then
          ⟨true, false, 1, some s!"discovery output carries {last.value} sats; must be 0"⟩
        else if discoveryAgreesWithBinary payload binary ticker then ⟨true, true, 1, none⟩
        -- The text's first 96 characters are all of it: a direct push is shorter.
        else ⟨true, false, 1, some ("discovery envelope contradicts the binary envelope: " ++
          payload.utf8Text)⟩

/-! Funding inputs. -/

inductive FundingInputCode
  | fundingUnconfirmed
  | fundingHoldsToken
  | fundingCheckUnavailable
  deriving DecidableEq, Repr

inductive FundingInputVerdict
  | ok
  | refused (code : FundingInputCode) (detail : String)
  deriving DecidableEq, Repr

/-- The checker is the caller's; its promise may also be rejected. -/
structure FundingInputChecker where
  check : OutPoint → Except Fault FundingInputVerdict

/-- The checker lets no live carrier of any token pass. -/
def FundingInputChecker.RefusesCarriers (checker : FundingInputChecker) (σ : Ledger) : Prop :=
  ∀ o, σ.tokenUtxos.has o = true → checker.check o ≠ .ok .ok

end Cove
