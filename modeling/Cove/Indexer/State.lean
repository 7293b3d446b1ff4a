import Cove.Economics.Fee
import Cove.Indexer.Types
import Cove.Wire.Envelope

/-! The indexer's state machine: `packages/cove-indexer/src/v3/parser.ts`, `root.ts` and
`state.ts`. -/

namespace Cove

open Checked

/-- `parseCoveTx`. The four envelope kinds are told apart by the envelope. -/
inductive ParsedCoveTx
  | nonCove
  | invalid (reason : String)
  | cove (envelope : ParsedEnvelopeV2)
  deriving DecidableEq, Repr

def parseCoveTx (tx : Transaction) : ParsedCoveTx :=
  match tx.outs[0]? with
  | none => .nonCove
  | some out0 =>
    let script := out0.script
    if script.length < 2 ∨ script.getD 0 0 ≠ 0x6a then .nonCove
    else if script.length ≠ 2 + (script.getD 1 0).toNat then .invalid "BAD_OP_RETURN_LENGTH"
    else
      let payload := script.drop 2
      if payload.length < 4 ∨ (payload.slice 0 2).toNatBE ≠ coveWireMagic then .nonCove
      else
        match decodeV2 payload with
        | .ok envelope => .cove envelope
        | .error f => .invalid (f.code.getD "MALFORMED_WIRE")

/-- Output 0 of an envelope is `OP_RETURN` and one direct push of what decodes to it. -/
theorem parseCoveTx_eq_cove {tx : Transaction} {e : ParsedEnvelopeV2} :
    parseCoveTx tx = .cove e ↔ ∃ out0, tx.outs[0]? = some out0 ∧
      out0.script.getD 0 0 = 0x6a ∧ out0.script.length = 2 + (out0.script.getD 1 0).toNat ∧
      decodeV2 (out0.script.drop 2) = .ok e := by
  unfold parseCoveTx
  constructor
  · intro h
    split at h
    · cases h
    rename_i out0 hout0
    dsimp only at h
    split at h
    · cases h
    rename_i hop
    split at h
    · cases h
    rename_i hpush
    split at h
    · cases h
    split at h
    · rename_i hdecode
      cases h
      rw [not_or, not_not] at hop
      exact ⟨out0, hout0, hop.2, not_not.mp hpush, hdecode⟩
    · cases h
  · intro h
    obtain ⟨out0, hout0, hop, hpush, hdecode⟩ := h
    obtain ⟨hfour, hmagic⟩ := decodeV2_header hdecode
    have hlen := hfour
    rw [List.length_drop] at hlen
    rw [hout0]
    dsimp only
    rw [if_neg (by rw [not_or, not_not]; exact ⟨by omega, hop⟩), if_neg (not_not.mpr hpush),
      if_neg (by rw [not_or, not_not]; exact ⟨by omega, hmagic⟩), hdecode]

/-! The state root. -/

def rootLine (parts : List Bytes) : Bytes := Bytes.join (Bytes.ascii "|") parts

def tokenLine (t : V3TokenMeta) : Bytes :=
  rootLine [Bytes.ascii "TOKEN", t.tokenId.hexText, t.ticker, Bytes.decimalText t.policyVersion,
    t.tokenNonce.hexText, t.deployTxid.hexText, Bytes.decimalText t.deployHeight,
    t.creatorScript.hexText]

def backingLine (b : V3Backing) : Bytes :=
  rootLine [Bytes.ascii "BACKING", b.tokenId.hexText, b.stateHash.hexText, b.outpoint.txid.hexText,
    Bytes.decimalText b.outpoint.vout, Bytes.decimalText b.btcValue]

def utxoLine (u : V3TokenUtxo) : Bytes :=
  rootLine [Bytes.ascii "UTXO", u.txid.hexText, Bytes.decimalText u.vout, u.tokenId.hexText,
    Bytes.decimalText u.amountAtoms, u.scriptPubKey.hexText]

/-- The text the state root hashes. The last sort decides the order alone. -/
def rootText (σ : Ledger) : Bytes :=
  Bytes.ascii "Cove/IndexerState/v3" ++ Bytes.ascii "\n" ++
    Bytes.join (Bytes.ascii "\n") (Bytes.sorted
      (σ.tokens.values.map tokenLine + σ.backing.values.map backingLine +
        σ.tokenUtxos.values.map utxoLine))

def computeStateRoot (C : Crypto) (σ : Ledger) : Bytes := C.sha256 (rootText σ)

/-- A new indexer: empty maps and a cursor before the first block. -/
def V3IndexerState.new (C : Crypto) (cfg : V3IndexerConfig) : V3IndexerState where
  tokens := ∅
  backing := ∅
  tokenUtxos := ∅
  events := []
  undoByHeight := ∅
  cursor := ⟨cfg.network, 0, [], computeStateRoot C ⟨∅, ∅, ∅⟩⟩

structure ApplyResult where
  op : Option V3Operation
  valid : Bool
  reason : Option String
  tokenId : Option Bytes
  undo : Option UndoOp
  curve : Option V3CurveTrade := none
  deriving DecidableEq, Repr

/-- How an operation is left early: by returning an invalid result, or by a throw
nothing catches. -/
inductive Exit
  | invalid (r : ApplyResult)
  | fault (f : Fault)
  deriving DecidableEq, Repr

def refuse (op : V3Operation) (reason : String) (tokenId : Option Bytes) : Exit :=
  .invalid ⟨some op, false, some reason, tokenId, none, none⟩

def uncaught {α : Type} (x : Except Fault α) : Except Exit α := x.mapError .fault

def isStandardCarrier (script : Bytes) : Bool := isP2TR script || isP2WPKH script

/-- The spent and the created carriers of a valid operation, moved in the map. -/
def Ledger.moveCarriers (σ : Ledger) (spent created : List V3TokenUtxo) : Ledger :=
  let left := σ.tokenUtxos.deleteAll (spent.map V3TokenUtxo.outpoint)
  { σ with tokenUtxos := left.setAll (created.map V3TokenUtxo.entry) }

section Operations

variable (C : Crypto) (cfg : V3IndexerConfig) (block : V3BlockInput) (σ : Ledger)
  (tx : Transaction)

def applyDeploy (policyVersion : Nat) (ticker tokenNonce : Bytes) :
    Except Exit (Ledger × ApplyResult) := do
  let txid := tx.getId C
  -- Output 2 names the creator, and the token id commits to it.
  let creatorOut : TxOut ← demand tx.outs[2]? (refuse .deploy "CREATOR_OUTPUT_MISSING" none)
  ensure ((creatorOut.value : Int) = creatorRecordSats ∧ isCreatorScript creatorOut.script)
    (refuse .deploy "CREATOR_OUTPUT_MISSING" none)
  let tokenId ← uncaught (computeTokenId C
    ⟨cfg.chainIdentity, policyVersion, ticker, tokenNonce, creatorOut.script⟩)
  ensure (σ.tokens.has tokenId = false) (refuse .deploy "DUPLICATE_TOKEN_ID" (some tokenId))
  let s0 ← uncaught (s0StateV2 tokenId)
  let vault ← uncaught (buildBackingVaultV3 C s0 cfg.vaultKeys)
  let s0Out : TxOut ← demand tx.outs[1]? (refuse .deploy "S0_VAULT_MISMATCH" (some tokenId))
  ensure (s0Out.script = vault.scriptPubKey) (refuse .deploy "S0_VAULT_MISMATCH" (some tokenId))
  ensure ((s0Out.value : Int) = reserveAnchorSats)
    (refuse .deploy "S0_ANCHOR_MISMATCH" (some tokenId))
  let stateHash ← uncaught (stateHashV2 C s0)
  let tokenMeta : V3TokenMeta := {
    tokenId, ticker, policyVersion, tokenNonce
    deployTxid := txid
    deployHeight := block.height
    deployBlockHash := block.hash
    creatorScript := creatorOut.script }
  let backing : V3Backing := {
    tokenId, stateHash
    state := s0
    outpoint := ⟨txid, 1⟩
    scriptPubKey := vault.scriptPubKey
    btcValue := reserveAnchorSats
    updatedTxid := txid
    updatedHeight := block.height
    updatedBlockHash := block.hash }
  return ({ σ with
      tokens := σ.tokens.set tokenId tokenMeta
      backing := σ.backing.set tokenId backing },
    ⟨some .deploy, true, none, some tokenId, some (.deploy tokenId), none⟩)

def applyMint (tokenId : Bytes) (amount : Int) (recipientVout : Nat) :
    Except Exit (Ledger × ApplyResult) := do
  let txid := tx.getId C
  let refuseMint (reason : String) := refuse .mint reason (some tokenId)
  let tokenMeta ← demand (σ.tokens.get tokenId) (refuseMint "UNKNOWN_TOKEN")
  let backing ← demand (σ.backing.get tokenId) (refuseMint "UNKNOWN_TOKEN")
  let ins0 : TxIn ← demand tx.ins[0]? (refuseMint "BAD_TX")
  ensure (ins0.outpoint = backing.outpoint) (refuseMint "STALE_BACKING")
  let canonical ← (applyMintV2 backing.state amount).mapError
    fun e => refuseMint ("REFERENCE_REJECTED: " ++ e.message)
  let nextState := canonical.nextState
  let feeSats ← uncaught (mintFeeSats canonical.grossSats amount
    (cfg.buyFeeBps.getD coveFeeConfig.buyFeeBps)
    (cfg.buyFeeFlatSats.getD coveFeeConfig.buyFeeFlatSats) coveFeeConfig.buyFeeLotSats)
  let nextVault ← uncaught (buildBackingVaultV3 C nextState cfg.vaultKeys)
  let successor : TxOut ← demand tx.outs[1]? (refuseMint "SUCCESSOR_VAULT_MISMATCH")
  ensure (successor.script = nextVault.scriptPubKey) (refuseMint "SUCCESSOR_VAULT_MISMATCH")
  ensure ((successor.value : Int) = reserveAnchorSats + nextState.backingSats)
    (refuseMint "SUCCESSOR_VALUE_MISMATCH")
  ensure (recipientVout = 2) (refuseMint "CARRIER_VOUT_MISMATCH")
  let carrier : TxOut ← demand tx.outs[2]? (refuseMint "CARRIER_MISMATCH")
  ensure ((carrier.value : Int) = tokenCarrierSats ∧ isStandardCarrier carrier.script)
    (refuseMint "CARRIER_MISMATCH")
  let feeOut : TxOut ← demand tx.outs[3]? (refuseMint "FEE_MISMATCH")
  ensure ((feeOut.value : Int) = feeSats ∧ feeOut.script = cfg.feeScript)
    (refuseMint "FEE_MISMATCH")
  let creatorOut : TxOut ← demand tx.outs[4]? (refuseMint "CREATOR_FEE_MISMATCH")
  let creatorFee ← uncaught (creatorFeeSats canonical.grossSats
    (cfg.creatorFeeBps.getD coveFeeConfig.creatorFeeBps))
  ensure ((creatorOut.value : Int) = creatorFee ∧ creatorOut.script = tokenMeta.creatorScript)
    (refuseMint "CREATOR_FEE_MISMATCH")
  let stateHash ← uncaught (stateHashV2 C nextState)
  let nextBacking : V3Backing := {
    tokenId, stateHash
    state := nextState
    outpoint := ⟨txid, 1⟩
    scriptPubKey := nextVault.scriptPubKey
    btcValue := reserveAnchorSats + nextState.backingSats
    updatedTxid := txid
    updatedHeight := block.height
    updatedBlockHash := block.hash }
  let createdUtxo : V3TokenUtxo := {
    txid, tokenId
    vout := 2
    amountAtoms := amount
    scriptPubKey := carrier.script
    createdHeight := block.height
    createdBlockHash := block.hash }
  return ({ σ with
      backing := σ.backing.set tokenId nextBacking
      tokenUtxos := σ.tokenUtxos.set ⟨txid, 2⟩ createdUtxo },
    ⟨some .mint, true, none, some tokenId, some (.mint tokenId backing createdUtxo),
      some ⟨amount, canonical.grossSats, feeSats, nextState.issuedPublicSupplyAtoms,
        nextState.backingSats⟩⟩)

/-- The loop of `resolveTokenInputs`: the live carriers the inputs spend. -/
def collectTokenInputs (tokenId : Bytes) : List TxIn → Except String (List V3TokenUtxo)
  | [] => .ok []
  | i :: ins =>
    match σ.tokenUtxos.get i.outpoint with
    | none => collectTokenInputs tokenId ins
    | some u => do
      ensure (u.tokenId = tokenId) "MIXED_TOKEN_INPUT"
      let rest ← collectTokenInputs tokenId ins
      return u :: rest

def resolveTokenInputs (tokenId : Bytes) : Except String (List V3TokenUtxo) := do
  let spent ← collectTokenInputs σ tokenId tx.ins
  ensure (spent ≠ []) "FORGED_TOKEN_INPUT"
  return spent

def sumAtoms (utxos : List V3TokenUtxo) : Int := (utxos.map V3TokenUtxo.amountAtoms).sum

def sumAllocations (allocations : List TokenAllocation) : Int :=
  (allocations.map TokenAllocation.amount).sum

/-- The allocation loop of `applyTransfer`. -/
def transferCarriers (tokenId : Bytes) : List TokenAllocation → Except Exit (List V3TokenUtxo)
  | [] => .ok []
  | a :: allocations => do
    let out : TxOut ← demand tx.outs[a.vout]?
      (refuse .transfer "ALLOCATION_VOUT_MISSING" (some tokenId))
    ensure ((out.value : Int) = tokenCarrierSats ∧ isStandardCarrier out.script)
      (refuse .transfer "CARRIER_MISMATCH" (some tokenId))
    let rest ← transferCarriers tokenId allocations
    return {
      txid := tx.getId C
      vout := a.vout
      tokenId
      amountAtoms := a.amount
      scriptPubKey := out.script
      createdHeight := block.height
      createdBlockHash := block.hash } :: rest

def applyTransfer (tokenId : Bytes) (allocations : List TokenAllocation) :
    Except Exit (Ledger × ApplyResult) := do
  let refuseTransfer (reason : String) := refuse .transfer reason (some tokenId)
  ensure (σ.tokens.has tokenId = true) (refuseTransfer "UNKNOWN_TOKEN")
  let spentUtxos ← (resolveTokenInputs σ tx tokenId).mapError refuseTransfer
  let inSum := sumAtoms spentUtxos
  let outSum := sumAllocations allocations
  ensure (inSum = outSum) (refuseTransfer s!"TOKEN_CONSERVATION: in={inSum} out={outSum}")
  let createdUtxos ← transferCarriers C block tx tokenId allocations
  return (σ.moveCarriers spentUtxos createdUtxos,
    ⟨some .transfer, true, none, some tokenId,
      some (.transfer (tx.getId C) spentUtxos createdUtxos), none⟩)

/-- The change carrier of a redeem: output 4 when tokens are left over. -/
def redeemCarriers (tokenId : Bytes) (changeAtoms : Int)
    (changeAllocations : List TokenAllocation) : Except Exit (List V3TokenUtxo) :=
  let refuseRedeem (reason : String) := refuse .redeem reason (some tokenId)
  if 0 < changeAtoms then do
    let changeOut : TxOut ← demand tx.outs[4]? (refuseRedeem "CHANGE_CARRIER_MISMATCH")
    ensure ((changeOut.value : Int) = tokenCarrierSats ∧ isStandardCarrier changeOut.script)
      (refuseRedeem "CHANGE_CARRIER_MISMATCH")
    ensure (changeAllocations = [⟨4, changeAtoms⟩]) (refuseRedeem "TOKEN_CHANGE_MISMATCH")
    return [{
      txid := tx.getId C
      vout := 4
      tokenId
      amountAtoms := changeAtoms
      scriptPubKey := changeOut.script
      createdHeight := block.height
      createdBlockHash := block.hash }]
  else do
    ensure (changeAllocations = []) (refuseRedeem "TOKEN_INFLATION")
    return []

def applyRedeem (tokenId : Bytes) (redeemAmount : Int) (changeAllocations : List TokenAllocation) :
    Except Exit (Ledger × ApplyResult) := do
  let txid := tx.getId C
  let refuseRedeem (reason : String) := refuse .redeem reason (some tokenId)
  let _tokenMeta ← demand (σ.tokens.get tokenId) (refuseRedeem "UNKNOWN_TOKEN")
  let backing ← demand (σ.backing.get tokenId) (refuseRedeem "UNKNOWN_TOKEN")
  let ins0 : TxIn ← demand tx.ins[0]? (refuseRedeem "BAD_TX")
  ensure (ins0.outpoint = backing.outpoint) (refuseRedeem "STALE_BACKING")
  let spentUtxos ← (resolveTokenInputs σ tx tokenId).mapError refuseRedeem
  let changeAtoms := sumAtoms spentUtxos - redeemAmount
  ensure (0 ≤ changeAtoms) (refuseRedeem "INSUFFICIENT_OWNERSHIP")
  ensure (sumAllocations changeAllocations = changeAtoms) (refuseRedeem "TOKEN_CHANGE_MISMATCH")
  let canonical ← (applyRedeemV2 backing.state redeemAmount).mapError
    fun e => refuseRedeem ("REFERENCE_REJECTED: " ++ e.message)
  let nextState := canonical.nextState
  let feeSats ← uncaught (redeemFeeSats canonical.grossSats
    (cfg.redeemFeeBps.getD coveFeeConfig.redeemFeeBps)
    (cfg.redeemFeeFlatSats.getD coveFeeConfig.redeemFeeFlatSats) coveFeeConfig.redeemFeeMinSats)
  let netPayoutSats := canonical.grossSats - feeSats
  let nextVault ← uncaught (buildBackingVaultV3 C nextState cfg.vaultKeys)
  let successor : TxOut ← demand tx.outs[1]? (refuseRedeem "SUCCESSOR_VAULT_MISMATCH")
  ensure (successor.script = nextVault.scriptPubKey) (refuseRedeem "SUCCESSOR_VAULT_MISMATCH")
  ensure ((successor.value : Int) = reserveAnchorSats + nextState.backingSats)
    (refuseRedeem "SUCCESSOR_VALUE_MISMATCH")
  let payout : TxOut ← demand tx.outs[2]? (refuseRedeem "PAYOUT_MISMATCH")
  ensure ((payout.value : Int) = netPayoutSats) (refuseRedeem "PAYOUT_MISMATCH")
  let feeOut : TxOut ← demand tx.outs[3]? (refuseRedeem "FEE_MISMATCH")
  ensure ((feeOut.value : Int) = feeSats ∧ feeOut.script = cfg.feeScript)
    (refuseRedeem "FEE_MISMATCH")
  let createdUtxos ← redeemCarriers C block tx tokenId changeAtoms changeAllocations
  let stateHash ← uncaught (stateHashV2 C nextState)
  let nextBacking : V3Backing := {
    tokenId, stateHash
    state := nextState
    outpoint := ⟨txid, 1⟩
    scriptPubKey := nextVault.scriptPubKey
    btcValue := reserveAnchorSats + nextState.backingSats
    updatedTxid := txid
    updatedHeight := block.height
    updatedBlockHash := block.hash }
  let moved := σ.moveCarriers spentUtxos createdUtxos
  return ({ moved with backing := moved.backing.set tokenId nextBacking },
    ⟨some .redeem, true, none, some tokenId,
      some (.redeem tokenId txid backing spentUtxos createdUtxos),
      some ⟨redeemAmount, canonical.grossSats, feeSats, nextState.issuedPublicSupplyAtoms,
        nextState.backingSats⟩⟩)

def applyEnvelope : ParsedEnvelopeV2 → Except Exit (Ledger × ApplyResult)
  | .deploy policyVersion ticker tokenNonce =>
    applyDeploy C cfg block σ tx policyVersion ticker tokenNonce
  | .mint tokenId amount recipientVout => applyMint C cfg block σ tx tokenId amount recipientVout
  | .transfer tokenId allocations => applyTransfer C block σ tx tokenId allocations
  | .redeem tokenId redeemAmount changeAllocations =>
    applyRedeem C cfg block σ tx tokenId redeemAmount changeAllocations

/-- `applyCove`: an invalid operation leaves the maps alone. -/
def applyCove (envelope : ParsedEnvelopeV2) : Except Fault (Ledger × ApplyResult) :=
  match applyEnvelope C cfg block σ tx envelope with
  | .ok r => .ok r
  | .error (.invalid r) => .ok (σ, r)
  | .error (.fault f) => .error f

end Operations

/-- The loop of `burnUnaccountedInputs`: each live carrier spent is taken out. -/
def burnInputs : List TxIn → Dict OutPoint V3TokenUtxo →
    List V3TokenUtxo × Dict OutPoint V3TokenUtxo
  | [], live => ([], live)
  | i :: ins, live =>
    match live.get i.outpoint with
    | none => burnInputs ins live
    | some u =>
      let (spent, live) := burnInputs ins (live.delete i.outpoint)
      (u :: spent, live)

def burnUnaccountedInputs (C : Crypto) (σ : Ledger) (tx : Transaction) : Option UndoOp × Ledger :=
  let (spentUtxos, live) := burnInputs tx.ins σ.tokenUtxos
  (if spentUtxos = [] then none else some (.burn (tx.getId C) spentUtxos),
    { σ with tokenUtxos := live })

/-- What `applyBlock` has built up after some of the block's transactions. -/
structure BlockRun where
  ledger : Ledger
  ops : List UndoOp
  events : List V3Event

/-- What a transaction with the Cove magic does before its stray carriers are burned. -/
def applyParsed (C : Crypto) (cfg : V3IndexerConfig) (block : V3BlockInput) (σ : Ledger)
    (tx : Transaction) : ParsedCoveTx → Except Fault (Ledger × ApplyResult)
  | .cove envelope => applyCove C cfg block σ tx envelope
  | .invalid reason => .ok (σ, ⟨none, false, some reason, none, none, none⟩)
  | .nonCove => .ok (σ, ⟨none, false, none, none, none, none⟩)

def eventOf (C : Crypto) (block : V3BlockInput) (txIndex : Nat) (tx : Transaction)
    (r : ApplyResult) : V3Event where
  txid := tx.getId C
  blockHeight := block.height
  blockHash := block.hash
  txIndex := txIndex
  operation := r.op
  valid := r.valid
  reason := r.reason
  tokenId := r.tokenId
  curve := r.curve

/-- One turn of the loop of `applyBlock`. -/
def applyTx (C : Crypto) (cfg : V3IndexerConfig) (block : V3BlockInput) (txIndex : Nat)
    (tx : Transaction) (run : BlockRun) : Except Fault BlockRun :=
  match parseCoveTx tx with
  | .nonCove =>
    let (burn, ledger) := burnUnaccountedInputs C run.ledger tx
    .ok { run with ledger, ops := run.ops ++ burn.toList }
  | parsed => do
    let (ledger, r) ← applyParsed C cfg block run.ledger tx parsed
    let ops := if r.valid then run.ops ++ r.undo.toList else run.ops
    -- The operation has consumed the carriers it moved; what is still spent is burned.
    let (burn, ledger) := burnUnaccountedInputs C ledger tx
    return {
      ledger
      ops := ops ++ burn.toList
      events := run.events ++ [eventOf C block txIndex tx r] }

def applyTxs (C : Crypto) (cfg : V3IndexerConfig) (block : V3BlockInput) :
    Nat → List Transaction → BlockRun → Except Fault BlockRun
  | _, [], run => .ok run
  | txIndex, tx :: txs, run => do
    let run ← applyTx C cfg block txIndex tx run
    applyTxs C cfg block (txIndex + 1) txs run

/-- Apply one block: the new state beside the events it produced. A block below
the activation height changes nothing. -/
def applyBlock (C : Crypto) (cfg : V3IndexerConfig) (σ : V3IndexerState) (block : V3BlockInput) :
    Except Fault (V3IndexerState × List V3Event) :=
  if block.height < cfg.genesisHeight then .ok (σ, [])
  else do
    let run ← applyTxs C cfg block 0 block.txs ⟨σ.toLedger, [], []⟩
    return ({
      toLedger := run.ledger
      events := σ.events ++ run.events
      undoByHeight := σ.undoByHeight.set block.height ⟨block.height, block.hash, run.ops⟩
      cursor := ⟨cfg.network, block.height, block.hash, computeStateRoot C run.ledger⟩ },
      run.events)

/-- The inverse of one recorded operation. -/
def undoOp (σ : Ledger) : UndoOp → Ledger
  | .deploy tokenId =>
    { σ with tokens := σ.tokens.delete tokenId, backing := σ.backing.delete tokenId }
  | .mint tokenId priorBacking createdUtxo =>
    { σ with
      backing := σ.backing.set tokenId priorBacking
      tokenUtxos := σ.tokenUtxos.delete createdUtxo.outpoint }
  | .redeem tokenId _ priorBacking spentUtxos createdUtxos =>
    { σ with
      backing := σ.backing.set tokenId priorBacking
      tokenUtxos := (σ.tokenUtxos.deleteAll (createdUtxos.map V3TokenUtxo.outpoint)).setAll
        (spentUtxos.map V3TokenUtxo.entry) }
  | .transfer _ spentUtxos createdUtxos =>
    { σ with
      tokenUtxos := (σ.tokenUtxos.deleteAll (createdUtxos.map V3TokenUtxo.outpoint)).setAll
        (spentUtxos.map V3TokenUtxo.entry) }
  | .burn _ spentUtxos =>
    { σ with tokenUtxos := σ.tokenUtxos.setAll (spentUtxos.map V3TokenUtxo.entry) }

/-- Reverse the block at a height. The block below it is looked up after the
record is deleted, so at height 0 there is none, as at height -1 in the source. -/
def undoBlock (C : Crypto) (cfg : V3IndexerConfig) (σ : V3IndexerState) (height : Nat) :
    Except Fault V3IndexerState := do
  let undo ← demand (σ.undoByHeight.get height) ⟨none, s!"no undo journal for height {height}"⟩
  let ledger := undo.ops.reverse.foldl undoOp σ.toLedger
  let undoByHeight := σ.undoByHeight.delete height
  let stateRoot := computeStateRoot C ledger
  return {
    toLedger := ledger
    events := σ.events.filter fun e => e.blockHeight ≠ height
    undoByHeight
    cursor := match undoByHeight.get (height - 1) with
      | some prior => ⟨cfg.network, height - 1, prior.blockHash, stateRoot⟩
      | none => ⟨cfg.network, 0, [], stateRoot⟩ }

end Cove
