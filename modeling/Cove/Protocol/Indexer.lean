import Cove.Protocol.Envelope
import Cove.Protocol.Ledger

/-! The V1 indexer: `packages/cove-indexer/src/indexer.ts`, over `parseCanonicalOpReturn` of
`packages/bitcoin/src/decoder.ts` and `packages/protocol/src/cove/mapper.ts`. -/

namespace Cove

open Checked

namespace Protocol

/-- Of an input, the script of the output it spends when that was resolved. -/
structure DecodedInput where
  prevScriptPubKey : Option Bytes := none
  deriving DecidableEq, Repr

structure DecodedOutput where
  index : Nat
  scriptPubKey : Bytes
  valueSats : Int
  deriving DecidableEq, Repr

structure BitcoinProtocolTx where
  txid : Bytes
  inputs : List DecodedInput
  outputs : List DecodedOutput
  deriving DecidableEq, Repr

/-- `OP_RETURN`, one minimal push, and nothing behind it. -/
def parseCanonicalOpReturn (script : Bytes) : Option Bytes :=
  if script.length < 2 ∨ script.getD 0 0 ≠ 0x6a then none
  else
    let len := script.getD 1 0
    if 1 ≤ len ∧ len ≤ 75 then
      if script.length ≠ 2 + len.toNat then none else some (script.slice 2 len.toNat)
    else if len = 0x4c ∧ 4 ≤ script.length then
      let l := script.getD 2 0
      if l < 76 then none
      else if script.length ≠ 3 + l.toNat then none
      else some (script.slice 3 l.toNat)
    else none

def protocolOutput (index : Nat) (role : String) (out : Option DecodedOutput) :
    List CoveProtocolOutput :=
  (out.map fun o => ⟨index, o.scriptPubKey, o.valueSats, role⟩).toList

/-- The actor is the owner of the first input. An unresolved or empty script names none. -/
def toCoveTransaction (btcTx : BitcoinProtocolTx) (envelope : CoveEnvelope) (txIndex : Nat) :
    Except String CoveTransaction := do
  let actor ← demand (btcTx.inputs.head?.bind DecodedInput.prevScriptPubKey)
    "MISSING_INPUT0_PREVOUT"
  ensure (actor ≠ []) "MISSING_INPUT0_PREVOUT"
  match envelope with
  | .deploy tick =>
    return {
      operation := .deploy
      txid := btcTx.txid
      txIndex
      actor
      ticker := some tick
      protocolOutputs := protocolOutput 1 "launch-fee" btcTx.outputs[1]? }
  | .mint tick amt s =>
    return {
      operation := .mint
      txid := btcTx.txid
      txIndex
      actor
      recipient := btcTx.outputs[1]?.map DecodedOutput.scriptPubKey
      ticker := some tick
      amountAtoms := some amt
      supplyBeforeAtoms := some s
      protocolOutputs := protocolOutput 1 "recipient" btcTx.outputs[1]? ++
        protocolOutput 2 "settlement" btcTx.outputs[2]? }
  | .transfer tick amt =>
    return {
      operation := .transfer
      txid := btcTx.txid
      txIndex
      actor
      recipient := btcTx.outputs[1]?.map DecodedOutput.scriptPubKey
      ticker := some tick
      amountAtoms := some amt
      protocolOutputs := protocolOutput 1 "recipient" btcTx.outputs[1]? ++
        protocolOutput 2 "continuation" btcTx.outputs[2]? }

inductive CoveTxClassification
  | nonCove
  | malformedCove
  | valid
  | invalid
  | multipleCoveOperations
  deriving DecidableEq, Repr

structure CoveIndexEvent where
  blockHeight : Int
  txIndex : Nat
  txid : Bytes
  operation : Option String
  classification : CoveTxClassification
  valid : Bool
  reason : Option String
  deriving DecidableEq, Repr

structure ProcessTxResult where
  classification : CoveTxClassification
  operation : Option String := none
  valid : Option Bool := none
  reason : Option String := none
  deriving DecidableEq, Repr

structure CoveIndexer where
  state : CoveState
  events : List CoveIndexEvent
  seenTxids : List Bytes
  processedBlocks : Nat
  processedTxs : Nat
  coveCandidateTxs : Nat
  validOps : Nat
  invalidOps : Nat
  lastHeight : Option Int
  deriving DecidableEq

def CoveIndexer.new (config : CoveConfig) : Except Fault CoveIndexer := do
  ensure (0 ≤ config.genesisHeight)
    ⟨none, s!"CoveConfig genesisHeight must be >= 0, got {config.genesisHeight}. " ++
      "A negative activation height is forbidden (no 'scan from before genesis' path)."⟩
  return {
    state := createCoveState
    events := []
    seenTxids := []
    processedBlocks := 0
    processedTxs := 0
    coveCandidateTxs := 0
    validOps := 0
    invalidOps := 0
    lastHeight := none }

/-- The outputs whose canonical payload starts with the magic. -/
def coveOutputs (outputs : List DecodedOutput) : List (Nat × Bytes) :=
  outputs.filterMap fun out =>
    if out.scriptPubKey = [0x6a] then none
    else
      (parseCanonicalOpReturn out.scriptPubKey).bind fun payload =>
        if isCoveMagic payload then some (out.index, payload) else none

def CoveEnvelope.op : CoveEnvelope → String
  | .deploy _ => "deploy"
  | .mint _ _ _ => "mint"
  | .transfer _ _ => "transfer"

def CoveOperationKind.name : CoveOperationKind → String
  | .deploy => "DEPLOY"
  | .mint => "MINT"
  | .transfer => "TRANSFER"

/-- An event that is not valid, counted and recorded, and what the caller is told. -/
def CoveIndexer.reject (ix : CoveIndexer) (height : Int) (txIndex : Nat) (txid : Bytes)
    (recorded told : Option String) (classification : CoveTxClassification) (reason : String) :
    CoveIndexer × ProcessTxResult :=
  ({ ix with
      invalidOps := ix.invalidOps + 1
      events := ix.events ++
        [⟨height, txIndex, txid, recorded, classification, false, some reason⟩] },
    { classification, operation := told, valid := some false, reason := some reason })

def CoveIndexer.processTx (config : CoveConfig) (ix : CoveIndexer) (height : Int) (txIndex : Nat)
    (btcTx : BitcoinProtocolTx) : Except Fault (CoveIndexer × ProcessTxResult) :=
  let ix := { ix with processedTxs := ix.processedTxs + 1 }
  match coveOutputs btcTx.outputs with
  | [] => .ok (ix, { classification := .nonCove })
  | coveOut :: more =>
    let ix := { ix with coveCandidateTxs := ix.coveCandidateTxs + 1 }
    if btcTx.txid ∈ ix.seenTxids then
      .ok (ix.reject height txIndex btcTx.txid none none .invalid "REPLAY")
    else
      let ix := { ix with seenTxids := btcTx.txid :: ix.seenTxids }
      if more ≠ [] then
        .ok (ix.reject height txIndex btcTx.txid none none .multipleCoveOperations
          "MULTIPLE_COVE_OPERATIONS")
      else if coveOut.1 ≠ 0 then
        .ok (ix.reject height txIndex btcTx.txid none none .invalid "WRONG_VOUT")
      else
        match decodeCoveEnvelope coveOut.2 with
        | .error reason =>
          .ok (ix.reject height txIndex btcTx.txid none none .malformedCove reason)
        | .ok envelope =>
          match toCoveTransaction btcTx envelope txIndex with
          | .error reason =>
            .ok (ix.reject height txIndex btcTx.txid (some envelope.op) (some envelope.op) .invalid
              reason)
          | .ok tx =>
            match validateCoveOperation ix.state tx config with
            | .error (.fault fault) => .error fault
            | .error (.invalid reason) =>
              .ok (ix.reject height txIndex btcTx.txid (some tx.operation.name)
                (some tx.operation.name) .invalid reason)
            | .ok () => do
              let state ← applyCoveOperation ix.state tx config
              return ({ ix with
                  state
                  validOps := ix.validOps + 1
                  events := ix.events ++ [⟨height, txIndex, btcTx.txid, some tx.operation.name,
                    .valid, true, none⟩] },
                { classification := .valid, operation := some tx.operation.name, valid := some true })

/-- The transactions of a block from an index on. -/
def CoveIndexer.processTxs (config : CoveConfig) (ix : CoveIndexer) (height : Int) :
    Nat → List BitcoinProtocolTx → Except Fault CoveIndexer
  | _, [] => .ok ix
  | i, tx :: txs => do
    let (ix, _) ← ix.processTx config height i tx
    ix.processTxs config height (i + 1) txs

/-- The next block is the one behind the last. -/
def CoveIndexer.follows (ix : CoveIndexer) (height : Int) : Bool :=
  ix.lastHeight.all fun last => height = last + 1

/-- The block is noted before its transactions are read. -/
def CoveIndexer.begin (ix : CoveIndexer) (height : Int) : CoveIndexer :=
  { ix with lastHeight := some height, processedBlocks := ix.processedBlocks + 1 }

/-- The errors a block may end in; of the broken invariants any may be the one thrown. -/
def CoveIndexer.processBlock (config : CoveConfig) (ix : CoveIndexer) (height : Int)
    (txs : List BitcoinProtocolTx) : Except (Multiset Fault) CoveIndexer := do
  ensure (config.genesisHeight ≤ height)
    {⟨none, s!"block {height} is below genesis {config.genesisHeight}"⟩}
  ensure (ix.follows height = true)
    {⟨none, s!"non-contiguous block height {height} (last {ix.lastHeight.getD 0})"⟩}
  let ix ← ((ix.begin height).processTxs config height 0 txs).mapError fun fault => {fault}
  assertCoveInvariants ix.state
  return ix

/-- The indexer behind some blocks. -/
inductive Indexed (config : CoveConfig) : List (Int × List BitcoinProtocolTx) → CoveIndexer → Prop
  | new {ix : CoveIndexer} (h : CoveIndexer.new config = .ok ix) : Indexed config [] ix
  | block {chain : List (Int × List BitcoinProtocolTx)} {ix ix' : CoveIndexer} {height : Int}
      {txs : List BitcoinProtocolTx} (before : Indexed config chain ix)
      (h : ix.processBlock config height txs = .ok ix') :
      Indexed config (chain ++ [(height, txs)]) ix'

/-! One transaction. -/

section

variable {config : CoveConfig} {ix ix' : CoveIndexer} {height : Int} {i : Nat}
  {btcTx : BitcoinProtocolTx}

/-- What a transaction does to the indexer: nothing but being counted, an event that is not valid,
or a valid operation with its event. -/
inductive TxStep (config : CoveConfig) (height : Int) (i : Nat) (btcTx : BitcoinProtocolTx)
    (ix : CoveIndexer) : CoveIndexer → Prop
  | ignored : TxStep config height i btcTx ix { ix with processedTxs := ix.processedTxs + 1 }
  | rejected {seen : List Bytes} {operation : Option String}
      {classification : CoveTxClassification} {reason : String}
      (hseen : ∀ x ∈ ix.seenTxids, x ∈ seen) :
      TxStep config height i btcTx ix { ix with
        processedTxs := ix.processedTxs + 1
        coveCandidateTxs := ix.coveCandidateTxs + 1
        seenTxids := seen
        invalidOps := ix.invalidOps + 1
        events := ix.events ++
          [⟨height, i, btcTx.txid, operation, classification, false, some reason⟩] }
  | applied {envelope : CoveEnvelope} {tx : CoveTransaction} {state : CoveState}
      (hfresh : btcTx.txid ∉ ix.seenTxids)
      (hmapped : toCoveTransaction btcTx envelope i = .ok tx)
      (hvalid : validateCoveOperation ix.state tx config = .ok ())
      (hstate : applyCoveOperation ix.state tx config = .ok state) :
      TxStep config height i btcTx ix { ix with
        processedTxs := ix.processedTxs + 1
        coveCandidateTxs := ix.coveCandidateTxs + 1
        seenTxids := btcTx.txid :: ix.seenTxids
        state
        validOps := ix.validOps + 1
        events := ix.events ++
          [⟨height, i, btcTx.txid, some tx.operation.name, .valid, true, none⟩] }

theorem toCoveTransaction_txid {envelope : CoveEnvelope} {tx : CoveTransaction}
    (h : toCoveTransaction btcTx envelope i = .ok tx) : tx.txid = btcTx.txid := by
  simp only [toCoveTransaction, bind_eq_ok] at h
  obtain ⟨actor, -, -, -, h⟩ := h
  cases envelope <;> cases h <;> rfl

/-- No transaction makes the indexer throw. -/
theorem processTx_step (hinv : CoveInv ix.seenTxids ix.state)
    (hfee : 0 ≤ config.primaryMintFeeBps) (height : Int) (i : Nat) (btcTx : BitcoinProtocolTx) :
    ∃ ix' told, ix.processTx config height i btcTx = .ok (ix', told) ∧
      TxStep config height i btcTx ix ix' := by
  unfold CoveIndexer.processTx
  cases houtputs : coveOutputs btcTx.outputs with
  | nil => exact ⟨_, _, rfl, .ignored⟩
  | cons coveOut more =>
    dsimp only
    by_cases hseen : btcTx.txid ∈ ix.seenTxids
    · rw [if_pos hseen]
      exact ⟨_, _, rfl, .rejected fun _ hx => hx⟩
    rw [if_neg hseen]
    have hmore : ∀ x ∈ ix.seenTxids, x ∈ btcTx.txid :: ix.seenTxids :=
      fun _ hx => List.mem_cons_of_mem _ hx
    by_cases hone : more ≠ []
    · rw [if_pos hone]
      exact ⟨_, _, rfl, .rejected hmore⟩
    rw [if_neg hone]
    by_cases hvout : coveOut.1 ≠ 0
    · rw [if_pos hvout]
      exact ⟨_, _, rfl, .rejected hmore⟩
    rw [if_neg hvout]
    cases hdecoded : decodeCoveEnvelope coveOut.2 with
    | error reason => exact ⟨_, _, rfl, .rejected hmore⟩
    | ok envelope =>
      cases hmapped : toCoveTransaction btcTx envelope i with
      | error reason =>
        simp only [hmapped]
        exact ⟨_, _, rfl, .rejected hmore⟩
      | ok tx =>
        cases hvalid : validateCoveOperation ix.state tx config with
        | error refusal =>
          cases refusal with
          | fault fault => exact (validate_told hinv hfee _ hvalid).elim
          | invalid reason =>
            simp only [hmapped, hvalid]
            exact ⟨_, _, rfl, .rejected hmore⟩
        | ok u =>
          have hfresh : tx.txid ∉ ix.seenTxids := by
            rw [toCoveTransaction_txid hmapped]
            exact hseen
          obtain ⟨state, hstate, -⟩ := operation_applies hinv hfresh hvalid
          simp only [hmapped, hvalid, hstate, bind, Except.bind]
          exact ⟨_, _, rfl, .applied hseen hmapped hvalid hstate⟩

/-- What holds of the indexer between transactions, whatever chain it has read. -/
structure IndexerInv (ix : CoveIndexer) : Prop where
  ledger : CoveInv ix.seenTxids ix.state
  excess_nonneg : 0 ≤ ix.state.excess
  excess_le : ix.state.excess ≤
    (ix.events.filter fun e => e.valid && e.operation = some "MINT").length
  valid : ix.validOps = (ix.events.filter CoveIndexEvent.valid).length
  invalid : ix.validOps + ix.invalidOps = ix.events.length
  candidates : ix.coveCandidateTxs = ix.events.length

theorem IndexerInv.step (h : IndexerInv ix) (hstep : TxStep config height i btcTx ix ix') :
    IndexerInv ix' := by
  cases hstep with
  | ignored => exact ⟨h.ledger, h.excess_nonneg, h.excess_le, h.valid, h.invalid, h.candidates⟩
  | rejected hseen =>
    have hinvalid := h.invalid
    have hcandidates := h.candidates
    refine ⟨h.ledger.mono hseen, h.excess_nonneg, ?_, ?_, ?_, ?_⟩
    · simpa using h.excess_le
    · simpa using h.valid
    · rw [List.length_append, List.length_singleton]
      dsimp only
      omega
    · rw [List.length_append, List.length_singleton, hcandidates]
  | @applied envelope tx state hfresh hmapped hvalid hstate =>
    have htxid := toCoveTransaction_txid hmapped
    have hinvalid := h.invalid
    have hcandidates := h.candidates
    obtain ⟨state', hstate', hledger, hbooked⟩ :=
      operation_applies h.ledger (by rw [htxid]; exact hfresh) hvalid
    rw [hstate, Except.ok.injEq] at hstate'
    subst hstate'
    have hlow := hbooked.excess_le
    have hhigh := hbooked.excess_ge
    have hnonneg := h.excess_nonneg
    have hle := h.excess_le
    refine ⟨by rw [← htxid]; exact hledger, by dsimp only; omega, ?_, ?_, ?_, ?_⟩
    · have hname : tx.operation = .mint ↔ some tx.operation.name = some "MINT" := by
        cases tx.operation <;> decide
      rw [List.filter_append, List.length_append]
      by_cases hmint : tx.operation = .mint
      · rw [if_pos hmint] at hhigh
        simp only [List.filter_cons, Bool.true_and, hname.mp hmint, decide_true, if_true,
          List.filter_nil, List.length_singleton]
        push_cast
        omega
      · rw [if_neg hmint] at hhigh
        push_cast
        omega
    · have hcount := h.valid
      rw [List.filter_append, List.length_append]
      simp only [List.filter_cons, if_true, List.filter_nil, List.length_singleton]
      rw [hcount]
    · rw [List.length_append, List.length_singleton]
      dsimp only
      omega
    · rw [List.length_append, List.length_singleton, hcandidates]

/-- The assertion behind each block holds. -/
theorem assertCoveInvariants_ok {seen : List Bytes} {σ : CoveState} (h : CoveInv seen σ) :
    assertCoveInvariants σ = .ok () := by
  rw [assertCoveInvariants, ensure_eq_ok, Multiset.eq_zero_iff_forall_notMem]
  intro fault hfault
  obtain ⟨e, he, hbroken⟩ := (Multiset.mem_filterMap _ _).mp hfault
  have ht := h.tokens e.1 e.2 (Dict.mem_entries.mp he)
  have hrange : ¬(e.2.confirmedSupplyAtoms < 0 ∨
      e.2.publicSupplyAtoms < e.2.confirmedSupplyAtoms) := by
    have h0 := ht.supply_nonneg
    have hmax := ht.supply_le
    rw [ht.cap]
    omega
  have hsigns : (σ.balances.values.filter fun m => heldOf m e.1 < 0) = 0 := by
    rw [Multiset.filter_eq_nil]
    intro m hm hneg
    obtain ⟨owner, howner⟩ := Dict.mem_values.mp hm
    have hnonneg := h.balances.held_nonneg howner e.1
    omega
  rw [tokenFault, if_neg hrange, if_neg (not_not.mpr ht.indexed), if_neg (not_not.mpr hsigns),
    if_neg (not_not.mpr ht.conserved)] at hbroken
  cases hbroken

/-! A block, and a chain of them. -/

theorem processTxs_ok (hinv : IndexerInv ix) (hfee : 0 ≤ config.primaryMintFeeBps) (height : Int)
    (i : Nat) (txs : List BitcoinProtocolTx) :
    ∃ ix', ix.processTxs config height i txs = .ok ix' ∧ IndexerInv ix' ∧
      ix'.lastHeight = ix.lastHeight := by
  induction txs generalizing ix i with
  | nil => exact ⟨ix, rfl, hinv, rfl⟩
  | cons tx txs ih =>
    obtain ⟨ix₁, told, hrun, hstep⟩ := processTx_step hinv.ledger hfee height i tx
    obtain ⟨ix', hrest, hinv', hlast⟩ := ih (hinv.step hstep) (i + 1)
    refine ⟨ix', ?_, hinv', ?_⟩
    · rw [CoveIndexer.processTxs, hrun]
      exact hrest
    · rw [hlast]
      cases hstep <;> rfl

theorem IndexerInv.begin (h : IndexerInv ix) (height : Int) : IndexerInv (ix.begin height) :=
  ⟨h.ledger, h.excess_nonneg, h.excess_le, h.valid, h.invalid, h.candidates⟩

/-- A block is taken when its height is the next one, and its transactions are read in turn. -/
theorem processBlock_eq_ok (hinv : IndexerInv ix) (hfee : 0 ≤ config.primaryMintFeeBps)
    {txs : List BitcoinProtocolTx} :
    ix.processBlock config height txs = .ok ix' ↔
      config.genesisHeight ≤ height ∧ ix.follows height = true ∧
        (ix.begin height).processTxs config height 0 txs = .ok ix' := by
  simp only [CoveIndexer.processBlock, bind_eq_ok, ensure_eq_ok, mapError_eq_ok, pure_eq_ok]
  constructor
  · rintro ⟨-, hgenesis, -, hfollows, ix₁, hrun, -, -, rfl⟩
    exact ⟨hgenesis, hfollows, hrun⟩
  · rintro ⟨hgenesis, hfollows, hrun⟩
    obtain ⟨ix₁, hrun₁, hinv₁, -⟩ := processTxs_ok (hinv.begin height) hfee height 0 txs
    rw [hrun, Except.ok.injEq] at hrun₁
    subst hrun₁
    exact ⟨(), hgenesis, (), hfollows, ix', hrun, (), assertCoveInvariants_ok hinv₁.ledger, rfl⟩

theorem IndexerInv.block (hinv : IndexerInv ix) (hfee : 0 ≤ config.primaryMintFeeBps)
    {txs : List BitcoinProtocolTx} (h : ix.processBlock config height txs = .ok ix') :
    IndexerInv ix' ∧ ix'.lastHeight = some height := by
  obtain ⟨-, -, hrun⟩ := (processBlock_eq_ok hinv hfee).mp h
  obtain ⟨ix₁, hrun₁, hinv₁, hlast⟩ := processTxs_ok (hinv.begin height) hfee height 0 txs
  rw [hrun, Except.ok.injEq] at hrun₁
  subst hrun₁
  exact ⟨hinv₁, hlast⟩

theorem IndexerInv.new {config : CoveConfig} (h : CoveIndexer.new config = .ok ix) :
    IndexerInv ix := by
  simp only [CoveIndexer.new, bind_eq_ok, pure_eq_ok] at h
  obtain ⟨-, -, rfl⟩ := h
  exact ⟨CoveInv.new [], le_refl 0, le_refl 0, rfl, rfl, rfl⟩

theorem Indexed.inv {chain : List (Int × List BitcoinProtocolTx)}
    (hfee : 0 ≤ config.primaryMintFeeBps) (h : Indexed config chain ix) : IndexerInv ix := by
  induction h with
  | new h => exact .new h
  | block before hblock ih => exact (ih.block hfee hblock).1

/-- Along every chain the ledger is sound, and the next block is taken exactly when its height is
the next one: nothing that validation accepts makes pricing or application throw, and the
assertion behind the block never fires. -/
theorem indexer_never_throws {chain : List (Int × List BitcoinProtocolTx)}
    (hfee : 0 ≤ config.primaryMintFeeBps) (h : Indexed config chain ix) :
    CoveInv ix.seenTxids ix.state ∧
      ∀ height txs, (∃ ix', ix.processBlock config height txs = .ok ix') ↔
        config.genesisHeight ≤ height ∧ ix.follows height = true := by
  have hinv := h.inv hfee
  refine ⟨hinv.ledger, fun height txs => ?_⟩
  constructor
  · rintro ⟨ix', hblock⟩
    obtain ⟨hgenesis, hfollows, -⟩ := (processBlock_eq_ok hinv hfee).mp hblock
    exact ⟨hgenesis, hfollows⟩
  · rintro ⟨hgenesis, hfollows⟩
    obtain ⟨ix', hrun, -, -⟩ := processTxs_ok (hinv.begin height) hfee height 0 txs
    exact ⟨ix', (processBlock_eq_ok hinv hfee).mpr ⟨hgenesis, hfollows, hrun⟩⟩

/-! What was paid for. -/

/-- The transaction an event is about. -/
def txAt (chain : List (Int × List BitcoinProtocolTx)) (height : Int) (i : Nat) :
    Option BitcoinProtocolTx :=
  (chain.find? fun block => block.1 = height).bind fun block => block.2[i]?

/-- What an output pays to a script. -/
def paidTo (script : Bytes) (out : Option DecodedOutput) : Int :=
  ((out.filter fun o => o.scriptPubKey = script).map DecodedOutput.valueSats).getD 0

/-- What the transaction of an event pays to the configured script, when it is a valid operation:
a deploy its second output to the treasury, a mint its third to the settlement script. -/
def receiptOf (config : CoveConfig) (chain : List (Int × List BitcoinProtocolTx))
    (e : CoveIndexEvent) : Int :=
  if e.valid then
    ((txAt chain e.blockHeight e.txIndex).map fun tx =>
      if e.operation = some "DEPLOY" then paidTo config.treasuryScript tx.outputs[1]?
      else if e.operation = some "MINT" then paidTo config.settlementScript tx.outputs[2]?
      else 0).getD 0
  else 0

theorem receipt_of_deploy {envelope : CoveEnvelope} {tx : CoveTransaction} {σ : CoveState}
    (hmapped : toCoveTransaction btcTx envelope i = .ok tx) (hop : tx.operation = .deploy)
    (hvalid : validateCoveOperation σ tx config = .ok ()) :
    tx.receipt = paidTo config.treasuryScript btcTx.outputs[1]? := by
  rw [validateCoveOperation, hop] at hvalid
  obtain ⟨out, hout, -, hscript, -⟩ := (validateDeploy_ok hvalid).fee
  simp only [toCoveTransaction, bind_eq_ok] at hmapped
  obtain ⟨actor, -, -, -, hmapped⟩ := hmapped
  cases envelope with
  | deploy tick =>
    rw [pure_eq_ok] at hmapped
    subst hmapped
    rw [CoveTransaction.receipt]
    dsimp only at hout ⊢
    rw [hout]
    cases hat : btcTx.outputs[1]? with
    | none =>
      rw [hat] at hout
      cases hout
    | some o =>
      rw [hat] at hout
      have hfound : some (⟨1, o.scriptPubKey, o.valueSats, "launch-fee"⟩ : CoveProtocolOutput) =
          some out := hout
      cases hfound
      rw [paidTo, Option.filter_some, if_pos (decide_eq_true hscript)]
      rfl
  | mint tick amt s =>
    cases hmapped
    cases hop
  | transfer tick amt =>
    cases hmapped
    cases hop

theorem receipt_of_mint {envelope : CoveEnvelope} {tx : CoveTransaction} {σ : CoveState}
    (hmapped : toCoveTransaction btcTx envelope i = .ok tx) (hop : tx.operation = .mint)
    (hvalid : validateCoveOperation σ tx config = .ok ()) :
    tx.receipt = paidTo config.settlementScript btcTx.outputs[2]? := by
  rw [validateCoveOperation, hop] at hvalid
  obtain ⟨t, cost, fee, hp⟩ := validateMint_ok hvalid
  obtain ⟨out, hout, -, hscript, -⟩ := hp.settled
  simp only [toCoveTransaction, bind_eq_ok] at hmapped
  obtain ⟨actor, -, -, -, hmapped⟩ := hmapped
  cases envelope with
  | deploy tick =>
    cases hmapped
    cases hop
  | mint tick amt s =>
    rw [pure_eq_ok] at hmapped
    subst hmapped
    rw [CoveTransaction.receipt]
    dsimp only at hout ⊢
    rw [hout]
    have hsettled : findRole (protocolOutput 2 "settlement" btcTx.outputs[2]?) "settlement" =
        some out := by
      cases hfirst : btcTx.outputs[1]? with
      | none =>
        rw [hfirst] at hout
        exact hout
      | some o =>
        rw [hfirst] at hout
        exact hout
    cases hat : btcTx.outputs[2]? with
    | none =>
      rw [hat] at hsettled
      cases hsettled
    | some o =>
      rw [hat] at hsettled
      have hfound : some (⟨2, o.scriptPubKey, o.valueSats, "settlement"⟩ : CoveProtocolOutput) =
          some out := hsettled
      cases hfound
      rw [paidTo, Option.filter_some, if_pos (decide_eq_true hscript)]
      rfl
  | transfer tick amt =>
    cases hmapped
    cases hop

/-- The event of a valid operation tells what it paid. -/
theorem receiptOf_applied {chain : List (Int × List BitcoinProtocolTx)} {envelope : CoveEnvelope}
    {tx : CoveTransaction} {σ : CoveState} (hat : txAt chain height i = some btcTx)
    (hmapped : toCoveTransaction btcTx envelope i = .ok tx)
    (hvalid : validateCoveOperation σ tx config = .ok ()) :
    receiptOf config chain
      ⟨height, i, btcTx.txid, some tx.operation.name, .valid, true, none⟩ = tx.receipt := by
  rw [receiptOf, if_pos rfl]
  dsimp only
  rw [hat, Option.map_some, Option.getD_some]
  cases hop : tx.operation with
  | deploy =>
    rw [receipt_of_deploy hmapped hop hvalid]
    exact if_pos rfl
  | mint =>
    rw [receipt_of_mint hmapped hop hvalid, if_neg (by decide)]
    exact if_pos rfl
  | transfer =>
    rw [CoveTransaction.receipt, hop, if_neg (by decide), if_neg (by decide)]

/-- The books after a chain: what was kept is what the valid operations paid. -/
structure Books (config : CoveConfig) (chain : List (Int × List BitcoinProtocolTx))
    (ix : CoveIndexer) : Prop where
  total : ix.state.reserveSats + ix.state.platformTreasurySats =
    (ix.events.map (receiptOf config chain)).sum
  logged : ∀ e ∈ ix.events, ∃ block ∈ chain, block.1 = e.blockHeight

theorem Books.step {chain : List (Int × List BitcoinProtocolTx)} (h : Books config chain ix)
    (hinv : IndexerInv ix) (hat : txAt chain height i = some btcTx)
    (hstep : TxStep config height i btcTx ix ix') : Books config chain ix' := by
  have hheight : ∃ block ∈ chain, block.1 = height := by
    rw [txAt] at hat
    obtain ⟨block, hblock, -⟩ := Option.bind_eq_some_iff.mp hat
    exact ⟨block, List.mem_of_find?_eq_some hblock, by simpa using List.find?_some hblock⟩
  have hmore (e : CoveIndexEvent) (he : e.blockHeight = height) :
      ∀ e' ∈ ix.events ++ [e], ∃ block ∈ chain, block.1 = e'.blockHeight := by
    intro e' he'
    rcases List.mem_append.mp he' with hold | hnew
    · exact h.logged e' hold
    · rw [List.mem_singleton.mp hnew, he]
      exact hheight
  cases hstep with
  | ignored => exact ⟨h.total, h.logged⟩
  | rejected hseen =>
    refine ⟨?_, hmore _ rfl⟩
    rw [List.map_append, List.sum_append, ← h.total]
    exact (add_zero _).symm
  | @applied envelope tx state hfresh hmapped hvalid hstate =>
    have htxid := toCoveTransaction_txid hmapped
    obtain ⟨state', hstate', -, hbooked⟩ :=
      operation_applies hinv.ledger (by rw [htxid]; exact hfresh) hvalid
    rw [hstate, Except.ok.injEq] at hstate'
    subst hstate'
    refine ⟨?_, hmore _ rfl⟩
    rw [List.map_append, List.sum_append, ← h.total, List.map_singleton, List.sum_singleton,
      receiptOf_applied hat hmapped hvalid]
    exact hbooked.settled

theorem Books.txs {chain : List (Int × List BitcoinProtocolTx)} (h : Books config chain ix)
    (hinv : IndexerInv ix) (hfee : 0 ≤ config.primaryMintFeeBps) {txs : List BitcoinProtocolTx}
    (hat : ∀ k, txAt chain height (i + k) = txs[k]?)
    (hrun : ix.processTxs config height i txs = .ok ix') : Books config chain ix' := by
  induction txs generalizing ix i with
  | nil =>
    cases hrun
    exact h
  | cons tx txs ih =>
    obtain ⟨ix₁, told, hfirst, hstep⟩ := processTx_step hinv.ledger hfee height i tx
    rw [CoveIndexer.processTxs, hfirst] at hrun
    refine ih (h.step hinv (hat 0) hstep) (hinv.step hstep) ?_ hrun
    intro k
    rw [Nat.add_assoc, Nat.add_comm 1 k, hat (k + 1), List.getElem?_cons_succ]

/-- A block at a height of its own leaves what the others say. -/
theorem txAt_append {chain : List (Int × List BitcoinProtocolTx)} {h : Int}
    (hknown : ∃ block ∈ chain, block.1 = h) (block : Int × List BitcoinProtocolTx)
    (k : Nat) : txAt (chain ++ [block]) h k = txAt chain h k := by
  obtain ⟨known, hmem, hheight⟩ := hknown
  have hfound : (chain.find? fun block => block.1 = h).isSome := by
    rw [List.find?_isSome]
    exact ⟨known, hmem, by simpa using hheight⟩
  obtain ⟨first, hfirst⟩ := Option.isSome_iff_exists.mp hfound
  rw [txAt, txAt, List.find?_append, hfirst, Option.some_or]

theorem txAt_last {chain : List (Int × List BitcoinProtocolTx)} {txs : List BitcoinProtocolTx}
    (hnew : ∀ block ∈ chain, block.1 ≠ height) (k : Nat) :
    txAt (chain ++ [(height, txs)]) height k = txs[k]? := by
  have hnone : (chain.find? fun block => block.1 = height) = none := by
    rw [List.find?_eq_none]
    intro block hblock
    simpa using hnew block hblock
  rw [txAt, List.find?_append, hnone, Option.none_or]
  simp

/-- The next height lies behind every block read so far. -/
def Before (chain : List (Int × List BitcoinProtocolTx)) (ix : CoveIndexer) : Prop :=
  ∀ block ∈ chain, ∃ last, ix.lastHeight = some last ∧ block.1 ≤ last

theorem Before.next {chain : List (Int × List BitcoinProtocolTx)} (h : Before chain ix)
    (hfollows : ix.follows height = true) {block : Int × List BitcoinProtocolTx}
    (hmem : block ∈ chain) : block.1 < height := by
  obtain ⟨last, hlast, hle⟩ := h block hmem
  rw [CoveIndexer.follows, hlast] at hfollows
  have heq : height = last + 1 := by simpa using hfollows
  omega

theorem Indexed.before {chain : List (Int × List BitcoinProtocolTx)}
    (hfee : 0 ≤ config.primaryMintFeeBps) (h : Indexed config chain ix) : Before chain ix := by
  induction h with
  | new h => exact fun block hmem => absurd hmem List.not_mem_nil
  | @block chain ix ix' height txs before hblock ih =>
    have hfollows := ((processBlock_eq_ok (before.inv hfee) hfee).mp hblock).2.1
    intro block hmem
    refine ⟨height, ((before.inv hfee).block hfee hblock).2, ?_⟩
    rcases List.mem_append.mp hmem with hold | hnew
    · exact (ih.next hfollows hold).le
    · rw [List.mem_singleton.mp hnew]

theorem Indexed.books {chain : List (Int × List BitcoinProtocolTx)}
    (hfee : 0 ≤ config.primaryMintFeeBps) (h : Indexed config chain ix) : Books config chain ix := by
  induction h with
  | new h =>
    simp only [CoveIndexer.new, bind_eq_ok, pure_eq_ok] at h
    obtain ⟨-, -, rfl⟩ := h
    exact ⟨rfl, fun e he => absurd he List.not_mem_nil⟩
  | @block chain ix ix' height txs before hblock ih =>
    have hinv := before.inv hfee
    obtain ⟨-, hfollows, hrun⟩ := (processBlock_eq_ok hinv hfee).mp hblock
    have hbegun : Books config (chain ++ [(height, txs)]) (ix.begin height) := by
      refine ⟨?_, ?_⟩
      · refine ih.total.trans (congrArg List.sum (List.map_congr_left ?_))
        intro e he
        rw [receiptOf, receiptOf, txAt_append (ih.logged e he)]
      · intro e he
        obtain ⟨block, hmem, hheight⟩ := ih.logged e he
        exact ⟨block, List.mem_append_left _ hmem, hheight⟩
    refine hbegun.txs (hinv.begin height) hfee ?_ hrun
    intro k
    rw [Nat.zero_add]
    exact txAt_last (fun block hmem => ((before.before hfee).next hfollows hmem).ne) k

/-- The books balance on every chain: the reserve and the treasury together hold what the valid
operations paid to the configured scripts, and the reserve alone covers the price of all tokens
sold, with at most one rounding a mint above it. -/
theorem books_balance {chain : List (Int × List BitcoinProtocolTx)}
    (hfee : 0 ≤ config.primaryMintFeeBps) (h : Indexed config chain ix) :
    ix.state.reserveSats + ix.state.platformTreasurySats =
        (ix.events.map (receiptOf config chain)).sum ∧
      ix.state.priceOfSupply ≤ ix.state.reserveSats ∧
      ix.state.reserveSats ≤ ix.state.priceOfSupply +
        (ix.events.filter fun e => e.valid && e.operation = some "MINT").length := by
  have hinv := h.inv hfee
  have hlow := hinv.excess_nonneg
  have hhigh := hinv.excess_le
  unfold CoveState.excess at hlow hhigh
  exact ⟨(h.books hfee).total, by omega, by omega⟩

end

/-! A deploy and a mint on the regtest configuration. -/

def coveV1RegtestConfig : CoveConfig where
  network := .regtest
  genesisHeight := 1
  settlementScript := [0x00, 0x14] ++ List.replicate 20 0x11
  treasuryScript := [0x00, 0x14] ++ List.replicate 20 0x22
  launchFeeSats := 10000
  primaryMintFeeBps := 100
  minContributionSats := 1000
  maxFeeRateSatVb := 50
  maxMinerFeeSats := 50000

def sampleOwner : Bytes := [0x00, 0x14] ++ List.replicate 20 0x33

def sampleEnvelope (payload : Bytes) : DecodedOutput :=
  ⟨0, 0x6a :: UInt8.ofNat payload.length :: payload, 0⟩

def sampleDeploy : BitcoinProtocolTx where
  txid := List.replicate 32 1
  inputs := [⟨some sampleOwner⟩]
  outputs := [sampleEnvelope (layout opDeploy (Bytes.ascii "COVE") []),
    ⟨1, coveV1RegtestConfig.treasuryScript, 10000⟩]

/-- Forty thousand tokens, for 1080 sats and a fee of 11. -/
def sampleMint : BitcoinProtocolTx where
  txid := List.replicate 32 2
  inputs := [⟨some sampleOwner⟩]
  outputs := [sampleEnvelope (layout opMint (Bytes.ascii "COVE")
      (Bytes.ofNatBE 8 4000000000000 ++ Bytes.ofNatBE 8 0)),
    ⟨1, sampleOwner, 1000⟩, ⟨2, coveV1RegtestConfig.settlementScript, 1091⟩]

theorem sample_indexed : ∃ ix, Indexed coveV1RegtestConfig [(1, [sampleDeploy, sampleMint])] ix ∧
    ix.state.reserveSats = 1080 := by
  have hrun : ((CoveIndexer.new coveV1RegtestConfig).toOption.bind fun ix =>
      (ix.processBlock coveV1RegtestConfig 1 [sampleDeploy, sampleMint]).toOption).map
        (fun ix => ix.state.reserveSats) = some 1080 := by decide +kernel
  obtain ⟨ix', hblock, hreserve⟩ := Option.map_eq_some_iff.mp hrun
  obtain ⟨ix, hnew, hblock⟩ := Option.bind_eq_some_iff.mp hblock
  rw [toOption_eq_some] at hnew hblock
  exact ⟨ix', .block (.new hnew) hblock, hreserve⟩

theorem indexer_never_throws_sample : ∃ ix : CoveIndexer, ix.state.reserveSats = 1080 ∧
    CoveInv ix.seenTxids ix.state ∧
      ∀ height txs, (∃ ix', ix.processBlock coveV1RegtestConfig height txs = .ok ix') ↔
        coveV1RegtestConfig.genesisHeight ≤ height ∧ ix.follows height = true := by
  obtain ⟨ix, hix, hreserve⟩ := sample_indexed
  exact ⟨ix, hreserve, indexer_never_throws (by decide) hix⟩

theorem books_balance_sample : ∃ ix : CoveIndexer, ix.state.reserveSats = 1080 ∧
    ix.state.reserveSats + ix.state.platformTreasurySats =
        (ix.events.map (receiptOf coveV1RegtestConfig [(1, [sampleDeploy, sampleMint])])).sum ∧
      ix.state.priceOfSupply ≤ ix.state.reserveSats ∧
      ix.state.reserveSats ≤ ix.state.priceOfSupply +
        (ix.events.filter fun e => e.valid && e.operation = some "MINT").length := by
  obtain ⟨ix, hix, hreserve⟩ := sample_indexed
  exact ⟨ix, hreserve, books_balance (by decide) hix⟩

end Protocol

end Cove
