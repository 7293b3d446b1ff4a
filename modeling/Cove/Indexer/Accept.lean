import Cove.Covenant.Transition
import Cove.Indexer.State

/-! When the indexer accepts an operation, and what an accepted one changes. Each
acceptance is a record of the values the operation computes and the checks they pass. -/

namespace Cove

open Checked

/-- What a valid operation changes in the maps. -/
structure Effect where
  tokenId : Bytes
  newMeta : Option V3TokenMeta := none
  newBacking : Option V3Backing := none
  spent : List V3TokenUtxo := []
  created : List V3TokenUtxo := []

def Ledger.perform (σ : Ledger) (e : Effect) : Ledger where
  tokens := e.newMeta.elim σ.tokens (σ.tokens.set e.tokenId)
  backing := e.newBacking.elim σ.backing (σ.backing.set e.tokenId)
  tokenUtxos := (σ.moveCarriers e.spent e.created).tokenUtxos

section Acceptance

variable (C : Crypto) (cfg : V3IndexerConfig) (block : V3BlockInput) (σ : Ledger)
  (tx : Transaction)

structure DeployAccepted (policyVersion : Nat) (ticker tokenNonce : Bytes) where
  creatorOut : TxOut
  tokenId : Bytes
  s0 : CoveStateV2
  vault : CoveVaultV3
  s0Out : TxOut
  stateHash : Bytes
  creator_get : tx.outs[2]? = some creatorOut
  creator_ok : (creatorOut.value : Int) = creatorRecordSats ∧ isCreatorScript creatorOut.script
  tokenId_eq : computeTokenId C
    ⟨cfg.chainIdentity, policyVersion, ticker, tokenNonce, creatorOut.script⟩ = .ok tokenId
  fresh : σ.tokens.has tokenId = false
  s0_eq : s0StateV2 tokenId = .ok s0
  vault_eq : buildBackingVaultV3 C s0 cfg.vaultKeys = .ok vault
  s0Out_get : tx.outs[1]? = some s0Out
  s0Out_script : s0Out.script = vault.scriptPubKey
  s0Out_value : (s0Out.value : Int) = reserveAnchorSats
  stateHash_eq : stateHashV2 C s0 = .ok stateHash

structure MintAccepted (tokenId : Bytes) (amount : Int) (recipientVout : Nat) where
  tokenMeta : V3TokenMeta
  backing : V3Backing
  ins0 : TxIn
  canonical : TransitionV2Result
  feeSats : Int
  nextVault : CoveVaultV3
  successor : TxOut
  carrier : TxOut
  feeOut : TxOut
  creatorOut : TxOut
  creatorFee : Int
  stateHash : Bytes
  meta_get : σ.tokens.get tokenId = some tokenMeta
  backing_get : σ.backing.get tokenId = some backing
  ins0_get : tx.ins[0]? = some ins0
  ins0_outpoint : ins0.outpoint = backing.outpoint
  canonical_eq : applyMintV2 backing.state amount = .ok canonical
  fee_eq : mintFeeSats canonical.grossSats amount (cfg.buyFeeBps.getD coveFeeConfig.buyFeeBps)
    (cfg.buyFeeFlatSats.getD coveFeeConfig.buyFeeFlatSats) coveFeeConfig.buyFeeLotSats = .ok feeSats
  vault_eq : buildBackingVaultV3 C canonical.nextState cfg.vaultKeys = .ok nextVault
  successor_get : tx.outs[1]? = some successor
  successor_script : successor.script = nextVault.scriptPubKey
  successor_value : (successor.value : Int) = reserveAnchorSats + canonical.nextState.backingSats
  vout_eq : recipientVout = 2
  carrier_get : tx.outs[2]? = some carrier
  carrier_ok : (carrier.value : Int) = tokenCarrierSats ∧ isStandardCarrier carrier.script
  feeOut_get : tx.outs[3]? = some feeOut
  feeOut_ok : (feeOut.value : Int) = feeSats ∧ feeOut.script = cfg.feeScript
  creator_get : tx.outs[4]? = some creatorOut
  creatorFee_eq : creatorFeeSats canonical.grossSats
    (cfg.creatorFeeBps.getD coveFeeConfig.creatorFeeBps) = .ok creatorFee
  creator_ok : (creatorOut.value : Int) = creatorFee ∧ creatorOut.script = tokenMeta.creatorScript
  stateHash_eq : stateHashV2 C canonical.nextState = .ok stateHash

structure TransferAccepted (tokenId : Bytes) (allocations : List TokenAllocation) where
  spentUtxos : List V3TokenUtxo
  createdUtxos : List V3TokenUtxo
  known : σ.tokens.has tokenId = true
  spent_eq : resolveTokenInputs σ tx tokenId = .ok spentUtxos
  conserved : sumAtoms spentUtxos = sumAllocations allocations
  created_eq : transferCarriers C block tx tokenId allocations = .ok createdUtxos

structure RedeemAccepted (tokenId : Bytes) (redeemAmount : Int)
    (changeAllocations : List TokenAllocation) where
  tokenMeta : V3TokenMeta
  backing : V3Backing
  ins0 : TxIn
  spentUtxos : List V3TokenUtxo
  canonical : TransitionV2Result
  feeSats : Int
  nextVault : CoveVaultV3
  successor : TxOut
  payout : TxOut
  feeOut : TxOut
  createdUtxos : List V3TokenUtxo
  stateHash : Bytes
  meta_get : σ.tokens.get tokenId = some tokenMeta
  backing_get : σ.backing.get tokenId = some backing
  ins0_get : tx.ins[0]? = some ins0
  ins0_outpoint : ins0.outpoint = backing.outpoint
  spent_eq : resolveTokenInputs σ tx tokenId = .ok spentUtxos
  change_nonneg : 0 ≤ sumAtoms spentUtxos - redeemAmount
  change_eq : sumAllocations changeAllocations = sumAtoms spentUtxos - redeemAmount
  canonical_eq : applyRedeemV2 backing.state redeemAmount = .ok canonical
  fee_eq : redeemFeeSats canonical.grossSats (cfg.redeemFeeBps.getD coveFeeConfig.redeemFeeBps)
    (cfg.redeemFeeFlatSats.getD coveFeeConfig.redeemFeeFlatSats) coveFeeConfig.redeemFeeMinSats =
      .ok feeSats
  vault_eq : buildBackingVaultV3 C canonical.nextState cfg.vaultKeys = .ok nextVault
  successor_get : tx.outs[1]? = some successor
  successor_script : successor.script = nextVault.scriptPubKey
  successor_value : (successor.value : Int) = reserveAnchorSats + canonical.nextState.backingSats
  payout_get : tx.outs[2]? = some payout
  payout_value : (payout.value : Int) = canonical.grossSats - feeSats
  feeOut_get : tx.outs[3]? = some feeOut
  feeOut_ok : (feeOut.value : Int) = feeSats ∧ feeOut.script = cfg.feeScript
  created_eq : redeemCarriers C block tx tokenId (sumAtoms spentUtxos - redeemAmount)
    changeAllocations = .ok createdUtxos
  stateHash_eq : stateHashV2 C canonical.nextState = .ok stateHash

variable {C cfg block σ tx}

/-! The record each acceptance writes, and its undo entry. -/

/-- A backing record as each of the three writers fills it in. -/
def backingAt (C : Crypto) (block : V3BlockInput) (tx : Transaction) (tokenId : Bytes)
    (state : CoveStateV2) (stateHash scriptPubKey : Bytes) (btcValue : Int) : V3Backing where
  tokenId := tokenId
  state := state
  stateHash := stateHash
  outpoint := ⟨tx.getId C, 1⟩
  scriptPubKey := scriptPubKey
  btcValue := btcValue
  updatedTxid := tx.getId C
  updatedHeight := block.height
  updatedBlockHash := block.hash

namespace DeployAccepted

variable {policyVersion : Nat} {ticker tokenNonce : Bytes}
  (a : DeployAccepted C cfg σ tx policyVersion ticker tokenNonce)

def nextBacking (block : V3BlockInput) : V3Backing :=
  backingAt C block tx a.tokenId a.s0 a.stateHash a.vault.scriptPubKey reserveAnchorSats

def tokenMeta (block : V3BlockInput) : V3TokenMeta where
  tokenId := a.tokenId
  ticker := ticker
  policyVersion := policyVersion
  tokenNonce := tokenNonce
  deployTxid := tx.getId C
  deployHeight := block.height
  deployBlockHash := block.hash
  creatorScript := a.creatorOut.script

def effect (block : V3BlockInput) : Effect where
  tokenId := a.tokenId
  newMeta := some (a.tokenMeta block)
  newBacking := some (a.nextBacking block)

def undo : UndoOp := .deploy a.tokenId

def result : ApplyResult := ⟨some .deploy, true, none, some a.tokenId, some a.undo, none⟩

end DeployAccepted

namespace MintAccepted

variable {tokenId : Bytes} {amount : Int} {recipientVout : Nat}
  (a : MintAccepted C cfg σ tx tokenId amount recipientVout)

def nextBacking (block : V3BlockInput) : V3Backing :=
  backingAt C block tx tokenId a.canonical.nextState a.stateHash a.nextVault.scriptPubKey
    (reserveAnchorSats + a.canonical.nextState.backingSats)

def createdUtxo (block : V3BlockInput) : V3TokenUtxo where
  txid := tx.getId C
  vout := 2
  tokenId := tokenId
  amountAtoms := amount
  scriptPubKey := a.carrier.script
  createdHeight := block.height
  createdBlockHash := block.hash

def effect (block : V3BlockInput) : Effect where
  tokenId := tokenId
  newBacking := some (a.nextBacking block)
  created := [a.createdUtxo block]

def curve : V3CurveTrade :=
  ⟨amount, a.canonical.grossSats, a.feeSats, a.canonical.nextState.issuedPublicSupplyAtoms,
    a.canonical.nextState.backingSats⟩

def undo (block : V3BlockInput) : UndoOp := .mint tokenId a.backing (a.createdUtxo block)

def result (block : V3BlockInput) : ApplyResult :=
  ⟨some .mint, true, none, some tokenId, some (a.undo block), some a.curve⟩

end MintAccepted

namespace TransferAccepted

variable {tokenId : Bytes} {allocations : List TokenAllocation}
  (a : TransferAccepted C block σ tx tokenId allocations)

def effect : Effect where
  tokenId := tokenId
  spent := a.spentUtxos
  created := a.createdUtxos

def undo : UndoOp := .transfer (tx.getId C) a.spentUtxos a.createdUtxos

def result : ApplyResult := ⟨some .transfer, true, none, some tokenId, some a.undo, none⟩

end TransferAccepted

namespace RedeemAccepted

variable {tokenId : Bytes} {redeemAmount : Int} {changeAllocations : List TokenAllocation}
  (a : RedeemAccepted C cfg block σ tx tokenId redeemAmount changeAllocations)

def nextBacking : V3Backing :=
  backingAt C block tx tokenId a.canonical.nextState a.stateHash a.nextVault.scriptPubKey
    (reserveAnchorSats + a.canonical.nextState.backingSats)

def effect : Effect where
  tokenId := tokenId
  newBacking := some a.nextBacking
  spent := a.spentUtxos
  created := a.createdUtxos

def curve : V3CurveTrade :=
  ⟨redeemAmount, a.canonical.grossSats, a.feeSats, a.canonical.nextState.issuedPublicSupplyAtoms,
    a.canonical.nextState.backingSats⟩

def undo : UndoOp := .redeem tokenId (tx.getId C) a.backing a.spentUtxos a.createdUtxos

def result : ApplyResult := ⟨some .redeem, true, none, some tokenId, some a.undo, some a.curve⟩

end RedeemAccepted

/-! Each operation succeeds exactly when its acceptance exists. -/

theorem applyDeploy_eq_ok {policyVersion : Nat} {ticker tokenNonce : Bytes}
    {p : Ledger × ApplyResult} :
    applyDeploy C cfg block σ tx policyVersion ticker tokenNonce = .ok p ↔
      ∃ a : DeployAccepted C cfg σ tx policyVersion ticker tokenNonce,
        p = (σ.perform (a.effect block), a.result) := by
  simp only [applyDeploy, uncaught, bind_eq_ok, demand_eq_ok, ensure_eq_ok, mapError_eq_ok,
    pure_eq_ok]
  constructor
  · rintro ⟨creatorOut, hc, _, hco, tokenId, ht, _, hf, s0, hs, vault, hv, s0Out, ho, _, hos, _, hov,
      stateHash, hh, rfl⟩
    exact ⟨⟨creatorOut, tokenId, s0, vault, s0Out, stateHash, hc, hco, ht, hf, hs, hv, ho, hos, hov,
      hh⟩, rfl⟩
  · rintro ⟨a, rfl⟩
    exact ⟨_, a.creator_get, (), a.creator_ok, _, a.tokenId_eq, (), a.fresh, _, a.s0_eq, _, a.vault_eq,
      _, a.s0Out_get, (), a.s0Out_script, (), a.s0Out_value, _, a.stateHash_eq, rfl⟩

theorem applyMint_eq_ok {tokenId : Bytes} {amount : Int} {recipientVout : Nat}
    {p : Ledger × ApplyResult} :
    applyMint C cfg block σ tx tokenId amount recipientVout = .ok p ↔
      ∃ a : MintAccepted C cfg σ tx tokenId amount recipientVout,
        p = (σ.perform (a.effect block), a.result block) := by
  simp only [applyMint, uncaught, bind_eq_ok, demand_eq_ok, ensure_eq_ok, mapError_eq_ok,
    pure_eq_ok]
  constructor
  · rintro ⟨tokenMeta, hm, backing, hb, ins0, hi, _, hio, canonical, hc, feeSats, hf, nextVault, hv,
      successor, hs, _, hss, _, hsv, _, hr, carrier, hca, _, hco, feeOut, hfo, _, hfok, creatorOut, hcr,
      creatorFee, hcf, _, hcrok, stateHash, hh, rfl⟩
    exact ⟨⟨tokenMeta, backing, ins0, canonical, feeSats, nextVault, successor, carrier, feeOut,
      creatorOut, creatorFee, stateHash, hm, hb, hi, hio, hc, hf, hv, hs, hss, hsv, hr, hca, hco, hfo,
      hfok, hcr, hcf, hcrok, hh⟩, rfl⟩
  · rintro ⟨a, rfl⟩
    exact ⟨_, a.meta_get, _, a.backing_get, _, a.ins0_get, (), a.ins0_outpoint, _, a.canonical_eq, _,
      a.fee_eq, _, a.vault_eq, _, a.successor_get, (), a.successor_script, (), a.successor_value, (),
      a.vout_eq, _, a.carrier_get, (), a.carrier_ok, _, a.feeOut_get, (), a.feeOut_ok, _, a.creator_get,
      _, a.creatorFee_eq, (), a.creator_ok, _, a.stateHash_eq, rfl⟩

theorem applyTransfer_eq_ok {tokenId : Bytes} {allocations : List TokenAllocation}
    {p : Ledger × ApplyResult} :
    applyTransfer C block σ tx tokenId allocations = .ok p ↔
      ∃ a : TransferAccepted C block σ tx tokenId allocations, p = (σ.perform a.effect, a.result) := by
  simp only [applyTransfer, bind_eq_ok, ensure_eq_ok, mapError_eq_ok, pure_eq_ok]
  constructor
  · rintro ⟨_, hk, spentUtxos, hs, _, hc, createdUtxos, hcr, rfl⟩
    exact ⟨⟨spentUtxos, createdUtxos, hk, hs, hc, hcr⟩, rfl⟩
  · rintro ⟨a, rfl⟩
    exact ⟨(), a.known, _, a.spent_eq, (), a.conserved, _, a.created_eq, rfl⟩

theorem applyRedeem_eq_ok {tokenId : Bytes} {redeemAmount : Int}
    {changeAllocations : List TokenAllocation} {p : Ledger × ApplyResult} :
    applyRedeem C cfg block σ tx tokenId redeemAmount changeAllocations = .ok p ↔
      ∃ a : RedeemAccepted C cfg block σ tx tokenId redeemAmount changeAllocations,
        p = (σ.perform a.effect, a.result) := by
  simp only [applyRedeem, uncaught, bind_eq_ok, demand_eq_ok, ensure_eq_ok, mapError_eq_ok,
    pure_eq_ok]
  constructor
  · rintro ⟨tokenMeta, hm, backing, hb, ins0, hi, _, hio, spentUtxos, hsp, _, hn, _, hce, canonical, hc,
      feeSats, hf, nextVault, hv, successor, hs, _, hss, _, hsv, payout, hp, _, hpv, feeOut, hfo, _, hfok,
      createdUtxos, hcr, stateHash, hh, rfl⟩
    exact ⟨⟨tokenMeta, backing, ins0, spentUtxos, canonical, feeSats, nextVault, successor, payout,
      feeOut, createdUtxos, stateHash, hm, hb, hi, hio, hsp, hn, hce, hc, hf, hv, hs, hss, hsv, hp, hpv,
      hfo, hfok, hcr, hh⟩, rfl⟩
  · rintro ⟨a, rfl⟩
    exact ⟨_, a.meta_get, _, a.backing_get, _, a.ins0_get, (), a.ins0_outpoint, _, a.spent_eq, (),
      a.change_nonneg, (), a.change_eq, _, a.canonical_eq, _, a.fee_eq, _, a.vault_eq, _,
      a.successor_get, (), a.successor_script, (), a.successor_value, _, a.payout_get, (),
      a.payout_value, _, a.feeOut_get, (), a.feeOut_ok, _, a.created_eq, _, a.stateHash_eq, rfl⟩

end Acceptance

end Cove
