import Cove.App.Remote
import Cove.Guardian.Builder

/-! Who pays for a build, and with which coins: `wallet-identity.ts`, `fees.ts` and
`resolveFundingAndFee` of `packages/cove-app/src`, over `fees.ts` of `packages/bitcoin/src`. -/

namespace Cove

open Checked

def appError (code message : String) : Fault := ⟨some code, message⟩

/-! The wallet. -/

structure WalletRole where
  script : Bytes
  publicKey : Option Bytes
  deriving DecidableEq, Repr

/-- What a client sends of its wallet. -/
structure WalletFields where
  walletScript : Bytes
  walletPublicKey : Option Bytes
  ordinalsScript : Option Bytes
  ordinalsPublicKey : Option Bytes
  deriving DecidableEq, Repr

structure ResolvedRole extends WalletRole where
  kind : SpendKind
  deriving DecidableEq, Repr

structure ResolvedWalletIdentity where
  payments : ResolvedRole
  ordinals : ResolvedRole
  /-- Both scripts: what belongs to the wallet. -/
  scripts : List Bytes
  deriving DecidableEq, Repr

/-- An empty text is falsy. -/
def truthy (text : Option Bytes) : Option Bytes := text.filter (· ≠ [])

def walletIdentityFrom (input : WalletFields) : WalletRole × WalletRole :=
  (⟨input.walletScript, input.walletPublicKey⟩,
    match truthy input.ordinalsScript with
    | some script => ⟨script, input.ordinalsPublicKey⟩
    | none => ⟨input.walletScript, input.walletPublicKey⟩)

def resolveRole (role : WalletRole) (label : String) : Except Fault ResolvedRole := do
  ensure (2 ≤ role.script.length) (appError "FUNDING_INPUT_INVALID" (label ++ " script is not hex"))
  let kind ← demand (spendKindOf role.script) (appError "WALLET_UNSUPPORTED"
    (label ++ " address type is not supported; Cove can spend native segwit, " ++
      "nested segwit and Taproot"))
  let publicKey := truthy role.publicKey
  ensure (kind = .p2wpkh ∨ publicKey ≠ none) (appError "WALLET_UNSUPPORTED"
    ("a " ++ kind.text ++ " " ++ label ++
      " address needs its public key, which the wallet did not supply"))
  ensure (∀ key ∈ publicKey, key.length = 32 ∨ key.length = 33) (appError "WALLET_UNSUPPORTED"
    (label ++ " public key is not a 32 or 33-byte hex key"))
  return { script := role.script, publicKey, kind }

def resolveWalletIdentity (identity : WalletRole × WalletRole) :
    Except Fault ResolvedWalletIdentity := do
  let payments ← resolveRole identity.1 "payment"
  let ordinals ← (if identity.2.script = identity.1.script then .ok payments
    else resolveRole identity.2 "ordinals")
  return {
    payments, ordinals
    scripts := payments.script ::
      if ordinals.script = payments.script then [] else [ordinals.script] }

/-! Sizes and fees. -/

inductive CoveOperation
  | deploy
  | backingBuy
  | redeem
  | transfer
  deriving DecidableEq, Repr

def CoveOperation.opReturnScriptBytes : CoveOperation → Nat
  | deploy => 50
  | backingBuy => 47
  | redeem => 56
  | transfer => 75

/-- The operations that spend the vault. -/
def CoveOperation.spendsVault : CoveOperation → Bool
  | backingBuy => true
  | redeem => true
  | _ => false

structure OperationShape where
  fundingKind : SpendKind
  tokenInputs : Nat := 0
  tokenKind : SpendKind
  walletScriptBytes : Nat
  ordinalsScriptBytes : Nat
  feeScriptBytes : Nat
  recipientCarriers : Nat := 1
  discovery : Bool := false
  deriving DecidableEq, Repr

def SpendKind.inputVbytes : SpendKind → Nat
  | p2wpkh => 68
  | p2tr => 58
  | p2shP2wpkh => 91

/-- The outputs an operation is priced for, always with Bitcoin change. -/
def OperationShape.outputScriptBytes (shape : OperationShape) (op : CoveOperation) : List Nat :=
  let wallet := shape.walletScriptBytes
  let carrier := shape.ordinalsScriptBytes
  op.opReturnScriptBytes :: match op with
    | .deploy => [34, wallet, wallet]
    | .backingBuy => [34, carrier, shape.feeScriptBytes, 34, wallet] ++
        if shape.discovery then [75] else []
    | .redeem => [34, wallet, shape.feeScriptBytes, carrier, wallet]
    | .transfer => List.replicate shape.recipientCarriers carrier ++ [carrier, wallet]

def estimateOperationVsize (op : CoveOperation) (shape : OperationShape) (fundingInputs : Nat) :
    Nat :=
  11 + (if op.spendsVault then 100 else 0) + fundingInputs * shape.fundingKind.inputVbytes +
    shape.tokenInputs * shape.tokenKind.inputVbytes +
    ((shape.outputScriptBytes op).map fun len => 9 + len).sum

/-- Of the tiers a build asks for the standard one only. -/
structure FeeRates where
  floorSatPerVb : Int
  ceilingSatPerVb : Int
  standardSatPerVb : Int
  deriving DecidableEq, Repr

structure ResolvedMinerFee where
  minerFeeSats : Int
  vsize : Nat
  effectiveSatPerVb : Int
  deriving DecidableEq, Repr

def resolveMinerFee (rateSatPerVb explicitSats : Option Int) (size : Nat) (rates : FeeRates)
    (maxMinerFeeSats : Int) : Except Fault ResolvedMinerFee := do
  let vsize := max 1 size
  let minerFeeSats ← match rateSatPerVb, explicitSats with
    | some rate, _ => do
      ensure (0 < rate) (appError "MINER_FEE_TOO_LOW" "fee rate must be positive")
      pure (rate * (vsize : Int))
    | none, some explicit => pure explicit
    | none, none => throw (appError "MINER_FEE_TOO_LOW" "no fee rate or fee amount supplied")
  let effective := minerFeeSats.tdiv vsize
  ensure (rates.floorSatPerVb ≤ effective) (appError "MINER_FEE_TOO_LOW"
    (s!"{minerFeeSats} sats over {vsize} vbytes is {effective} sat/vB, below the " ++
      s!"network's current relay floor of {rates.floorSatPerVb} sat/vB. This transaction " ++
      s!"would not confirm. Raise the fee to at least {rates.floorSatPerVb * vsize} sats."))
  ensure (effective ≤ rates.ceilingSatPerVb) (appError "MINER_FEE_TOO_HIGH"
    (s!"{minerFeeSats} sats over {vsize} vbytes is {effective} sat/vB, above the " ++
      s!"{rates.ceilingSatPerVb} sat/vB ceiling. Nothing on Bitcoin needs that rate."))
  ensure (minerFeeSats ≤ maxMinerFeeSats) (appError "MINER_FEE_TOO_HIGH"
    s!"miner fee {minerFeeSats} sats exceeds the {maxMinerFeeSats}-sat cap")
  return ⟨minerFeeSats, vsize, effective⟩

/-! Coins. -/

structure ResolvedFunding where
  txid : Bytes
  vout : Nat
  script : Bytes
  valueSats : Int
  confirmations : Nat
  deriving DecidableEq, Repr

def ResolvedFunding.outpoint (f : ResolvedFunding) : OutPoint := ⟨f.txid, f.vout⟩

/-- An unspent output as Core describes it. -/
structure CoreTxOut where
  script : Bytes
  valueSats : Int
  confirmations : Nat
  deriving DecidableEq, Repr

/-- What a build asks of its surroundings: the guards that come first, the coins and fee rates of
the node, the curve, and the order in which the index lists carriers. -/
structure BuildContext where
  guards : Except Fault Unit
  getTxout : OutPoint → Except Fault (Option CoreTxOut)
  rates : FeeRates
  scriptForKind : ScriptForKind
  carrierOrder : List OutPoint

def resolveFundingUtxo (ctx : BuildContext) (c : OutPoint) : Except Fault ResolvedFunding := do
  let txout ← ctx.getTxout c
  let txout ← demand txout
    (appError "FUNDING_INPUT_SPENT" ("input " ++ c.text ++ " is spent or unknown"))
  return ⟨c.txid, c.vout, txout.script, txout.valueSats, txout.confirmations⟩

/-- The largest coin first, ties by txid and vout. -/
def ResolvedFunding.before (a b : ResolvedFunding) : Prop :=
  b.valueSats < a.valueSats ∨ a.valueSats = b.valueSats ∧
    (a.txid ≠ b.txid ∧ Bytes.le a.txid b.txid ∨ a.txid = b.txid ∧ a.vout ≤ b.vout)

instance (a b : ResolvedFunding) : Decidable (a.before b) := inferInstanceAs (Decidable (_ ∨ _))

/-- The shortest front of the coins that covers the target and its own fee. -/
def coveringCoins (priceAt : Nat → Except Fault ResolvedMinerFee) (targetSats : Int) :
    List ResolvedFunding → List ResolvedFunding →
      Except Fault (Option (List ResolvedFunding × ResolvedMinerFee))
  | _, [] => .ok none
  | chosen, utxo :: rest => do
    let chosen := chosen ++ [utxo]
    let priced ← priceAt chosen.length
    if targetSats + priced.minerFeeSats ≤ (chosen.map ResolvedFunding.valueSats).sum then
      return some (chosen, priced)
    else coveringCoins priceAt targetSats chosen rest

/-- The first coin that holds something besides Bitcoin, with its name for it. -/
def firstHeld (assetsAt : OutPoint → Except Fault (Option String)) :
    List ResolvedFunding → Except Fault (Option (ResolvedFunding × String))
  | [] => .ok none
  | f :: rest => do
    match (← assetsAt f.outpoint).filter (· ≠ "") with
    | some held => return some (f, held)
    | none => firstHeld assetsAt rest

/-- Pick, and pick again without a coin that holds something. Each turn takes a coin away, so as
many turns as coins and one more are enough. -/
def pickCoins (priceAt : Nat → Except Fault ResolvedMinerFee)
    (assetsAt : OutPoint → Except Fault (Option String)) (targetSats : Int)
    (shortfall : List ResolvedFunding → List String → Except Fault Fault) :
    Nat → List ResolvedFunding → List String →
      Except Fault (List ResolvedFunding × ResolvedMinerFee)
  | 0, sorted, skipped => do
    let e ← shortfall sorted skipped
    throw e
  | turns + 1, sorted, skipped => do
    match ← coveringCoins priceAt targetSats [] sorted with
    | none =>
      let e ← shortfall sorted skipped
      throw e
    | some (chosen, priced) =>
      match ← firstHeld assetsAt chosen with
      | none => return (chosen, priced)
      | some (f, held) =>
        pickCoins priceAt assetsAt targetSats shortfall turns (sorted.erase f)
          (skipped ++ [f.outpoint.text ++ " (" ++ held ++ ")"])

structure FundingRequest where
  op : CoveOperation
  wallet : ResolvedWalletIdentity
  candidates : List OutPoint
  targetSats : Int
  tokenInputs : Nat := 0
  recipientCarriers : Nat := 1
  discovery : Bool := false
  feeRateSatPerVb : Option Int
  explicitMinerFeeSats : Option Int

namespace V3AppService

def assetsAt (app : V3AppService) (o : OutPoint) : Except Fault (Option String) :=
  match app.sources.assets with
  | none => .ok none
  | some describeAssets => (describeAssets o).mapError fun e =>
      appError "FUNDING_CHECK_UNAVAILABLE"
        ("could not check " ++ o.text ++ " for inscriptions and runes: " ++ e.message)

/-- What a build with so many funding inputs costs; without a rate or an amount the standard rate
is taken. -/
def priceAt (app : V3AppService) (ctx : BuildContext) (req : FundingRequest) (fundingInputs : Nat) :
    Except Fault ResolvedMinerFee :=
  let shape : OperationShape := {
    fundingKind := req.wallet.payments.kind
    tokenInputs := req.tokenInputs
    tokenKind := req.wallet.ordinals.kind
    walletScriptBytes := req.wallet.payments.script.length
    ordinalsScriptBytes := req.wallet.ordinals.script.length
    feeScriptBytes := app.config.feeScript.length
    recipientCarriers := req.recipientCarriers
    discovery := req.discovery }
  let rate := req.feeRateSatPerVb.or
    (if req.explicitMinerFeeSats = none then some ctx.rates.standardSatPerVb else none)
  resolveMinerFee rate req.explicitMinerFeeSats (estimateOperationVsize req.op shape fundingInputs)
    ctx.rates app.config.maxMinerFeeSats

/-- The `INSUFFICIENT_BTC` error once every coin left has been tried. -/
def shortfall (app : V3AppService) (ctx : BuildContext) (req : FundingRequest)
    (pending tried : List ResolvedFunding) (skipped : List String) : Except Fault Fault := do
  let priced ← app.priceAt ctx req (max 1 tried.length)
  let sum := (tried.map ResolvedFunding.valueSats).sum
  let pendingSats := (pending.map ResolvedFunding.valueSats).sum
  return appError "INSUFFICIENT_BTC"
    (s!"Your payment address has {sum} usable sats; this needs {req.targetSats + priced.minerFeeSats} " ++
      s!"({req.targetSats} for the trade, {priced.minerFeeSats} network fee at " ++
      s!"{priced.effectiveSatPerVb} sat/vB)." ++
      (if pending = [] then "" else s!" Another {pendingSats} sats are still unconfirmed; " ++
        "mints and sales use only confirmed BTC, so wait for your last transaction to confirm.") ++
      (if skipped = [] then "" else " Skipped coins holding inscriptions or runes: " ++
        ", ".intercalate skipped ++ ".") ++
      (if req.wallet.payments.script = req.wallet.ordinals.script then ""
        else " Cove pays only from your wallet's payment (BTC) address, not its token (taproot) " ++
          "address — send BTC there first."))

/-- The coins that pay for a build, and the miner fee. -/
def resolveFundingAndFee (app : V3AppService) (ctx : BuildContext) (req : FundingRequest) :
    Except Fault (List ResolvedInput × Int) := do
  let resolved ← req.candidates.mapM (resolveFundingUtxo ctx)
  ensure (∀ f ∈ resolved, f.script = req.wallet.payments.script)
    (appError "FUNDING_INPUT_INVALID" "funding input script does not match wallet")
  let carriers := req.candidates.filter fun o => getLiveTokenUtxosAtDb app.db [o] ≠ []
  match carriers with
  | o :: _ => throw (appError "FUNDING_INPUT_IS_TOKEN"
      ("funding input " ++ o.text ++ " holds tokens and cannot pay for a trade"))
  | [] => do
    let pending := if req.op.spendsVault then resolved.filter fun f => f.confirmations < 1 else []
    let usable := if req.op.spendsVault then resolved.filter fun f => 1 ≤ f.confirmations
      else resolved
    let sorted := usable.insertionSort ResolvedFunding.before
    let noFunding ← app.priceAt ctx req 0
    if req.targetSats + noFunding.minerFeeSats ≤ 0 then return ([], noFunding.minerFeeSats)
    let (chosen, priced) ← pickCoins (app.priceAt ctx req) app.assetsAt req.targetSats
      (app.shortfall ctx req pending) (sorted.length + 1) sorted []
    let toInput (f : ResolvedFunding) : ResolvedInput :=
      { txid := f.txid, vout := f.vout, script := f.script, valueSats := f.valueSats
        publicKey := req.wallet.payments.publicKey }
    return (chosen.map toInput, priced.minerFeeSats)

end V3AppService

/-! What a resolved wallet and its coins are. -/

section

variable {wallet : ResolvedWalletIdentity} {identity : WalletRole × WalletRole}

theorem resolveRole_ok {role : WalletRole} {label : String} {r : ResolvedRole}
    (h : resolveRole role label = .ok r) :
    r.script = role.script ∧ spendKindOf r.script = some r.kind := by
  simp only [resolveRole, bind_eq_ok, ensure_eq_ok, demand_eq_ok, pure_eq_ok] at h
  obtain ⟨_, -, kind, hkind, _, -, _, -, rfl⟩ := h
  exact ⟨rfl, hkind⟩

/-- A script of the wallet is one a wallet can spend. -/
structure WalletResolved (wallet : ResolvedWalletIdentity) : Prop where
  payments : spendKindOf wallet.payments.script = some wallet.payments.kind
  ordinals : spendKindOf wallet.ordinals.script = some wallet.ordinals.kind
  scripts : ∀ script, script ∈ wallet.scripts ↔
    script = wallet.payments.script ∨ script = wallet.ordinals.script

theorem resolveWalletIdentity_ok (h : resolveWalletIdentity identity = .ok wallet) :
    WalletResolved wallet := by
  simp only [resolveWalletIdentity, bind_eq_ok, pure_eq_ok] at h
  obtain ⟨payments, hpayments, ordinals, hordinals, rfl⟩ := h
  have hkind := (resolveRole_ok hpayments).2
  have hordinal : spendKindOf ordinals.script = some ordinals.kind := by
    split at hordinals
    · rwa [← Except.ok.inj hordinals]
    · exact (resolveRole_ok hordinals).2
  refine ⟨hkind, hordinal, ?_⟩
  intro script
  dsimp only
  split
  · rename_i heq
    simp [heq]
  · simp

end

end Cove
