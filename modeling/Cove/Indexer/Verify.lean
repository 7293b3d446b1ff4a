import Cove.Indexer.MemoryReorg
import Cove.Indexer.Root

/-! The quick verification of a state against Bitcoin Core:
`packages/cove-indexer/src/v3/verify.ts`, with the calls it makes of
`packages/bitcoin/src/provider.ts`. -/

namespace Cove

open Checked

/-- Bitcoin Core at the time of a verification: beside its best chain the transactions it knows
by id, confirmed or pending, and its UTXO set. -/
structure CoreState extends StaticCore where
  transaction : Bytes → Option Transaction
  unspent : Dict OutPoint TxOut
  /-- A transaction id commits to the outputs. -/
  unspent_output : ∀ o out tx, unspent.get o = some out → transaction o.txid = some tx →
    tx.outs[o.vout]? = some out

namespace CoreState

variable (core : CoreState)

def getRawTransaction (txid : Bytes) : Except Fault Transaction :=
  demand (core.transaction txid) ⟨some "-5", "No such mempool or blockchain transaction"⟩

/-- `getPrevout` decodes the transaction and picks the output. -/
def getPrevout (o : OutPoint) : Except Fault (Option TxOut) := do
  let prev ← core.getRawTransaction o.txid
  return prev.outs[o.vout]?

end CoreState

/-- How a verification ends early: with a reason, or by a throw. -/
inductive Unverified
  | refused (reason : String)
  | fault (f : Fault)
  deriving DecidableEq, Repr

/-- The keys `quickVerify` derives a vault for. The recovery profile is not among them. -/
def V3IndexerConfig.verifyKeys (cfg : V3IndexerConfig) : VaultKeys where
  guardianXOnly := cfg.guardianXOnly
  recoveryKeyXOnly := cfg.recoveryKeyXOnly
  recoveryProfile := none

section

variable (C : Crypto) (cfg : V3IndexerConfig) (core : CoreState)

def outpointName (o : OutPoint) : String := hexName o.txid ++ ":" ++ toString o.vout

def verifyBacking (b : V3Backing) : Except Unverified Unit := do
  let prevout ← (core.getPrevout b.outpoint).mapError .fault
  let prevout ← demand prevout (.refused ("backing outpoint not unspent: " ++ outpointName b.outpoint))
  ensure ((prevout.value : Int) = b.btcValue)
    (.refused ("backing value mismatch for " ++ hexName b.tokenId ++ ": core=" ++
      toString prevout.value ++ " db=" ++ toString b.btcValue))
  ensure (prevout.script = b.scriptPubKey)
    (.refused ("backing script mismatch for " ++ hexName b.tokenId))
  let vault ← (buildBackingVaultV3 C b.state cfg.verifyKeys).mapError .fault
  ensure (vault.scriptPubKey = b.scriptPubKey)
    (.refused ("backing script != derived V3 vault for " ++ hexName b.tokenId))
  ensure (b.btcValue = reserveAnchorSats + b.state.backingSats)
    (.refused ("backing value != anchor + R(supply) for " ++ hexName b.tokenId))

def verifyBackings : List V3Backing → Except Unverified Unit
  | [] => .ok ()
  | b :: bs => do
    verifyBacking C cfg core b
    verifyBackings bs

/-- The carriers with the outpoints seen so far. -/
def verifyUtxos (tokens : Dict Bytes V3TokenMeta) :
    List V3TokenUtxo → List OutPoint → Except Unverified Unit
  | [], _ => .ok ()
  | u :: us, seen => do
    ensure (0 < u.amountAtoms) (.refused ("non-positive token amount " ++ outpointName u.outpoint))
    ensure (tokens.has u.tokenId) (.refused ("utxo for unknown token " ++ hexName u.tokenId))
    ensure (u.outpoint ∉ seen) (.refused ("duplicate outpoint " ++ outpointName u.outpoint))
    verifyUtxos tokens us (u.outpoint :: seen)

/-- Before the first block there is no hash to compare. -/
def verifyCursor (cursor : V3Cursor) : Except Unverified Unit :=
  if 0 < cursor.height then do
    let coreHash ← (core.getBlockHash cursor.height).mapError .fault
    ensure (coreHash = cursor.blockHash)
      (.refused ("cursor hash mismatch: db=" ++ hexName cursor.blockHash ++ " core=" ++
        hexName coreHash))
  else .ok ()

/-- `quickVerify`, with the values of the maps in their order of insertion. The result is `ok`
where nothing ends it early. -/
def quickVerify (σ : V3IndexerState) (l : σ.toLedger.Listing) : Except Unverified Unit := do
  verifyCursor core σ.cursor
  verifyBackings C cfg core l.backing
  ensure (¬ (0 < σ.cursor.height ∧ computeStateRoot C σ.toLedger ≠ σ.cursor.stateRoot))
    (.refused ("db root " ++ hexName (computeStateRoot C σ.toLedger) ++ " != cursor root " ++
      hexName σ.cursor.stateRoot))
  verifyUtxos σ.tokens l.tokenUtxos []

end

section

variable {C : Crypto} {cfg : V3IndexerConfig} {core : CoreState} {chain : List V3BlockInput}
  {σ : V3IndexerState}

/-! What a verification checks. -/

/-- Core knows the output of the backing, and it is the vault without a recovery profile. -/
structure BackingVerified (C : Crypto) (cfg : V3IndexerConfig) (core : CoreState) (b : V3Backing) :
    Prop where
  output : ∃ tx out, core.transaction b.outpoint.txid = some tx ∧
    tx.outs[b.outpoint.vout]? = some out ∧ out.script = b.scriptPubKey ∧ (out.value : Int) = b.btcValue
  script : ∃ vault, buildBackingVaultV3 C b.state cfg.verifyKeys = .ok vault ∧
    vault.scriptPubKey = b.scriptPubKey
  value : b.btcValue = reserveAnchorSats + b.state.backingSats

theorem verifyBacking_eq_ok {b : V3Backing} :
    verifyBacking C cfg core b = .ok () ↔ BackingVerified C cfg core b := by
  simp only [verifyBacking, CoreState.getPrevout, CoreState.getRawTransaction, bind_eq_ok,
    mapError_eq_ok, demand_eq_ok, ensure_eq_ok, pure_eq_ok]
  constructor
  · intro h
    obtain ⟨_, ⟨tx, htx, rfl⟩, out, hout, _, hvalue, _, hscript, vault, hvault, _, hderived, hanchor⟩ := h
    exact ⟨⟨tx, out, htx, hout, hscript, hvalue⟩, ⟨vault, hvault, hderived⟩, hanchor⟩
  · intro h
    obtain ⟨tx, out, htx, hout, hscript, hvalue⟩ := h.output
    obtain ⟨vault, hvault, hderived⟩ := h.script
    exact ⟨_, ⟨tx, htx, rfl⟩, out, hout, (), hvalue, (), hscript, vault, hvault, (), hderived, h.value⟩

theorem verifyBackings_eq_ok {bs : List V3Backing} :
    verifyBackings C cfg core bs = .ok () ↔ ∀ b ∈ bs, BackingVerified C cfg core b := by
  induction bs with
  | nil => simp [verifyBackings]
  | cons b bs ih =>
    rw [verifyBackings, bind_eq_ok, List.forall_mem_cons]
    constructor
    · intro h
      obtain ⟨⟨⟩, hb, hbs⟩ := h
      exact ⟨verifyBacking_eq_ok.mp hb, ih.mp hbs⟩
    · intro h
      exact ⟨(), verifyBacking_eq_ok.mpr h.1, ih.mpr h.2⟩

theorem verifyUtxos_eq_ok {tokens : Dict Bytes V3TokenMeta} {us : List V3TokenUtxo}
    {seen : List OutPoint} : verifyUtxos tokens us seen = .ok () ↔
      (∀ u ∈ us, 0 < u.amountAtoms ∧ tokens.has u.tokenId = true ∧ u.outpoint ∉ seen) ∧
        (us.map V3TokenUtxo.outpoint).Nodup := by
  induction us generalizing seen with
  | nil => simp [verifyUtxos]
  | cons u us ih =>
    simp only [verifyUtxos, bind_eq_ok, ensure_eq_ok, ih]
    rw [List.forall_mem_cons, List.map_cons, List.nodup_cons]
    constructor
    · intro h
      obtain ⟨_, hpos, _, hknown, _, hnew, hus, hnodup⟩ := h
      refine ⟨⟨⟨hpos, hknown, hnew⟩, fun v hv => ?_⟩, fun hmem => ?_, hnodup⟩
      · obtain ⟨hvpos, hvknown, hvnew⟩ := hus v hv
        exact ⟨hvpos, hvknown, fun hseen => hvnew (List.mem_cons_of_mem _ hseen)⟩
      · obtain ⟨v, hv, heq⟩ := List.mem_map.mp hmem
        exact (hus v hv).2.2 (heq ▸ List.mem_cons_self)
    · intro h
      obtain ⟨⟨⟨hpos, hknown, hnew⟩, hus⟩, hdistinct, hnodup⟩ := h
      refine ⟨(), hpos, (), hknown, (), hnew, fun v hv => ?_, hnodup⟩
      obtain ⟨hvpos, hvknown, hvnew⟩ := hus v hv
      refine ⟨hvpos, hvknown, fun hseen => ?_⟩
      rcases List.mem_cons.mp hseen with heq | hseen
      · exact hdistinct (List.mem_map.mpr ⟨v, hv, heq⟩)
      · exact hvnew hseen

/-- The state agrees with itself and with the transactions and the best chain Core knows. -/
structure AgreesWithKnown (C : Crypto) (cfg : V3IndexerConfig) (core : CoreState)
    (σ : V3IndexerState) : Prop where
  cursor : 0 < σ.cursor.height →
    core.best[σ.cursor.height]?.map CoreBlock.hash = some σ.cursor.blockHash
  backing : ∀ t b, σ.backing.get t = some b → BackingVerified C cfg core b
  root : 0 < σ.cursor.height → computeStateRoot C σ.toLedger = σ.cursor.stateRoot
  carriers : ∀ k u, σ.tokenUtxos.get k = some u →
    0 < u.amountAtoms ∧ σ.tokens.has u.tokenId = true
  outpoints : (σ.tokenUtxos.values.map V3TokenUtxo.outpoint).Nodup

theorem Ledger.Listing.mem_backing {σ : Ledger} (l : σ.Listing) {b : V3Backing} :
    b ∈ l.backing ↔ ∃ t, σ.backing.get t = some b := by
  rw [← Multiset.mem_coe, l.backing_eq, Dict.mem_values]

theorem Ledger.Listing.mem_tokenUtxos {σ : Ledger} (l : σ.Listing) {u : V3TokenUtxo} :
    u ∈ l.tokenUtxos ↔ ∃ k, σ.tokenUtxos.get k = some u := by
  rw [← Multiset.mem_coe, l.tokenUtxos_eq, Dict.mem_values]

theorem Ledger.Listing.nodup_iff {σ : Ledger} (l : σ.Listing) :
    (l.tokenUtxos.map V3TokenUtxo.outpoint).Nodup ↔
      (σ.tokenUtxos.values.map V3TokenUtxo.outpoint).Nodup := by
  rw [← l.tokenUtxos_eq, Multiset.map_coe, Multiset.coe_nodup]

theorem verifyCursor_eq_ok {cursor : V3Cursor} : verifyCursor core cursor = .ok () ↔
    (0 < cursor.height → core.best[cursor.height]?.map CoreBlock.hash = some cursor.blockHash) := by
  unfold verifyCursor
  split
  · rename_i hpos
    simp only [StaticCore.getBlockHash, bind_eq_ok, mapError_eq_ok, demand_eq_ok, ensure_eq_ok, hpos,
      forall_const]
    constructor
    · intro h
      obtain ⟨_, hget, rfl⟩ := h
      exact hget
    · intro h
      exact ⟨_, h, rfl⟩
  · rename_i hpos
    exact iff_of_true rfl fun h => absurd h hpos

/-- Whether a verification passes does not depend on the order of the maps. -/
theorem quickVerify_eq_ok (l : σ.toLedger.Listing) :
    quickVerify C cfg core σ l = .ok () ↔ AgreesWithKnown C cfg core σ := by
  rw [quickVerify]
  constructor
  · intro h
    obtain ⟨⟨⟩, hcursor, h⟩ := bind_eq_ok.mp h
    obtain ⟨⟨⟩, hbacking, h⟩ := bind_eq_ok.mp h
    obtain ⟨⟨⟩, hroot, hutxos⟩ := bind_eq_ok.mp h
    rw [ensure_eq_ok, not_and, not_not] at hroot
    obtain ⟨hcarriers, hnodup⟩ := verifyUtxos_eq_ok.mp hutxos
    refine ⟨verifyCursor_eq_ok.mp hcursor, ?_, hroot, ?_, l.nodup_iff.mp hnodup⟩
    · intro t b hb
      exact verifyBackings_eq_ok.mp hbacking b (l.mem_backing.mpr ⟨t, hb⟩)
    · intro k u hu
      obtain ⟨hpos, hknown, -⟩ := hcarriers u (l.mem_tokenUtxos.mpr ⟨k, hu⟩)
      exact ⟨hpos, hknown⟩
  · intro h
    refine bind_eq_ok.mpr ⟨(), verifyCursor_eq_ok.mpr h.cursor, ?_⟩
    refine bind_eq_ok.mpr ⟨(), verifyBackings_eq_ok.mpr ?_, ?_⟩
    · intro b hb
      obtain ⟨t, hb⟩ := l.mem_backing.mp hb
      exact h.backing t b hb
    refine bind_eq_ok.mpr ⟨(), ?_, verifyUtxos_eq_ok.mpr ⟨?_, l.nodup_iff.mpr h.outpoints⟩⟩
    · rw [ensure_eq_ok, not_and, not_not]
      exact h.root
    · intro u hu
      obtain ⟨k, hu⟩ := l.mem_tokenUtxos.mp hu
      obtain ⟨hpos, hknown⟩ := h.carriers k u hu
      exact ⟨hpos, hknown, List.not_mem_nil⟩

/-! Where the vaults of a replayed chain lie. -/

/-- The output a backing names is there, with its script and value. -/
def HasOutput (b : V3Backing) (tx : Transaction) : Prop :=
  ∃ out, tx.outs[b.outpoint.vout]? = some out ∧ out.script = b.scriptPubKey ∧
    (out.value : Int) = b.btcValue

theorem Acceptance.vault_output {block : V3BlockInput} {σ : Ledger} {tx : Transaction}
    {envelope : ParsedEnvelopeV2} (a : Acceptance C cfg block σ tx envelope) {b : V3Backing}
    (hb : a.effect.newBacking = some b) : b.outpoint.txid = tx.getId C ∧ HasOutput b tx := by
  cases a with
  | deploy a =>
    obtain rfl := Option.some.inj hb
    exact ⟨rfl, a.s0Out, a.s0Out_get, a.s0Out_script, a.s0Out_value⟩
  | mint a =>
    obtain rfl := Option.some.inj hb
    exact ⟨rfl, a.successor, a.successor_get, a.successor_script, a.successor_value⟩
  | transfer a => cases hb
  | redeem a =>
    obtain rfl := Option.some.inj hb
    exact ⟨rfl, a.successor, a.successor_get, a.successor_script, a.successor_value⟩

/-- Every backing lies on an output of one of the transactions. -/
def VaultsLieIn (C : Crypto) (txs : List Transaction) (σ : Ledger) : Prop :=
  ∀ t b, σ.backing.get t = some b → ∃ tx ∈ txs, b.outpoint.txid = tx.getId C ∧ HasOutput b tx

theorem LedgerRun.vaultsLieIn {σ σ' : Ledger} {base txs : List Transaction}
    (h : LedgerRun C cfg σ txs σ') (hσ : VaultsLieIn C base σ) : VaultsLieIn C (base ++ txs) σ' := by
  induction h generalizing base with
  | nil => simpa using hσ
  | @cons σ _ block tx txs o _ ih =>
    rw [List.append_cons]
    apply ih
    intro t b hb
    have hold (hb : σ.backing.get t = some b) :
        ∃ tx' ∈ base ++ [tx], b.outpoint.txid = tx'.getId C ∧ HasOutput b tx' := by
      obtain ⟨tx', htx', hlies⟩ := hσ t b hb
      exact ⟨tx', List.mem_append_left _ htx', hlies⟩
    cases o with
    | nonCove _ => exact hold hb
    | refused _ _ _ _ => exact hold hb
    | accepted envelope hp a =>
      have hb : (σ.perform a.effect).backing.get t = some b := hb
      rcases perform_backing_get hb with ⟨-, hnew⟩ | ⟨hb, -⟩
      · exact ⟨tx, by simp, a.vault_output hnew⟩
      · exact hold hb

theorem Replays.vaultsLieIn (hσ : Replays C cfg chain σ) :
    VaultsLieIn C (chainTxs chain) σ.toLedger := by
  have hrun : LedgerRun C cfg (V3IndexerState.new C cfg).toLedger (chainTxs chain) σ.toLedger :=
    Replays.ledgerRun .new hσ
  have hstart : VaultsLieIn C [] (V3IndexerState.new C cfg).toLedger := by
    intro t b hb
    cases hb
  simpa using hrun.vaultsLieIn hstart

/-! False alarms. -/

/-- What Core answers about the chain is the chain's: the hash at each height, and each
transaction under its id. -/
structure CoreState.Follows (core : CoreState) (C : Crypto) (chain : List V3BlockInput) : Prop where
  blocks : ∀ b ∈ chain, core.best[b.height]?.map CoreBlock.hash = some b.hash
  transactions : ∀ tx ∈ chainTxs chain, core.transaction (tx.getId C) = some tx

/-- The recovery profile makes no difference to any token's vault script. -/
def ProfileUnseen (C : Crypto) (cfg : V3IndexerConfig) (σ : Ledger) : Prop :=
  ∀ t b, σ.backing.get t = some b → ∃ vault,
    buildBackingVaultV3 C b.state cfg.verifyKeys = .ok vault ∧ vault.scriptPubKey = b.scriptPubKey

theorem nodup_outpoints {live : Dict OutPoint V3TokenUtxo} (hk : Keyed live) :
    (live.values.map V3TokenUtxo.outpoint).Nodup := by
  have hkeys : live.values.map V3TokenUtxo.outpoint = live.entries.map Prod.fst := by
    rw [Dict.values, Multiset.map_map]
    apply Multiset.map_congr rfl
    intro e he
    exact hk e.1 e.2 (Dict.mem_entries.mp he)
  rw [hkeys]
  exact live.keys_nodup

/-- A state of the chain passes all checks but the one of the vault script. -/
theorem agreesWithKnown_iff (hσ : Replays C cfg chain σ) (hcore : core.Follows C chain) :
    AgreesWithKnown C cfg core σ ↔ ProfileUnseen C cfg σ.toLedger := by
  have hI := hσ.inv
  constructor
  · intro h t b hb
    exact (h.backing t b hb).script
  · intro hprofile
    have hlast (hpos : 0 < σ.cursor.height) : ∃ b ∈ chain, b.height = σ.cursor.height ∧
        b.hash = σ.cursor.blockHash ∧ computeStateRoot C σ.toLedger = σ.cursor.stateRoot := by
      rw [hI.cursor, cursorAt] at hpos ⊢
      cases hget : chain.getLast? with
      | none =>
        rw [hget] at hpos
        cases hpos
      | some b => exact ⟨b, List.mem_of_getLast? hget, rfl, rfl, rfl⟩
    refine ⟨?_, ?_, ?_, ?_, nodup_outpoints hI.ledger.keyed⟩
    · intro hpos
      obtain ⟨b, hb, hheight, hhash, -⟩ := hlast hpos
      rw [← hheight, ← hhash]
      exact hcore.blocks b hb
    · intro t b hb
      obtain ⟨tx, htx, hid, out, hout, hscript, hvalue⟩ := hσ.vaultsLieIn t b hb
      refine ⟨⟨tx, out, ?_, hout, hscript, hvalue⟩, hprofile t b hb,
        (hI.ledger.backing_sound t b hb).btcValue⟩
      rw [hid]
      exact hcore.transactions tx htx
    · intro hpos
      obtain ⟨_, -, -, -, hroot⟩ := hlast hpos
      exact hroot
    · intro k u hu
      exact ⟨hσ.carriersPos k u hu, hI.ledger.carrier_known k u hu⟩

/-- Without a recovery profile, and with the one that stands for it, no vault script differs. -/
theorem profileUnseen_of_default (hσ : Replays C cfg chain σ) (hdefault : cfg.recoveryProfile = none ∨
    cfg.recoveryProfile = some (dev1RecoveryProfile cfg.recoveryKeyXOnly)) :
    ProfileUnseen C cfg σ.toLedger := by
  intro t b hb
  obtain ⟨vault, hvault, hscript⟩ := (hσ.inv.ledger.backing_sound t b hb).script
  refine ⟨vault, ?_, hscript.symm⟩
  rw [← hvault]
  rcases hdefault with hnone | hdev
  · simp only [buildBackingVaultV3, buildCoveVaultV3, V3IndexerConfig.verifyKeys,
      V3IndexerConfig.vaultKeys, hnone]
  · simp only [buildBackingVaultV3, buildCoveVaultV3, V3IndexerConfig.verifyKeys,
      V3IndexerConfig.vaultKeys, hdev, Option.getD_some, Option.getD_none]

/-- On a state of Core's own chain a quick verification raises an alarm exactly where the
recovery profile enters a vault script. -/
theorem quick_verify_alarm_iff (hσ : Reachable C cfg chain σ) (hcore : core.Follows C chain)
    (l : σ.toLedger.Listing) :
    quickVerify C cfg core σ l = .ok () ↔ ProfileUnseen C cfg σ.toLedger := by
  rw [quickVerify_eq_ok]
  exact agreesWithKnown_iff hσ.replays hcore

/-! Spent vaults. -/

/-- The vault of the backing's state lies unspent on its outpoint. -/
def VaultUnspent (C : Crypto) (cfg : V3IndexerConfig) (core : CoreState) (b : V3Backing) : Prop :=
  ∃ out vault, core.unspent.get b.outpoint = some out ∧
    buildBackingVaultV3 C b.state cfg.vaultKeys = .ok vault ∧ out.script = vault.scriptPubKey ∧
    (out.value : Int) = reserveAnchorSats + b.state.backingSats

end

/-! Samples: a token with a recovery profile, and a state behind the chain. -/

theorem AgreesWithKnown.of_same {C : Crypto} {cfg : V3IndexerConfig} {core : CoreState}
    {σ σ' : V3IndexerState} (h : AgreesWithKnown C cfg core σ) (hledger : σ'.toLedger = σ.toLedger)
    (hcursor : σ'.cursor = σ.cursor) : AgreesWithKnown C cfg core σ' := by
  constructor
  case cursor => rw [hcursor]; exact h.cursor
  case backing => rw [hledger]; exact h.backing
  case root => rw [hcursor, hledger]; exact h.root
  case carriers => rw [hledger]; exact h.carriers
  case outpoints => rw [hledger]; exact h.outpoints

theorem exists_selection (db : Db) : ∃ sel, Selects db sel := by
  let unspent : Dict OutPoint UtxoRow := db.tokenUtxos.filter fun _ r => r.spentByTxid.isNone
  refine ⟨⟨db.tokens.entries.toList, db.backingStates.entries.toList, unspent.entries.toList,
    db.events.entries.toList, db.undo.entries.toList, db.cursor.toList⟩, ?_⟩
  exact ⟨Multiset.coe_toList _, Multiset.coe_toList _, Multiset.coe_toList _, Multiset.coe_toList _,
    Multiset.coe_toList _, rfl⟩

/-- The transactions' spendable outputs that none of them spends. -/
def utxoSet (C : Crypto) (txs : List Transaction) : Dict OutPoint TxOut :=
  let outputs := txs.flatMap fun tx => tx.outs.zipIdx.map fun p => (⟨tx.getId C, p.2⟩, p.1)
  ((∅ : Dict OutPoint TxOut).setAll (outputs.filter fun e => e.2.script.head? ≠ some 0x6a)).deleteAll
    (txs.flatMap Transaction.spends)

/-- Core knows the transactions of its best chain and no others. -/
def coreOf (C : Crypto) (best : List CoreBlock)
    (h : ∀ o out, (utxoSet C (best.flatMap CoreBlock.rawTxs)).get o = some out →
      ∀ tx ∈ (best.flatMap CoreBlock.rawTxs).find? (fun tx => tx.getId C = o.txid),
        tx.outs[o.vout]? = some out) : CoreState where
  best := best
  block hash := best.find? fun b => b.hash = hash
  transaction txid := (best.flatMap CoreBlock.rawTxs).find? fun tx => tx.getId C = txid
  unspent := utxoSet C (best.flatMap CoreBlock.rawTxs)
  unspent_output o out tx hout htx := h o out hout tx htx

def mintedCore : CoreState := coreOf sampleCrypto mintedChain (by decide +kernel)

theorem mintedCore_follows : mintedCore.Follows sampleCrypto [deployBlock, mintBlock] :=
  ⟨by decide +kernel, by decide +kernel⟩

theorem quick_verify_alarm_sample : ∃ σ,
    Reachable sampleCrypto sampleConfig [deployBlock, mintBlock] σ ∧
    ∀ l, quickVerify sampleCrypto sampleConfig mintedCore σ l = .ok () := by
  obtain ⟨σ, _, hσ, -⟩ := sample_reachable
  have hprofile := profileUnseen_of_default hσ.replays (Or.inl rfl)
  exact ⟨σ, hσ, fun l => (quick_verify_alarm_iff hσ mintedCore_follows l).mpr hprofile⟩

/-- The curve point of one more key, and of the vault of the profile with that key. -/
def profileCrypto : Crypto where
  sha256 := Sha256.sha256
  isXOnlyPoint key := sampleCrypto.isXOnlyPoint key || key = sampleConfig.recoveryKeyXOnly
  xOnlyPointAddTweak key tweak :=
    if key = coveNumsXOnly ∧ tweak =
      Bytes.ofNatBE 32 0xb63afef6ab5f20137ed636bbcf13ad5e2c20084ae91ce581c7daebb77c98702f then
      some (Bytes.ofNatBE 32 0x00a99f453b530566eca468af2118babff4245574b1f4b27b0c597b568f8aabd7, 1)
    else sampleCrypto.xOnlyPointAddTweak key tweak

def profileConfig : V3IndexerConfig :=
  { sampleConfig with
    recoveryProfile := some ⟨.mainnet1, 2016, 1, [sampleConfig.recoveryKeyXOnly]⟩ }

/-- A deploy whose vault has the profile's recovery leaf. -/
def profileDeploy : Transaction := sampleDeploy (Bytes.ascii "ALPHA")
  (Bytes.ofNatBE 32 0x00a99f453b530566eca468af2118babff4245574b1f4b27b0c597b568f8aabd7) 1

def profileChain : List CoreBlock :=
  [coreBlock 0xb0 0 [], coreBlock 0xb1 0xb0 [profileDeploy]]

def profileCore : CoreState := coreOf profileCrypto profileChain (by decide +kernel)

/-- The state is Core's own chain's, and its verification is an alarm. -/
theorem profiled_vault_alarms : ∃ σ,
    Reachable profileCrypto profileConfig (activeBlocks profileConfig profileChain) σ ∧
    profileCore.Follows profileCrypto (activeBlocks profileConfig profileChain) ∧
    ∀ l, quickVerify profileCrypto profileConfig profileCore σ l ≠ .ok () := by
  have hactive : ∀ block ∈ activeBlocks profileConfig profileChain,
      ActiveBlock profileCrypto profileConfig [] block := by
    decide +kernel
  have hrun : ((replay profileCrypto profileConfig (activeBlocks profileConfig profileChain)
      (.new profileCrypto profileConfig)).toOption.any fun σ =>
        (σ.backing.get alphaId).any fun b =>
          (buildBackingVaultV3 profileCrypto b.state profileConfig.verifyKeys).toOption.all
            fun vault => vault.scriptPubKey ≠ b.scriptPubKey) = true := by
    decide +kernel
  obtain ⟨σ, hσ, hrun⟩ := (Option.any_eq_true _ _).mp hrun
  obtain ⟨b, hb, hdiffers⟩ := (Option.any_eq_true _ _).mp hrun
  rw [toOption_eq_some] at hσ
  have hreplays : Replays profileCrypto profileConfig (activeBlocks profileConfig profileChain) σ := by
    have hone : activeBlocks profileConfig profileChain =
        [] ++ [inputAt 1 (coreBlock 0xb1 0xb0 [profileDeploy])] := rfl
    rw [hone] at hσ hactive ⊢
    simp only [List.nil_append, replay, bind_eq_ok, Prod.exists, Except.ok.injEq] at hσ
    obtain ⟨σ', events, happly, rfl⟩ := hσ
    exact .step .new (hactive _ List.mem_cons_self) happly
  have hfollows : profileCore.Follows profileCrypto (activeBlocks profileConfig profileChain) :=
    ⟨by decide +kernel, by decide +kernel⟩
  refine ⟨σ, hreplays.reachable, hfollows, ?_⟩
  intro l hok
  have hprofile := (agreesWithKnown_iff hreplays hfollows).mp ((quickVerify_eq_ok l).mp hok)
  obtain ⟨vault, hvault, hscript⟩ := hprofile alphaId b hb
  rw [hvault] at hdiffers
  exact of_decide_eq_true hdiffers hscript

end Cove
