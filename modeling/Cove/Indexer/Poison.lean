import Cove.Economics.Spend
import Cove.Indexer.Chain
import Cove.Indexer.Classify

/-! No block stops the indexer: whatever its transactions hold, each ends in a burn, an operation or
a recorded refusal. -/

namespace Cove

open Checked

/-- The token id a transaction would deploy. -/
def deployTokenId (C : Crypto) (cfg : V3IndexerConfig) (tx : Transaction) : Option Bytes :=
  match parseCoveTx tx, tx.outs[2]? with
  | .cove (.deploy policyVersion ticker tokenNonce), some creatorOut =>
    (computeTokenId C
      ⟨cfg.chainIdentity, policyVersion, ticker, tokenNonce, creatorOut.script⟩).toOption
  | _, _ => none

/-- SHA-256 and the point tweak where the indexer relies on them: digests of 32 bytes, none of
the block's token ids all zero, and no tweak of the unspendable key by a digest at infinity. -/
structure VaultCrypto (C : Crypto) (cfg : V3IndexerConfig) (block : V3BlockInput) : Prop where
  width : ∀ m, (C.sha256 m).length = 32
  nonzero : ∀ tx ∈ block.txs, deployTokenId C cfg tx ≠ some (List.replicate 32 0)
  tweaks : ∀ m, ∃ p, C.xOnlyPointAddTweak coveNumsXOnly (C.sha256 m) = some p

/-- What the loader of the configuration promises: keys a vault can be built for, and fees that
are not negative. -/
structure V3IndexerConfig.Sound (C : Crypto) (cfg : V3IndexerConfig) : Prop where
  guardian_length : cfg.guardianXOnly.length = 32
  guardian_point : C.isXOnlyPoint cfg.guardianXOnly = true
  recovery : ∃ leaf, buildRecoveryLeafForProfile C
    (cfg.recoveryProfile.getD (dev1RecoveryProfile cfg.recoveryKeyXOnly)) = .ok leaf
  buyFeeBps : 0 ≤ cfg.buyFeeBps.getD coveFeeConfig.buyFeeBps
  buyFeeFlatSats : 0 ≤ cfg.buyFeeFlatSats.getD coveFeeConfig.buyFeeFlatSats
  creatorFeeBps : 0 ≤ cfg.creatorFeeBps.getD coveFeeConfig.creatorFeeBps
  redeemFeeBps : 0 ≤ cfg.redeemFeeBps.getD coveFeeConfig.redeemFeeBps
  redeemFeeFlatSats : 0 ≤ cfg.redeemFeeFlatSats.getD coveFeeConfig.redeemFeeFlatSats

/-- An early exit that is a refusal with its reason. -/
def Exit.Told : Exit → Prop
  | .invalid r => r.valid = false ∧ r.reason.isSome = true
  | .fault _ => False

section

variable {C : Crypto} {cfg : V3IndexerConfig} {block : V3BlockInput} {σ : Ledger}
  {tx : Transaction}

/-- A step that cannot throw needs no catch. -/
theorem uncaught_told {α : Type} {x : Except Fault α} (h : ∃ a, x = .ok a) :
    FailsWith Exit.Told (uncaught x) := by
  obtain ⟨a, rfl⟩ := h
  exact .ok a

/-! What the operations call without a catch. -/

theorem policyIdentityHash_ok {p : PolicyIdentity} (hid : p.tokenId.length = 32)
    (hstate : p.currentStateHash.length = 32) (hcmr : p.cmr.length = 32) :
    ∃ m, policyIdentityHash C p = .ok (C.sha256 m) := by
  simp only [policyIdentityHash, bind_eq_ok, ensure_eq_ok, pure_eq_ok]
  exact ⟨_, (), hid, (), hstate, (), hcmr, rfl⟩

theorem buildExecutionLeaf_ok (hcfg : cfg.Sound C) {identity : Bytes} (hid : identity.length = 32) :
    ∃ script, buildExecutionLeaf C identity cfg.guardianXOnly = .ok script := by
  simp only [buildExecutionLeaf, bind_eq_ok, ensure_eq_ok, pure_eq_ok]
  exact ⟨_, (), hid, (), hcfg.guardian_length, (), hcfg.guardian_point, rfl⟩

/-- A state that serializes has its vault. -/
theorem buildBackingVaultV3_ok (hC : VaultCrypto C cfg block) (hcfg : cfg.Sound C)
    {s : CoveStateV2} (h : ∃ bytes, serializeStateV2 s = .ok bytes) :
    ∃ vault, buildBackingVaultV3 C s cfg.vaultKeys = .ok vault := by
  obtain ⟨bytes, hbytes⟩ := h
  have hid : s.tokenId.length = 32 := by
    simp only [serializeStateV2, bind_eq_ok, ensure_eq_ok] at hbytes
    obtain ⟨_, -, _, hid, -⟩ := hbytes
    exact hid
  have hhash : stateHashV2 C s = .ok (C.sha256 (Bytes.ascii "Cove/State/v2" ++ [0x00] ++ bytes)) :=
    bind_eq_ok.mpr ⟨bytes, hbytes, rfl⟩
  have hidentity : ∀ (op : UInt8) (cmr : Bytes), cmr.length = 32 → ∃ m, policyIdentityHash C
      ⟨covePolicyV3, op, s.tokenId, C.sha256 (Bytes.ascii "Cove/State/v2" ++ [0x00] ++ bytes), cmr⟩ =
        .ok (C.sha256 m) := fun op cmr hcmr => policyIdentityHash_ok hid (hC.width _) hcmr
  obtain ⟨mintPi, hmint⟩ := hidentity opMint mintCmrV3 (by decide)
  obtain ⟨redeemPi, hredeem⟩ := hidentity opRedeem redeemCmrV3 (by decide)
  obtain ⟨mintScript, hmintLeaf⟩ := buildExecutionLeaf_ok hcfg (hC.width mintPi)
  obtain ⟨redeemScript, hredeemLeaf⟩ := buildExecutionLeaf_ok hcfg (hC.width redeemPi)
  obtain ⟨recoveryScript, hrecovery⟩ := hcfg.recovery
  simp only [buildBackingVaultV3, bind_eq_ok]
  simp only [buildCoveVaultV3, bind_eq_ok, pure_eq_ok, taprootMerkleRoot, ensure_eq_ok, tweakKey,
    demand_eq_ok]
  obtain ⟨p, hp⟩ := hC.tweaks _
  exact ⟨_, _, hhash, _, hmint, _, hredeem, _, hmintLeaf, _, hredeemLeaf, _, hrecovery, _,
    ⟨(), by simp, rfl⟩, p, hp, rfl⟩

/-! Every operation ends in a result. -/

theorem transferCarriers_told (tokenId : Bytes) (allocations : List TokenAllocation) :
    FailsWith Exit.Told (transferCarriers C block tx tokenId allocations) := by
  induction allocations with
  | nil => exact .ok _
  | cons a allocations ih =>
    rw [transferCarriers]
    exact .bind (.demand ⟨rfl, rfl⟩) fun _ => .bind (.ensure ⟨rfl, rfl⟩) fun _ =>
      .bind ih fun _ => .pure _

theorem redeemCarriers_told (tokenId : Bytes) (changeAtoms : Int)
    (changeAllocations : List TokenAllocation) :
    FailsWith Exit.Told (redeemCarriers C block tx tokenId changeAtoms changeAllocations) := by
  unfold redeemCarriers
  split
  · exact .bind (.demand ⟨rfl, rfl⟩) fun _ => .bind (.ensure ⟨rfl, rfl⟩) fun _ =>
      .bind (.ensure ⟨rfl, rfl⟩) fun _ => .pure _
  · exact .bind (.ensure ⟨rfl, rfl⟩) fun _ => .pure _

theorem computeTokenId_ok {policyVersion : Nat} {ticker tokenNonce b : Bytes}
    (hencode : encodeDeployV2 policyVersion ticker tokenNonce = .ok b)
    {chainIdentity script : Bytes} (hscript : isCreatorScript script = true) :
    ∃ m, computeTokenId C ⟨chainIdentity, policyVersion, ticker, tokenNonce, script⟩ =
      .ok (C.sha256 m) := by
  simp only [encodeDeployV2, bind_eq_ok, ensure_eq_ok] at hencode
  obtain ⟨_, hpolicy, _, hnonce, tick, htick, -⟩ := hencode
  have hlen : script.length ≠ 0 ∧ script.length ≤ 255 := by
    simp only [isCreatorScript, isP2WPKH, isP2TR, isP2SH, Bool.or_eq_true, Bool.and_eq_true,
      decide_eq_true_eq] at hscript
    omega
  simp only [computeTokenId, bind_eq_ok, ensure_eq_ok, pure_eq_ok]
  exact ⟨_, tick, htick, (), hnonce, (), by omega, (), hlen, rfl⟩

/-- The first state of a token serializes. -/
theorem s0StateV2_ok {tokenId : Bytes} (hlen : tokenId.length = 32)
    (hnonzero : tokenId ≠ List.replicate 32 0) :
    ∃ s, s0StateV2 tokenId = .ok s ∧ ∃ bytes, serializeStateV2 s = .ok bytes := by
  have hstage : impliedStageV2 0 = .ok 1 := by decide
  have hs0 : s0StateV2 tokenId = .ok ⟨2, covePolicyV3, tokenId, 0, 0, 1⟩ :=
    bind_eq_ok.mpr ⟨1, hstage, rfl⟩
  have hid : isTokenIdHex tokenId = true := by
    rw [isTokenIdHex, Bool.and_eq_true]
    exact ⟨decide_eq_true hlen, decide_eq_true hnonzero⟩
  exact ⟨_, hs0, (s0StateV2_spec hs0 hid).1.serializes⟩

theorem applyDeploy_told (hC : VaultCrypto C cfg block) (hcfg : cfg.Sound C) (htx : tx ∈ block.txs)
    {policyVersion : Nat} {ticker tokenNonce : Bytes}
    (hp : parseCoveTx tx = .cove (.deploy policyVersion ticker tokenNonce)) :
    FailsWith Exit.Told (applyDeploy C cfg block σ tx policyVersion ticker tokenNonce) := by
  obtain ⟨payload, -, hencode, -⟩ := parseCoveTx_cove_iff.mp hp
  refine FailsWith.bind_of_ok (.demand ⟨rfl, rfl⟩) fun creatorOut hcreator =>
    FailsWith.bind_of_ok (.ensure ⟨rfl, rfl⟩) fun _ hok => ?_
  rw [demand_eq_ok] at hcreator
  rw [ensure_eq_ok] at hok
  obtain ⟨m, hid⟩ := @computeTokenId_ok C _ _ _ _ hencode cfg.chainIdentity _ hok.2
  have hnonzero : C.sha256 m ≠ List.replicate 32 0 := by
    intro hzero
    apply hC.nonzero tx htx
    rw [deployTokenId, hp, hcreator]
    dsimp only
    rw [hid, ← hzero]
    rfl
  obtain ⟨s0, hs0, hbytes⟩ := s0StateV2_ok (hC.width m) hnonzero
  rw [hid]
  refine .bind_of_ok (.ok _) fun tokenId htoken => ?_
  obtain rfl : C.sha256 m = tokenId := Except.ok.inj htoken
  refine .bind (.ensure ⟨rfl, rfl⟩) fun _ => ?_
  rw [hs0]
  refine .bind_of_ok (.ok _) fun s hs => ?_
  obtain rfl : s0 = s := Except.ok.inj hs
  exact .bind (uncaught_told (buildBackingVaultV3_ok hC hcfg hbytes)) fun _ =>
    .bind (.demand ⟨rfl, rfl⟩) fun _ => .bind (.ensure ⟨rfl, rfl⟩) fun _ =>
    .bind (.ensure ⟨rfl, rfl⟩) fun _ => .bind (uncaught_told (stateHashV2_ok hbytes)) fun _ =>
    .pure _

theorem applyMint_told (hC : VaultCrypto C cfg block) (hcfg : cfg.Sound C) (tokenId : Bytes)
    (amount : Int) (recipientVout : Nat) :
    FailsWith Exit.Told (applyMint C cfg block σ tx tokenId amount recipientVout) := by
  refine .bind (.demand ⟨rfl, rfl⟩) fun tokenMeta => .bind (.demand ⟨rfl, rfl⟩) fun backing =>
    .bind (.demand ⟨rfl, rfl⟩) fun ins0 => .bind (.ensure ⟨rfl, rfl⟩) fun _ =>
    .bind_of_ok (.mapError fun _ => ⟨rfl, rfl⟩) fun canonical hcanonical => ?_
  rw [mapError_eq_ok] at hcanonical
  have hstep := applyMintV2_iff.mp hcanonical
  have hbytes := hstep.upper_valid.serializes
  have hgross : 0 ≤ canonical.grossSats := by
    have := hstep.gross_pos
    omega
  have hlots : 0 ≤ amount / lotAtoms := Int.ediv_nonneg hstep.amount_pos.le (by decide)
  have hfee : ∃ fee, mintFeeSats canonical.grossSats amount
      (cfg.buyFeeBps.getD coveFeeConfig.buyFeeBps)
      (cfg.buyFeeFlatSats.getD coveFeeConfig.buyFeeFlatSats) coveFeeConfig.buyFeeLotSats =
        .ok fee := by
    have hflat := hcfg.buyFeeFlatSats
    have hlot : coveFeeConfig.buyFeeLotSats = 10 := rfl
    exact deterministicFee_ok hgross hcfg.buyFeeBps (by rw [hlot]; omega) (le_refl 0)
  have hcreator : ∃ fee, creatorFeeSats canonical.grossSats
      (cfg.creatorFeeBps.getD coveFeeConfig.creatorFeeBps) = .ok fee :=
    deterministicFee_ok hgross hcfg.creatorFeeBps (le_refl 0) (by decide)
  exact .bind (uncaught_told hfee) fun _ =>
    .bind (uncaught_told (buildBackingVaultV3_ok hC hcfg hbytes)) fun _ =>
    .bind (.demand ⟨rfl, rfl⟩) fun _ => .bind (.ensure ⟨rfl, rfl⟩) fun _ =>
    .bind (.ensure ⟨rfl, rfl⟩) fun _ => .bind (.ensure ⟨rfl, rfl⟩) fun _ =>
    .bind (.demand ⟨rfl, rfl⟩) fun _ => .bind (.ensure ⟨rfl, rfl⟩) fun _ =>
    .bind (.demand ⟨rfl, rfl⟩) fun _ => .bind (.ensure ⟨rfl, rfl⟩) fun _ =>
    .bind (.demand ⟨rfl, rfl⟩) fun _ => .bind (uncaught_told hcreator) fun _ =>
    .bind (.ensure ⟨rfl, rfl⟩) fun _ => .bind (uncaught_told (stateHashV2_ok hbytes)) fun _ =>
    .pure _

theorem applyTransfer_told (tokenId : Bytes) (allocations : List TokenAllocation) :
    FailsWith Exit.Told (applyTransfer C block σ tx tokenId allocations) :=
  .bind (.ensure ⟨rfl, rfl⟩) fun _ => .bind (.mapError fun _ => ⟨rfl, rfl⟩) fun _ =>
    .bind (.ensure ⟨rfl, rfl⟩) fun _ => .bind (transferCarriers_told _ _) fun _ => .pure _

theorem applyRedeem_told (hC : VaultCrypto C cfg block) (hcfg : cfg.Sound C) (tokenId : Bytes)
    (redeemAmount : Int) (changeAllocations : List TokenAllocation) :
    FailsWith Exit.Told (applyRedeem C cfg block σ tx tokenId redeemAmount changeAllocations) := by
  refine .bind (.demand ⟨rfl, rfl⟩) fun tokenMeta => .bind (.demand ⟨rfl, rfl⟩) fun backing =>
    .bind (.demand ⟨rfl, rfl⟩) fun ins0 => .bind (.ensure ⟨rfl, rfl⟩) fun _ =>
    .bind (.mapError fun _ => ⟨rfl, rfl⟩) fun spent => .bind (.ensure ⟨rfl, rfl⟩) fun _ =>
    .bind (.ensure ⟨rfl, rfl⟩) fun _ =>
    .bind_of_ok (.mapError fun _ => ⟨rfl, rfl⟩) fun canonical hcanonical => ?_
  rw [mapError_eq_ok] at hcanonical
  have hstep := applyRedeemV2_iff.mp hcanonical
  have hbytes := hstep.lower_valid.serializes
  have hgross : 0 ≤ canonical.grossSats := by
    have := hstep.gross_pos
    omega
  have hfee : ∃ fee, redeemFeeSats canonical.grossSats
      (cfg.redeemFeeBps.getD coveFeeConfig.redeemFeeBps)
      (cfg.redeemFeeFlatSats.getD coveFeeConfig.redeemFeeFlatSats) coveFeeConfig.redeemFeeMinSats =
        .ok fee :=
    deterministicFee_ok hgross hcfg.redeemFeeBps hcfg.redeemFeeFlatSats (by decide)
  exact .bind (uncaught_told hfee) fun _ =>
    .bind (uncaught_told (buildBackingVaultV3_ok hC hcfg hbytes)) fun _ =>
    .bind (.demand ⟨rfl, rfl⟩) fun _ => .bind (.ensure ⟨rfl, rfl⟩) fun _ =>
    .bind (.ensure ⟨rfl, rfl⟩) fun _ => .bind (.demand ⟨rfl, rfl⟩) fun _ =>
    .bind (.ensure ⟨rfl, rfl⟩) fun _ => .bind (.demand ⟨rfl, rfl⟩) fun _ =>
    .bind (.ensure ⟨rfl, rfl⟩) fun _ => .bind (redeemCarriers_told _ _ _) fun _ =>
    .bind (uncaught_told (stateHashV2_ok hbytes)) fun _ => .pure _

theorem applyEnvelope_told (hC : VaultCrypto C cfg block) (hcfg : cfg.Sound C)
    (htx : tx ∈ block.txs) {envelope : ParsedEnvelopeV2} (hp : parseCoveTx tx = .cove envelope) :
    FailsWith Exit.Told (applyEnvelope C cfg block σ tx envelope) := by
  cases envelope with
  | deploy policyVersion ticker tokenNonce => exact applyDeploy_told hC hcfg htx hp
  | mint tokenId amount recipientVout => exact applyMint_told hC hcfg tokenId amount recipientVout
  | transfer tokenId allocations => exact applyTransfer_told tokenId allocations
  | redeem tokenId redeemAmount changeAllocations =>
    exact applyRedeem_told hC hcfg tokenId redeemAmount changeAllocations

/-! The events of a block. -/

/-- What an event says of its transaction: it is valid, or the reason why not. -/
def V3Event.Tells (C : Crypto) (tx : Transaction) (e : V3Event) : Prop :=
  e.txid = tx.getId C ∧ (e.valid = true ∨ e.reason.isSome = true)

/-- Among the events there is one of the transaction at the index, and it tells what became of
it. -/
def RecordedOnce (C : Crypto) (events : List V3Event) (txIndex : Nat) (tx : Transaction) : Prop :=
  ∃ e, events.filter (fun e => e.txIndex = txIndex) = [e] ∧ e.Tells C tx

theorem applyParsed_told (hC : VaultCrypto C cfg block) (hcfg : cfg.Sound C) (htx : tx ∈ block.txs)
    (hp : parseCoveTx tx ≠ .nonCove) :
    ∃ ledger r, applyParsed C cfg block σ tx (parseCoveTx tx) = .ok (ledger, r) ∧
      (r.valid = true ∨ r.reason.isSome = true) := by
  cases hc : parseCoveTx tx with
  | nonCove => exact absurd hc hp
  | invalid reason => exact ⟨σ, _, rfl, Or.inr rfl⟩
  | cove envelope =>
    rw [applyParsed, applyCove]
    cases he : applyEnvelope C cfg block σ tx envelope with
    | ok p =>
      obtain ⟨a, rfl⟩ := applyEnvelope_eq_ok.mp he
      exact ⟨_, _, rfl, Or.inl a.result_valid⟩
    | error e =>
      have htold := applyEnvelope_told (σ := σ) hC hcfg htx hc e he
      cases e with
      | invalid r => exact ⟨σ, r, rfl, Or.inr htold.2⟩
      | fault f => exact htold.elim

/-- One turn of the loop records nothing of a foreign transaction and one event of any other. -/
theorem applyTx_recorded (hC : VaultCrypto C cfg block) (hcfg : cfg.Sound C) (htx : tx ∈ block.txs)
    (txIndex : Nat) (run : BlockRun) :
    ∃ run' new, applyTx C cfg block txIndex tx run = .ok run' ∧ run'.events = run.events ++ new ∧
      (∀ e ∈ new, e.txIndex = txIndex) ∧ (parseCoveTx tx = .nonCove → new = []) ∧
      (parseCoveTx tx ≠ .nonCove → ∃ e, new = [e] ∧ e.Tells C tx) := by
  by_cases hc : parseCoveTx tx = .nonCove
  · refine ⟨_, [], by simp only [applyTx, hc]; rfl, by simp, by simp, fun _ => rfl, ?_⟩
    exact fun h => absurd hc h
  · obtain ⟨ledger, r, hparsed, htold⟩ := applyParsed_told (σ := run.ledger) hC hcfg htx hc
    obtain ⟨run', hrun, hevents⟩ : ∃ run', applyTx C cfg block txIndex tx run = .ok run' ∧
        run'.events = run.events ++ [eventOf C block txIndex tx r] := by
      unfold applyTx
      split
      · contradiction
      · rw [hparsed]
        exact ⟨_, rfl, rfl⟩
    exact ⟨run', _, hrun, hevents, by simp [eventOf], fun h => absurd h hc,
      fun _ => ⟨_, rfl, rfl, htold⟩⟩

theorem filter_index_eq_nil {events : List V3Event} {i j : Nat} (h : ∀ e ∈ events, j ≤ e.txIndex)
    (hij : i < j) : events.filter (fun e => e.txIndex = i) = [] := by
  rw [List.filter_eq_nil_iff]
  intro e he
  have := h e he
  simp only [decide_eq_true_eq]
  omega

/-- The loop goes through any transactions of the block. -/
theorem applyTxs_recorded (hC : VaultCrypto C cfg block) (hcfg : cfg.Sound C)
    {txs : List Transaction} (htxs : ∀ tx ∈ txs, tx ∈ block.txs) (n : Nat) (run : BlockRun) :
    ∃ run' new, applyTxs C cfg block n txs run = .ok run' ∧ run'.events = run.events ++ new ∧
      (∀ e ∈ new, n ≤ e.txIndex) ∧
      ∀ i tx, txs[i]? = some tx → (RecordedOnce C new (n + i) tx ↔ parseCoveTx tx ≠ .nonCove) := by
  induction txs generalizing n run with
  | nil => exact ⟨run, [], rfl, by simp, by simp, by simp⟩
  | cons tx txs ih =>
    rw [List.forall_mem_cons] at htxs
    obtain ⟨mid, first, hmid, hfirst, hindex, hnone, hone⟩ :=
      applyTx_recorded hC hcfg htxs.1 n run
    obtain ⟨run', rest, hrun, hrest, hle, hall⟩ := ih htxs.2 (n + 1) mid
    refine ⟨run', first ++ rest, ?_, by rw [hrest, hfirst, List.append_assoc], ?_, ?_⟩
    · rw [applyTxs, hmid]
      exact hrun
    · intro e he
      rcases List.mem_append.mp he with he | he
      · rw [hindex e he]
      · have := hle e he
        omega
    · intro i t hi
      rw [RecordedOnce, List.filter_append]
      cases i with
      | zero =>
        obtain rfl : tx = t := Option.some.inj hi
        rw [Nat.add_zero, filter_index_eq_nil hle (Nat.lt_succ_self n), List.append_nil,
          List.filter_eq_self.mpr fun e he => decide_eq_true (hindex e he)]
        constructor
        · intro h hnc
          obtain ⟨e, he, -⟩ := h
          rw [hnone hnc] at he
          cases he
        · exact hone
      | succ i =>
        have hfirst : first.filter (fun e => e.txIndex = n + (i + 1)) = [] := by
          rw [List.filter_eq_nil_iff]
          intro e he
          rw [hindex e he]
          simp
        rw [hfirst, List.nil_append, show n + (i + 1) = n + 1 + i by omega]
        exact hall i t hi

/-- The magic is where the indexer does not look for it: the length byte counts the bytes after
it, and they are too few for a header or do not start with the magic. -/
def missesMagic (tx : Transaction) : Bool :=
  match script0 tx with
  | some (0x6a :: len :: payload) =>
    payload.length = len.toNat && (payload.length < 4 || !startsWithMagic payload)
  | _ => false

theorem nonCove_iff_missed (h : carriesCoveMagic tx = true) :
    parseCoveTx tx = .nonCove ↔ missesMagic tx = true := by
  obtain ⟨len, payload, hout⟩ : ∃ len payload, script0 tx = some (0x6a :: len :: payload) := by
    unfold carriesCoveMagic at h
    split at h
    · rename_i pushes hout
      cases pushes with
      | nil => cases h
      | cons len payload => exact ⟨len, payload, hout⟩
    · cases h
  have hmissed : missesMagic tx = true ↔ payload.length = len.toNat ∧
      (payload.length < 4 ∨ startsWithMagic payload = false) := by
    unfold missesMagic
    rw [hout]
    simp
  rw [hmissed]
  by_cases hlen : payload.length = len.toNat
  · rw [parseCoveTx_payload hout hlen]
    constructor
    · intro hparse
      refine ⟨hlen, ?_⟩
      by_contra hnot
      rw [not_or, Bool.not_eq_false] at hnot
      rw [if_pos ⟨by omega, hnot.2⟩] at hparse
      split at hparse <;> cases hparse
    · intro hmiss
      apply if_neg
      intro hfound
      rcases hmiss.2 with hshort | hno
      · omega
      · rw [hno] at hfound
        cases hfound.2
  · rw [parseCoveTx_bad_length hout hlen]
    constructor
    · intro hparse
      cases hparse
    · exact fun hmiss => absurd hmiss.1 hlen

/-- The block goes through, and each transaction that carries the magic has its one event. -/
def NoPoison (C : Crypto) (cfg : V3IndexerConfig) (σ : V3IndexerState) (block : V3BlockInput) :
    Prop :=
  ∃ σ' events, applyBlock C cfg σ block = .ok (σ', events) ∧
    ∀ i tx, block.txs[i]? = some tx → carriesCoveMagic tx = true → RecordedOnce C events i tx

/-- No block makes the indexer throw, whatever its transactions hold. Each transaction that
carries the magic has exactly one event if and only if the magic of none is missed. -/
theorem no_poison_iff {σ : V3IndexerState} (hC : VaultCrypto C cfg block) (hcfg : cfg.Sound C)
    (hactive : cfg.genesisHeight ≤ block.height) :
    (∃ p, applyBlock C cfg σ block = .ok p) ∧
      (NoPoison C cfg σ block ↔
        ∀ tx ∈ block.txs, carriesCoveMagic tx = true → missesMagic tx = false) := by
  obtain ⟨run, new, hrun, hnew, -, hall⟩ :=
    applyTxs_recorded hC hcfg (fun tx h => h) 0 ⟨σ.toLedger, [], []⟩
  have hblock := (applyBlock_eq_ok (σ := σ) hactive).mpr ⟨run, hrun, rfl, rfl⟩
  have hevents : run.events = new := hnew
  refine ⟨⟨_, hblock⟩, ?_⟩
  constructor
  · intro h tx htx hmagic
    obtain ⟨σ', events, happ, honce⟩ := h
    rw [hblock, Except.ok.injEq, Prod.mk.injEq] at happ
    obtain ⟨i, hi⟩ := List.mem_iff_getElem?.mp htx
    have hone := honce i tx hi hmagic
    rw [← happ.2, hevents, ← Nat.zero_add i, hall i tx hi] at hone
    exact Bool.eq_false_iff.mpr (mt (nonCove_iff_missed hmagic).mpr hone)
  · intro h
    refine ⟨_, _, hblock, ?_⟩
    intro i tx hi hmagic
    rw [hevents, ← Nat.zero_add i, hall i tx hi]
    exact mt (nonCove_iff_missed hmagic).mp
      (Bool.eq_false_iff.mp (h tx (List.mem_of_getElem? hi) hmagic))

end

/-- The sample functions, with a tweak for every key. -/
def tweakingCrypto : Crypto :=
  { sampleCrypto with
    xOnlyPointAddTweak := fun key tweak =>
      some ((sampleCrypto.xOnlyPointAddTweak key tweak).getD (tweak, 0)) }

theorem sampleConfig_sound : sampleConfig.Sound tweakingCrypto where
  guardian_length := by decide
  guardian_point := by decide
  recovery := ⟨_, rfl⟩
  buyFeeBps := by decide
  buyFeeFlatSats := by decide
  creatorFeeBps := by decide
  redeemFeeBps := by decide
  redeemFeeFlatSats := by decide

/-- An `OP_RETURN` output and nothing else. -/
def dataTransaction (script : Bytes) : Transaction where
  ins := []
  outs := [⟨script, 0⟩]

/-- A deploy, an envelope of a wrong version and a foreign output. -/
def mixedBlock : V3BlockInput :=
  ⟨1, List.replicate 32 0xb1, List.replicate 32 0xb0, [alphaDeploy,
    dataTransaction [0x6a, 0x05, 0x43, 0x56, 0x09, 0x03, 0x00], foreignTransaction]⟩

theorem mixedBlock_crypto : VaultCrypto tweakingCrypto sampleConfig mixedBlock where
  width := Sha256.length_sha256
  nonzero := by decide +kernel
  tweaks := fun _ => ⟨_, rfl⟩

theorem mixedBlock_no_poison :
    NoPoison tweakingCrypto sampleConfig (.new tweakingCrypto sampleConfig) mixedBlock :=
  (no_poison_iff mixedBlock_crypto sampleConfig_sound (by decide)).2.mpr (by decide +kernel)

/-- The magic alone, in a push of its two bytes. -/
def bareMagicBlock : V3BlockInput :=
  ⟨1, List.replicate 32 0xb1, List.replicate 32 0xb0, [dataTransaction [0x6a, 0x02, 0x43, 0x56]]⟩

theorem bareMagic_unrecorded :
    ¬ NoPoison tweakingCrypto sampleConfig (.new tweakingCrypto sampleConfig) bareMagicBlock := by
  intro h
  obtain ⟨σ', events, happ, honce⟩ := h
  obtain ⟨e, he, -⟩ := honce 0 _ rfl (by decide)
  have hnone : (applyBlock tweakingCrypto sampleConfig (.new tweakingCrypto sampleConfig)
      bareMagicBlock).toOption.map Prod.snd = some [] := by decide +kernel
  rw [happ] at hnone
  obtain rfl : events = [] := Option.some.inj hnone
  cases he

end Cove
