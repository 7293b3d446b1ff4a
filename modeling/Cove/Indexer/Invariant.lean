import Cove.Indexer.Step
import Cove.Wire.Envelope
import Mathlib.Tactic.Ring

/-! The ledger's invariant, and that one transaction keeps it. -/

namespace Cove

open Checked

/-- A backing record that agrees with the state it stores. -/
structure BackingSound (C : Crypto) (cfg : V3IndexerConfig) (tokenId : Bytes) (b : V3Backing) :
    Prop where
  tokenId_eq : b.tokenId = tokenId
  state_valid : ValidStateV2 b.state
  state_tokenId : b.state.tokenId = tokenId
  stateHash : stateHashV2 C b.state = .ok b.stateHash
  script : ∃ vault, buildBackingVaultV3 C b.state cfg.vaultKeys = .ok vault ∧
    b.scriptPubKey = vault.scriptPubKey
  btcValue : b.btcValue = reserveAnchorSats + b.state.backingSats
  outpoint : b.outpoint = ⟨b.updatedTxid, 1⟩

/-- What holds of the maps once the transactions with the seen txids are applied. -/
structure LedgerInv (C : Crypto) (cfg : V3IndexerConfig) (seen : List Bytes) (σ : Ledger) :
    Prop where
  keyed : Keyed σ.tokenUtxos
  carrier_seen : ∀ k u, σ.tokenUtxos.get k = some u → k.txid ∈ seen
  carrier_known : ∀ k u, σ.tokenUtxos.get k = some u → σ.tokens.has u.tokenId = true
  meta_key : ∀ t m, σ.tokens.get t = some m → m.tokenId = t
  same_keys : ∀ t, σ.tokens.has t = σ.backing.has t
  backing_sound : ∀ t b, σ.backing.get t = some b → BackingSound C cfg t b
  backing_seen : ∀ t b, σ.backing.get t = some b → b.outpoint.txid ∈ seen
  backing_inj : ∀ t t' b b', σ.backing.get t = some b → σ.backing.get t' = some b' →
    b.outpoint = b'.outpoint → t = t'
  apart : ∀ t b, σ.backing.get t = some b → σ.tokenUtxos.get b.outpoint = none

theorem LedgerInv.empty (C : Crypto) (cfg : V3IndexerConfig) : LedgerInv C cfg [] ⟨∅, ∅, ∅⟩ := by
  constructor <;> simp [Keyed, Dict.has]

/-- The atoms of a token that were minted and not redeemed. -/
def Ledger.issued (σ : Ledger) (tokenId : Bytes) : Int :=
  (σ.backing.get tokenId).elim 0 fun b => b.state.issuedPublicSupplyAtoms

/-! The carriers an envelope creates. -/

/-- The carrier an allocation puts on its output. -/
def carrierAt (C : Crypto) (block : V3BlockInput) (tx : Transaction) (tokenId : Bytes)
    (a : TokenAllocation) : V3TokenUtxo where
  txid := tx.getId C
  vout := a.vout
  tokenId := tokenId
  amountAtoms := a.amount
  scriptPubKey := (tx.outs[a.vout]?.map TxOut.script).getD []
  createdHeight := block.height
  createdBlockHash := block.hash

/-- The output an allocation names exists and can carry tokens. -/
def CarrierOk (tx : Transaction) (a : TokenAllocation) : Prop :=
  ∃ out, tx.outs[a.vout]? = some out ∧ (out.value : Int) = tokenCarrierSats ∧
    isStandardCarrier out.script

section Carriers

variable {C : Crypto} {block : V3BlockInput} {tx : Transaction} {tokenId : Bytes}

theorem transferCarriers_eq_ok {allocations : List TokenAllocation} {l : List V3TokenUtxo} :
    transferCarriers C block tx tokenId allocations = .ok l ↔
      (∀ a ∈ allocations, CarrierOk tx a) ∧ l = allocations.map (carrierAt C block tx tokenId) := by
  induction allocations generalizing l with
  | nil => simp [transferCarriers, eq_comm]
  | cons a allocations ih =>
    simp only [transferCarriers, bind_eq_ok, demand_eq_ok, ensure_eq_ok, pure_eq_ok, ih,
      List.forall_mem_cons, List.map_cons]
    constructor
    · rintro ⟨out, ho, _, hok, rest, ⟨hall, rfl⟩, rfl⟩
      exact ⟨⟨⟨out, ho, hok⟩, hall⟩, by simp [carrierAt, ho]⟩
    · rintro ⟨⟨⟨out, ho, hok⟩, hall⟩, rfl⟩
      exact ⟨out, ho, (), hok, _, ⟨hall, rfl⟩, by simp [carrierAt, ho]⟩

theorem redeemCarriers_eq_ok {change : Int} {allocations : List TokenAllocation}
    {l : List V3TokenUtxo} :
    redeemCarriers C block tx tokenId change allocations = .ok l ↔
      (if 0 < change then CarrierOk tx ⟨4, change⟩ ∧ allocations = [⟨4, change⟩]
        else allocations = []) ∧ l = allocations.map (carrierAt C block tx tokenId) := by
  unfold redeemCarriers
  by_cases hc : 0 < change
  · simp only [if_pos hc, bind_eq_ok, demand_eq_ok, ensure_eq_ok, pure_eq_ok]
    constructor
    · rintro ⟨out, ho, _, hok, _, rfl, rfl⟩
      exact ⟨⟨⟨out, ho, hok⟩, rfl⟩, by simp [carrierAt, ho]⟩
    · rintro ⟨⟨⟨out, ho, hok⟩, rfl⟩, rfl⟩
      exact ⟨out, ho, (), hok, (), rfl, by simp [carrierAt, ho]⟩
  · simp only [if_neg hc, bind_eq_ok, ensure_eq_ok, pure_eq_ok]
    constructor
    · rintro ⟨_, rfl, rfl⟩
      exact ⟨rfl, rfl⟩
    · rintro ⟨rfl, rfl⟩
      exact ⟨(), rfl, rfl⟩

theorem sumAtoms_carrierAt (allocations : List TokenAllocation) :
    sumAtoms (allocations.map (carrierAt C block tx tokenId)) = sumAllocations allocations := by
  rw [sumAtoms, List.map_map]
  rfl

end Carriers

theorem parseCoveTx_wellFormed {tx : Transaction} {envelope : ParsedEnvelopeV2}
    (h : parseCoveTx tx = .cove envelope) : envelope.WellFormed := by
  obtain ⟨out0, -, -, -, hdecode⟩ := parseCoveTx_eq_cove.mp h
  exact decodeV2_wellFormed hdecode

/-! What every accepted operation has in common. -/

/-- The facts about a change that the invariants rest on. The supply moves by the
difference between what is created and what is spent. -/
structure Effect.Sound (C : Crypto) (cfg : V3IndexerConfig) (σ : Ledger) (tx : Transaction)
    (e : Effect) : Prop where
  spent_inputs : ∀ u ∈ e.spent, u ∈ liveInputs σ.tokenUtxos tx.ins
  spent_token : ∀ u ∈ e.spent, u.tokenId = e.tokenId
  spent_nodup : (e.spent.map V3TokenUtxo.outpoint).Nodup
  created_txid : ∀ u ∈ e.created, u.txid = tx.getId C
  created_token : ∀ u ∈ e.created, u.tokenId = e.tokenId
  created_nodup : (e.created.map V3TokenUtxo.outpoint).Nodup
  created_apart : e.newBacking ≠ none → ∀ u ∈ e.created, u.vout ≠ 1
  known : e.newMeta = none → σ.tokens.has e.tokenId = true
  fresh : ∀ m, e.newMeta = some m →
    σ.tokens.has e.tokenId = false ∧ m.tokenId = e.tokenId ∧ e.newBacking ≠ none
  backing : ∀ b, e.newBacking = some b →
    BackingSound C cfg e.tokenId b ∧ b.outpoint = ⟨tx.getId C, 1⟩
  supply : (σ.perform e).issued e.tokenId =
    σ.issued e.tokenId + (sumAtoms e.created - sumAtoms e.spent)

section Sound

variable {C : Crypto} {cfg : V3IndexerConfig} {block : V3BlockInput} {σ : Ledger}
  {tx : Transaction} {seen : List Bytes}

theorem carrierAt_nodup {tokenId : Bytes} {allocations : List TokenAllocation}
    (h : (allocations.map TokenAllocation.vout).Nodup) :
    ((allocations.map (carrierAt C block tx tokenId)).map V3TokenUtxo.outpoint).Nodup := by
  have he : (allocations.map (carrierAt C block tx tokenId)).map V3TokenUtxo.outpoint =
      (allocations.map TokenAllocation.vout).map (OutPoint.mk (tx.getId C)) := by
    simp [V3TokenUtxo.outpoint, carrierAt]
  rw [he]
  exact h.map fun a b hab => (OutPoint.mk.inj hab).2

theorem MintAccepted.created_eq {tokenId : Bytes} {amount : Int} {recipientVout : Nat}
    (a : MintAccepted C cfg σ tx tokenId amount recipientVout) :
    a.createdUtxo block = carrierAt C block tx tokenId ⟨recipientVout, amount⟩ := by
  have hv : recipientVout = 2 := a.vout_eq
  subst hv
  simp [MintAccepted.createdUtxo, carrierAt, a.carrier_get]

/-- The carriers an accepted envelope creates are those its allocations name. -/
theorem Acceptance.created_eq {envelope : ParsedEnvelopeV2}
    (a : Acceptance C cfg block σ tx envelope) :
    a.effect.created = envelope.allocated.map (carrierAt C block tx a.effect.tokenId) := by
  cases a with
  | deploy a => rfl
  | mint a =>
    exact congrArg (fun u => [u]) a.created_eq
  | transfer a => exact (transferCarriers_eq_ok.mp a.created_eq).2
  | redeem a => exact (redeemCarriers_eq_ok.mp a.created_eq).2

theorem stateHashV2_tokenId {s : CoveStateV2} {h : Bytes} (hs : stateHashV2 C s = .ok h) :
    isTokenIdHex s.tokenId := by
  simp only [stateHashV2, serializeStateV2, bind_eq_ok, ensure_eq_ok, pure_eq_ok] at hs
  obtain ⟨_, ⟨_, -, _, hl, _, hz, -⟩, -⟩ := hs
  rw [isTokenIdHex, Bool.and_eq_true]
  exact ⟨decide_eq_true hl, decide_eq_true hz⟩

theorem issued_of_get {tokenId : Bytes} {b : V3Backing} (h : σ.backing.get tokenId = some b) :
    σ.issued tokenId = b.state.issuedPublicSupplyAtoms := by
  rw [Ledger.issued, h]
  rfl

theorem issued_perform {e : Effect} {b : V3Backing} (h : e.newBacking = some b) :
    (σ.perform e).issued e.tokenId = b.state.issuedPublicSupplyAtoms := by
  apply issued_of_get
  simp [Ledger.perform, h]

theorem DeployAccepted.sound (hI : LedgerInv C cfg seen σ) {policyVersion : Nat}
    {ticker tokenNonce : Bytes} (a : DeployAccepted C cfg σ tx policyVersion ticker tokenNonce) :
    (a.effect block).Sound C cfg σ tx := by
  have hid : isTokenIdHex a.tokenId := by
    obtain ⟨stage, -, hs⟩ := bind_eq_ok.mp a.s0_eq
    have ht : a.s0.tokenId = a.tokenId := by rw [← pure_eq_ok.mp hs]
    rw [← ht]
    exact stateHashV2_tokenId a.stateHash_eq
  obtain ⟨hv, ht, hsup, hback⟩ := s0StateV2_spec a.s0_eq hid
  have hnone : σ.backing.get a.tokenId = none := by
    have h := hI.same_keys a.tokenId
    rw [a.fresh] at h
    exact Option.isSome_eq_false_iff.mp h.symm |> Option.isNone_iff_eq_none.mp
  constructor
  case backing =>
    intro b hb
    obtain rfl := Option.some.inj hb
    refine ⟨⟨rfl, hv, ht, a.stateHash_eq, ⟨_, a.vault_eq, rfl⟩, ?_, rfl⟩, rfl⟩
    change reserveAnchorSats = reserveAnchorSats + a.s0.backingSats
    rw [hback, add_zero]
  case supply =>
    rw [issued_perform rfl]
    change a.s0.issuedPublicSupplyAtoms = σ.issued a.tokenId + _
    rw [hsup, Ledger.issued, hnone]
    rfl
  case fresh =>
    intro m hm
    obtain rfl := Option.some.inj hm
    exact ⟨a.fresh, rfl, by simp [DeployAccepted.effect]⟩
  case known => simp [DeployAccepted.effect]
  all_goals simp [DeployAccepted.effect]

theorem MintAccepted.sound (hI : LedgerInv C cfg seen σ) {tokenId : Bytes} {amount : Int}
    {recipientVout : Nat} (a : MintAccepted C cfg σ tx tokenId amount recipientVout) :
    (a.effect block).Sound C cfg σ tx := by
  have hb := hI.backing_sound _ _ a.backing_get
  obtain ⟨-, hv, ht, -, hsup⟩ := applyMintV2_spec a.canonical_eq
  constructor
  case backing =>
    intro b h
    obtain rfl := Option.some.inj h
    exact ⟨⟨rfl, hv, ht.trans hb.state_tokenId, a.stateHash_eq, ⟨_, a.vault_eq, rfl⟩, rfl, rfl⟩, rfl⟩
  case supply =>
    rw [issued_perform rfl]
    change a.canonical.nextState.issuedPublicSupplyAtoms = σ.issued tokenId + (sumAtoms [_] - 0)
    rw [hsup, issued_of_get a.backing_get]
    simp [sumAtoms, MintAccepted.createdUtxo]
  case known =>
    intro _
    exact Dict.has_iff.mpr ⟨_, a.meta_get⟩
  all_goals simp [MintAccepted.effect, MintAccepted.createdUtxo]

/-- What an operation that moves carriers spends. -/
theorem spent_facts (hI : LedgerInv C cfg seen σ) (hn : tx.spends.Nodup) {tokenId : Bytes}
    {spent : List V3TokenUtxo} (h : resolveTokenInputs σ tx tokenId = .ok spent) :
    (∀ u ∈ spent, u ∈ liveInputs σ.tokenUtxos tx.ins) ∧ (∀ u ∈ spent, u.tokenId = tokenId) ∧
      (spent.map V3TokenUtxo.outpoint).Nodup := by
  obtain ⟨rfl, htok, -⟩ := resolveTokenInputs_eq_ok.mp h
  exact ⟨fun _ h => h, htok, liveInputs_nodup hI.keyed hn⟩

theorem TransferAccepted.sound (hI : LedgerInv C cfg seen σ) (hn : tx.spends.Nodup)
    {tokenId : Bytes} {allocations : List TokenAllocation}
    (hd : (allocations.map TokenAllocation.vout).Nodup)
    (a : TransferAccepted C block σ tx tokenId allocations) : a.effect.Sound C cfg σ tx := by
  obtain ⟨hin, htok, hnd⟩ := spent_facts hI hn a.spent_eq
  have hc : a.createdUtxos = _ := (transferCarriers_eq_ok.mp a.created_eq).2
  have hsum : sumAtoms a.createdUtxos = sumAllocations allocations := by
    rw [hc, sumAtoms_carrierAt]
  constructor
  case spent_inputs => exact hin
  case spent_token => exact htok
  case spent_nodup => exact hnd
  case created_nodup =>
    change (a.createdUtxos.map V3TokenUtxo.outpoint).Nodup
    rw [hc]
    exact carrierAt_nodup hd
  case supply =>
    change σ.issued tokenId = σ.issued tokenId + (sumAtoms a.createdUtxos - sumAtoms a.spentUtxos)
    rw [hsum, a.conserved, sub_self, add_zero]
  case known => exact fun _ => a.known
  all_goals simp [TransferAccepted.effect, hc, carrierAt]

theorem RedeemAccepted.sound (hI : LedgerInv C cfg seen σ) (hn : tx.spends.Nodup)
    {tokenId : Bytes} {redeemAmount : Int} {changeAllocations : List TokenAllocation}
    (hd : (changeAllocations.map TokenAllocation.vout).Nodup)
    (a : RedeemAccepted C cfg block σ tx tokenId redeemAmount changeAllocations) :
    a.effect.Sound C cfg σ tx := by
  obtain ⟨hin, htok, hnd⟩ := spent_facts hI hn a.spent_eq
  obtain ⟨hshape, hc⟩ := redeemCarriers_eq_ok.mp a.created_eq
  have hb := hI.backing_sound _ _ a.backing_get
  obtain ⟨-, hv, ht, -, hsup⟩ := applyRedeemV2_spec a.canonical_eq
  have hsum : sumAtoms a.createdUtxos = sumAtoms a.spentUtxos - redeemAmount := by
    rw [hc, sumAtoms_carrierAt, a.change_eq]
  constructor
  case spent_inputs => exact hin
  case spent_token => exact htok
  case spent_nodup => exact hnd
  case created_nodup =>
    change (a.createdUtxos.map V3TokenUtxo.outpoint).Nodup
    rw [hc]
    exact carrierAt_nodup hd
  case created_apart =>
    intro _ u hu
    change u ∈ a.createdUtxos at hu
    rw [hc] at hu
    obtain ⟨x, hx, rfl⟩ := List.mem_map.mp hu
    split at hshape
    · rw [hshape.2, List.mem_singleton] at hx
      subst hx
      simp [carrierAt]
    · simp [hshape] at hx
  case backing =>
    intro b h
    obtain rfl := Option.some.inj h
    exact ⟨⟨rfl, hv, ht.trans hb.state_tokenId, a.stateHash_eq, ⟨_, a.vault_eq, rfl⟩, rfl, rfl⟩, rfl⟩
  case supply =>
    rw [issued_perform rfl]
    change a.canonical.nextState.issuedPublicSupplyAtoms =
      σ.issued tokenId + (sumAtoms a.createdUtxos - sumAtoms a.spentUtxos)
    rw [hsup, issued_of_get a.backing_get, hsum]
    ring
  case known =>
    intro _
    exact Dict.has_iff.mpr ⟨_, a.meta_get⟩
  all_goals simp [RedeemAccepted.effect, hc, carrierAt]

theorem Acceptance.sound (hI : LedgerInv C cfg seen σ) (hn : tx.spends.Nodup)
    {envelope : ParsedEnvelopeV2} (hw : envelope.WellFormed)
    (a : Acceptance C cfg block σ tx envelope) : a.effect.Sound C cfg σ tx := by
  cases a with
  | deploy a => exact a.sound hI
  | mint a => exact a.sound hI
  | transfer a => exact a.sound hI hn hw.vouts_nodup
  | redeem a => exact a.sound hI hn hw.vouts_nodup

end Sound

/-! One transaction keeps the invariant. -/

section Preservation

variable {C : Crypto} {cfg : V3IndexerConfig} {block : V3BlockInput} {σ : Ledger}
  {tx : Transaction} {seen : List Bytes} {e : Effect}

theorem perform_tokens_get {t : Bytes} {m : V3TokenMeta} (h : (σ.perform e).tokens.get t = some m) :
    (t = e.tokenId ∧ e.newMeta = some m) ∨ σ.tokens.get t = some m := by
  cases hm : e.newMeta with
  | none => exact Or.inr (by simpa [Ledger.perform, hm] using h)
  | some m' =>
    simp only [Ledger.perform, hm, Option.elim_some, Dict.get_set] at h
    split at h
    · exact Or.inl ⟨by assumption, h⟩
    · exact Or.inr h

theorem perform_backing_get {t : Bytes} {b : V3Backing}
    (h : (σ.perform e).backing.get t = some b) :
    (t = e.tokenId ∧ e.newBacking = some b) ∨
      (σ.backing.get t = some b ∧ (t = e.tokenId → e.newBacking = none)) := by
  cases hb : e.newBacking with
  | none => exact Or.inr ⟨by simpa [Ledger.perform, hb] using h, fun _ => rfl⟩
  | some b' =>
    simp only [Ledger.perform, hb, Option.elim_some, Dict.get_set] at h
    split at h
    · exact Or.inl ⟨by assumption, h⟩
    · exact Or.inr ⟨h, fun ht => by contradiction⟩

theorem perform_tokens_has {t : Bytes} :
    (σ.perform e).tokens.has t = (σ.tokens.has t || (e.newMeta.isSome && t = e.tokenId)) := by
  cases hm : e.newMeta with
  | none => simp [Ledger.perform, hm]
  | some m =>
    by_cases ht : t = e.tokenId <;> simp [Ledger.perform, hm, Dict.has, Dict.get_set, ht]

theorem perform_backing_has {t : Bytes} :
    (σ.perform e).backing.has t = (σ.backing.has t || (e.newBacking.isSome && t = e.tokenId)) := by
  cases hm : e.newBacking with
  | none => simp [Ledger.perform, hm]
  | some m =>
    by_cases ht : t = e.tokenId <;> simp [Ledger.perform, hm, Dict.has, Dict.get_set, ht]

/-- A carrier after the change was created by it, or lay there before and was not spent. -/
theorem perform_carrier_get {k : OutPoint} {u : V3TokenUtxo}
    (h : (σ.perform e).tokenUtxos.get k = some u) :
    (u ∈ e.created ∧ u.outpoint = k) ∨
      (σ.tokenUtxos.get k = some u ∧ k ∉ e.spent.map V3TokenUtxo.outpoint) := by
  rcases Dict.get_setAll_cases _ _ _ _ h with hc | hc
  · obtain ⟨v, hv, hk⟩ := List.mem_map.mp hc
    simp only [V3TokenUtxo.entry, Prod.mk.injEq] at hk
    obtain ⟨hk, rfl⟩ := hk
    exact Or.inl ⟨hv, hk⟩
  · rw [Dict.get_deleteAll] at hc
    split at hc
    · cases hc
    · exact Or.inr ⟨hc, by assumption⟩

theorem Effect.Sound.created_outpoint (hs : e.Sound C cfg σ tx) {u : V3TokenUtxo}
    (hu : u ∈ e.created) : u.outpoint.txid = tx.getId C := hs.created_txid u hu

theorem perform_inv (hI : LedgerInv C cfg seen σ) (hs : e.Sound C cfg σ tx)
    (hf : tx.getId C ∉ seen) : LedgerInv C cfg (seen ++ [tx.getId C]) (σ.perform e) := by
  constructor
  case keyed =>
    intro k u h
    rcases perform_carrier_get h with ⟨-, hk⟩ | ⟨hk, -⟩
    · exact hk
    · exact hI.keyed k u hk
  case carrier_seen =>
    intro k u h
    rcases perform_carrier_get h with ⟨hu, rfl⟩ | ⟨hk, -⟩
    · simp [hs.created_outpoint hu]
    · exact List.mem_append_left _ (hI.carrier_seen k u hk)
  case carrier_known =>
    intro k u h
    rw [perform_tokens_has]
    rcases perform_carrier_get h with ⟨hu, -⟩ | ⟨hk, -⟩
    · rw [hs.created_token u hu]
      cases hm : e.newMeta with
      | none => simp [hs.known hm]
      | some m => simp
    · simp [hI.carrier_known k u hk]
  case meta_key =>
    intro t m h
    rcases perform_tokens_get h with ⟨rfl, hm⟩ | hm
    · exact (hs.fresh m hm).2.1
    · exact hI.meta_key t m hm
  case same_keys =>
    intro t
    rw [perform_tokens_has, perform_backing_has, hI.same_keys t]
    by_cases ht : t = e.tokenId
    · subst ht
      cases hm : e.newMeta with
      | none =>
        have hk := hs.known hm
        rw [hI.same_keys] at hk
        simp [hk]
      | some m =>
        have hb := Option.isSome_iff_ne_none.mpr (hs.fresh m hm).2.2
        simp [hb]
    · simp [ht]
  case backing_sound =>
    intro t b h
    rcases perform_backing_get h with ⟨rfl, hb⟩ | ⟨hb, -⟩
    · exact (hs.backing b hb).1
    · exact hI.backing_sound t b hb
  case backing_seen =>
    intro t b h
    rcases perform_backing_get h with ⟨-, hb⟩ | ⟨hb, -⟩
    · simp [(hs.backing b hb).2]
    · exact List.mem_append_left _ (hI.backing_seen t b hb)
  case backing_inj =>
    -- The new outpoint has a txid no older backing has, so only old pairs compare.
    have hnew : ∀ t b b', σ.backing.get t = some b → e.newBacking = some b' →
        b.outpoint ≠ b'.outpoint := by
      intro t b b' hb hb' heq
      rw [(hs.backing b' hb').2] at heq
      exact hf (by simpa [heq] using hI.backing_seen t b hb)
    intro t t' b b' h h' heq
    rcases perform_backing_get h with ⟨ht, hb⟩ | ⟨hb, -⟩ <;>
      rcases perform_backing_get h' with ⟨ht', hb'⟩ | ⟨hb', -⟩
    · rw [ht, ht']
    · exact absurd heq.symm (hnew _ _ _ hb' hb)
    · exact absurd heq (hnew _ _ _ hb hb')
    · exact hI.backing_inj t t' b b' hb hb' heq
  case apart =>
    intro t b h
    by_contra hne
    obtain ⟨u, hu⟩ := Option.ne_none_iff_exists'.mp hne
    rcases perform_backing_get h with ⟨-, hb⟩ | ⟨hb, -⟩ <;>
      rcases perform_carrier_get hu with ⟨hc, ho⟩ | ⟨hk, -⟩
    · have hb1 := (hs.backing b hb).2
      rw [hb1] at ho
      exact hs.created_apart (by simp [hb]) u hc (congrArg OutPoint.vout ho)
    · have hs' := hI.carrier_seen _ _ hk
      rw [(hs.backing b hb).2] at hs'
      exact hf hs'
    · have hs' := hI.backing_seen t b hb
      rw [← ho, hs.created_outpoint hc] at hs'
      exact hf hs'
    · rw [hI.apart t b hb] at hk
      cases hk

theorem LedgerInv.mono {seen' : List Bytes} (hI : LedgerInv C cfg seen σ)
    (h : ∀ x ∈ seen, x ∈ seen') : LedgerInv C cfg seen' σ :=
  { hI with
    carrier_seen := fun k u hk => h _ (hI.carrier_seen k u hk)
    backing_seen := fun t b hb => h _ (hI.backing_seen t b hb) }

theorem spendAll_get {k : OutPoint} :
    (σ.spendAll tx).tokenUtxos.get k = if k ∈ tx.spends then none else σ.tokenUtxos.get k :=
  Dict.get_deleteAll _ _ _

theorem spendAll_get_some {k : OutPoint} {u : V3TokenUtxo}
    (h : (σ.spendAll tx).tokenUtxos.get k = some u) : σ.tokenUtxos.get k = some u ∧ k ∉ tx.spends := by
  rw [spendAll_get] at h
  split at h
  · cases h
  · exact ⟨h, by assumption⟩

theorem spendAll_inv (hI : LedgerInv C cfg seen σ) : LedgerInv C cfg seen (σ.spendAll tx) :=
  { hI with
    keyed := fun k u h => hI.keyed k u (spendAll_get_some h).1
    carrier_seen := fun k u h => hI.carrier_seen k u (spendAll_get_some h).1
    carrier_known := fun k u h => hI.carrier_known k u (spendAll_get_some h).1
    apart := fun t b h => by
      rw [spendAll_get, hI.apart t b h]
      split <;> rfl }

/-- The ledger before the burn. -/
theorem Outcome.ledger_inv (hI : LedgerInv C cfg seen σ) (hn : tx.spends.Nodup)
    (hf : tx.getId C ∉ seen) (o : Outcome C cfg block σ tx) :
    LedgerInv C cfg (seen ++ [tx.getId C]) o.ledger := by
  cases o with
  | nonCove _ => exact hI.mono fun _ => List.mem_append_left _
  | refused _ _ _ _ => exact hI.mono fun _ => List.mem_append_left _
  | accepted envelope hp a => exact perform_inv hI (a.sound hI hn (parseCoveTx_wellFormed hp)) hf

theorem applyTx_inv {txIndex : Nat} {run run' : BlockRun} (hI : LedgerInv C cfg seen run.ledger)
    (hn : tx.spends.Nodup) (hf : tx.getId C ∉ seen)
    (h : applyTx C cfg block txIndex tx run = .ok run') :
    LedgerInv C cfg (seen ++ [tx.getId C]) run'.ledger := by
  obtain ⟨o, rfl⟩ := applyTx_cases hn h
  exact spendAll_inv (o.ledger_inv hI hn hf)

end Preservation

end Cove
