import Cove.Indexer.Accept

/-! What one transaction can do to the indexer: nothing but a burn, a recorded refusal and
a burn, or one accepted operation and a burn. -/

namespace Cove

open Checked

/-! The carriers the inputs spend. -/

/-- The live carriers a list of inputs names, in input order. -/
def liveInputs (live : Dict OutPoint V3TokenUtxo) (ins : List TxIn) : List V3TokenUtxo :=
  ins.filterMap fun i => live.get i.outpoint

/-- Carriers are stored under their own outpoints. -/
def Keyed (live : Dict OutPoint V3TokenUtxo) : Prop :=
  ∀ k u, live.get k = some u → u.outpoint = k

theorem collectTokenInputs_eq_ok {σ : Ledger} {tokenId : Bytes} {ins : List TxIn}
    {spent : List V3TokenUtxo} :
    collectTokenInputs σ tokenId ins = .ok spent ↔
      spent = liveInputs σ.tokenUtxos ins ∧ ∀ u ∈ spent, u.tokenId = tokenId := by
  induction ins generalizing spent with
  | nil =>
    simp only [collectTokenInputs, liveInputs, List.filterMap_nil, Except.ok.injEq]
    constructor
    · rintro rfl
      simp
    · exact fun h => h.1.symm
  | cons i ins ih =>
    rw [collectTokenInputs, liveInputs, List.filterMap_cons]
    cases hg : σ.tokenUtxos.get i.outpoint with
    | none => exact ih
    | some u =>
      simp only [bind_eq_ok, ensure_eq_ok, pure_eq_ok, ih]
      constructor
      · rintro ⟨_, hu, rest, ⟨hr, hall⟩, rfl⟩
        exact ⟨by rw [hr]; rfl, by simpa [hu] using hall⟩
      · rintro ⟨rfl, hall⟩
        rw [List.forall_mem_cons] at hall
        exact ⟨(), hall.1, _, ⟨rfl, hall.2⟩, rfl⟩

theorem resolveTokenInputs_eq_ok {σ : Ledger} {tx : Transaction} {tokenId : Bytes}
    {spent : List V3TokenUtxo} :
    resolveTokenInputs σ tx tokenId = .ok spent ↔
      spent = liveInputs σ.tokenUtxos tx.ins ∧ (∀ u ∈ spent, u.tokenId = tokenId) ∧ spent ≠ [] := by
  simp only [resolveTokenInputs, bind_eq_ok, ensure_eq_ok, pure_eq_ok, collectTokenInputs_eq_ok]
  constructor
  · rintro ⟨s, ⟨hs, hall⟩, _, hne, rfl⟩
    exact ⟨hs, hall, hne⟩
  · rintro ⟨hs, hall, hne⟩
    exact ⟨spent, ⟨hs, hall⟩, (), hne, rfl⟩

section LiveInputs

variable {live : Dict OutPoint V3TokenUtxo} {ins : List TxIn}

theorem mem_liveInputs (hk : Keyed live) {u : V3TokenUtxo} :
    u ∈ liveInputs live ins ↔ live.get u.outpoint = some u ∧ u.outpoint ∈ ins.map TxIn.outpoint := by
  simp only [liveInputs, List.mem_filterMap, List.mem_map]
  constructor
  · rintro ⟨i, hi, hg⟩
    have ho := hk _ _ hg
    exact ⟨by rw [ho, hg], i, hi, ho.symm⟩
  · rintro ⟨hg, i, hi, ho⟩
    exact ⟨i, hi, by rw [ho, hg]⟩

theorem liveInputs_nodup (hk : Keyed live) (hn : (ins.map TxIn.outpoint).Nodup) :
    ((liveInputs live ins).map V3TokenUtxo.outpoint).Nodup := by
  induction ins with
  | nil => exact List.nodup_nil
  | cons i ins ih =>
    rw [List.map_cons, List.nodup_cons] at hn
    rw [liveInputs, List.filterMap_cons]
    cases hg : live.get i.outpoint with
    | none => exact ih hn.2
    | some u =>
      rw [List.map_cons, List.nodup_cons]
      refine ⟨?_, ih hn.2⟩
      intro hm
      obtain ⟨v, hv, hvo⟩ := List.mem_map.mp hm
      have hmem := ((mem_liveInputs hk).mp hv).2
      rw [hvo, hk _ _ hg] at hmem
      exact hn.1 hmem

theorem liveInputs_delete {i : TxIn} (h : i.outpoint ∉ ins.map TxIn.outpoint) :
    liveInputs (live.delete i.outpoint) ins = liveInputs live ins := by
  unfold liveInputs
  apply List.filterMap_congr
  intro j hj
  have hne : j.outpoint ≠ i.outpoint := by
    intro he
    exact h (he ▸ List.mem_map.mpr ⟨j, hj, rfl⟩)
  rw [Dict.get_delete, if_neg hne]

/-- The burn loop takes out exactly the live carriers among the inputs. -/
theorem burnInputs_eq (hn : (ins.map TxIn.outpoint).Nodup) :
    burnInputs ins live = (liveInputs live ins, live.deleteAll (ins.map TxIn.outpoint)) := by
  induction ins generalizing live with
  | nil => rfl
  | cons i ins ih =>
    rw [List.map_cons, List.nodup_cons] at hn
    rw [burnInputs, liveInputs, List.filterMap_cons, List.map_cons, Dict.deleteAll_cons]
    cases hg : live.get i.outpoint with
    | none =>
      have hd : live.delete i.outpoint = live := by
        apply Dict.ext_get
        intro k
        by_cases hk : k = i.outpoint
        · rw [Dict.get_delete, if_pos hk, hk, hg]
        · rw [Dict.get_delete, if_neg hk]
      rw [hd]
      exact ih hn.2
    | some u =>
      dsimp only
      rw [ih hn.2, liveInputs_delete hn.1]
      rfl

end LiveInputs

/-! Refusals. -/

/-- An exit that is a result says the operation is invalid. -/
def Exit.Refusal : Exit → Prop
  | .invalid r => r.valid = false
  | .fault _ => True

section Refusals

variable {C : Crypto} {cfg : V3IndexerConfig} {block : V3BlockInput} {σ : Ledger}
  {tx : Transaction}

theorem uncaught_refuses {α : Type} (x : Except Fault α) : FailsWith Exit.Refusal (uncaught x) :=
  .mapError fun _ => trivial

theorem transferCarriers_refuses (tokenId : Bytes) (allocations : List TokenAllocation) :
    FailsWith Exit.Refusal (transferCarriers C block tx tokenId allocations) := by
  induction allocations with
  | nil => exact .ok _
  | cons a allocations ih =>
    rw [transferCarriers]
    exact .bind (.demand rfl) fun _ => .bind (.ensure rfl) fun _ => .bind ih fun _ => .pure _

theorem redeemCarriers_refuses (tokenId : Bytes) (changeAtoms : Int)
    (changeAllocations : List TokenAllocation) :
    FailsWith Exit.Refusal (redeemCarriers C block tx tokenId changeAtoms changeAllocations) := by
  unfold redeemCarriers
  split
  · exact .bind (.demand rfl) fun _ => .bind (.ensure rfl) fun _ => .bind (.ensure rfl) fun _ =>
      .pure _
  · exact .bind (.ensure rfl) fun _ => .pure _

/-- No operation reports success by an early return. -/
theorem applyEnvelope_refuses (envelope : ParsedEnvelopeV2) :
    FailsWith Exit.Refusal (applyEnvelope C cfg block σ tx envelope) := by
  cases envelope with
  | deploy policyVersion ticker tokenNonce =>
    exact .bind (.demand rfl) fun _ => .bind (.ensure rfl) fun _ =>
      .bind (uncaught_refuses _) fun _ => .bind (.ensure rfl) fun _ =>
      .bind (uncaught_refuses _) fun _ => .bind (uncaught_refuses _) fun _ =>
      .bind (.demand rfl) fun _ => .bind (.ensure rfl) fun _ => .bind (.ensure rfl) fun _ =>
      .bind (uncaught_refuses _) fun _ => .pure _
  | mint tokenId amount recipientVout =>
    exact .bind (.demand rfl) fun _ => .bind (.demand rfl) fun _ => .bind (.demand rfl) fun _ =>
      .bind (.ensure rfl) fun _ => .bind (.mapError fun _ => rfl) fun _ =>
      .bind (uncaught_refuses _) fun _ => .bind (uncaught_refuses _) fun _ =>
      .bind (.demand rfl) fun _ => .bind (.ensure rfl) fun _ => .bind (.ensure rfl) fun _ =>
      .bind (.ensure rfl) fun _ => .bind (.demand rfl) fun _ => .bind (.ensure rfl) fun _ =>
      .bind (.demand rfl) fun _ => .bind (.ensure rfl) fun _ => .bind (.demand rfl) fun _ =>
      .bind (uncaught_refuses _) fun _ => .bind (.ensure rfl) fun _ =>
      .bind (uncaught_refuses _) fun _ => .pure _
  | transfer tokenId allocations =>
    exact .bind (.ensure rfl) fun _ => .bind (.mapError fun _ => rfl) fun _ =>
      .bind (.ensure rfl) fun _ => .bind (transferCarriers_refuses _ _) fun _ => .pure _
  | redeem tokenId redeemAmount changeAllocations =>
    exact .bind (.demand rfl) fun _ => .bind (.demand rfl) fun _ => .bind (.demand rfl) fun _ =>
      .bind (.ensure rfl) fun _ => .bind (.mapError fun _ => rfl) fun _ =>
      .bind (.ensure rfl) fun _ => .bind (.ensure rfl) fun _ => .bind (.mapError fun _ => rfl) fun _ =>
      .bind (uncaught_refuses _) fun _ => .bind (uncaught_refuses _) fun _ =>
      .bind (.demand rfl) fun _ => .bind (.ensure rfl) fun _ => .bind (.ensure rfl) fun _ =>
      .bind (.demand rfl) fun _ => .bind (.ensure rfl) fun _ => .bind (.demand rfl) fun _ =>
      .bind (.ensure rfl) fun _ => .bind (redeemCarriers_refuses _ _ _) fun _ =>
      .bind (uncaught_refuses _) fun _ => .pure _

end Refusals

section Outcomes

/-- An accepted envelope of any kind. -/
inductive Acceptance (C : Crypto) (cfg : V3IndexerConfig) (block : V3BlockInput) (σ : Ledger)
    (tx : Transaction) : ParsedEnvelopeV2 → Type
  | deploy {policyVersion : Nat} {ticker tokenNonce : Bytes}
      (a : DeployAccepted C cfg σ tx policyVersion ticker tokenNonce) :
      Acceptance C cfg block σ tx (.deploy policyVersion ticker tokenNonce)
  | mint {tokenId : Bytes} {amount : Int} {recipientVout : Nat}
      (a : MintAccepted C cfg σ tx tokenId amount recipientVout) :
      Acceptance C cfg block σ tx (.mint tokenId amount recipientVout)
  | transfer {tokenId : Bytes} {allocations : List TokenAllocation}
      (a : TransferAccepted C block σ tx tokenId allocations) :
      Acceptance C cfg block σ tx (.transfer tokenId allocations)
  | redeem {tokenId : Bytes} {redeemAmount : Int} {changeAllocations : List TokenAllocation}
      (a : RedeemAccepted C cfg block σ tx tokenId redeemAmount changeAllocations) :
      Acceptance C cfg block σ tx (.redeem tokenId redeemAmount changeAllocations)

variable {C : Crypto} {cfg : V3IndexerConfig} {block : V3BlockInput} {σ : Ledger}
  {tx : Transaction}

namespace Acceptance

variable {envelope : ParsedEnvelopeV2}

def effect : Acceptance C cfg block σ tx envelope → Effect
  | .deploy a => a.effect block
  | .mint a => a.effect block
  | .transfer a => a.effect
  | .redeem a => a.effect

/-- The inverse the undo journal keeps. -/
def undo : Acceptance C cfg block σ tx envelope → UndoOp
  | .deploy a => a.undo
  | .mint a => a.undo block
  | .transfer a => a.undo
  | .redeem a => a.undo

def result : Acceptance C cfg block σ tx envelope → ApplyResult
  | .deploy a => a.result
  | .mint a => a.result block
  | .transfer a => a.result
  | .redeem a => a.result

@[simp] theorem result_valid (a : Acceptance C cfg block σ tx envelope) : a.result.valid = true := by
  cases a <;> rfl

@[simp] theorem result_undo (a : Acceptance C cfg block σ tx envelope) :
    a.result.undo = some a.undo := by
  cases a <;> rfl

@[simp] theorem result_tokenId (a : Acceptance C cfg block σ tx envelope) :
    a.result.tokenId = some a.effect.tokenId := by
  cases a <;> rfl

end Acceptance

theorem applyEnvelope_eq_ok {envelope : ParsedEnvelopeV2} {p : Ledger × ApplyResult} :
    applyEnvelope C cfg block σ tx envelope = .ok p ↔
      ∃ a : Acceptance C cfg block σ tx envelope, p = (σ.perform a.effect, a.result) := by
  cases envelope with
  | deploy policyVersion ticker tokenNonce =>
    rw [applyEnvelope, applyDeploy_eq_ok]
    constructor
    · rintro ⟨a, h⟩
      exact ⟨.deploy a, h⟩
    · rintro ⟨a, h⟩
      cases a with
      | deploy a => exact ⟨a, h⟩
  | mint tokenId amount recipientVout =>
    rw [applyEnvelope, applyMint_eq_ok]
    constructor
    · rintro ⟨a, h⟩
      exact ⟨.mint a, h⟩
    · rintro ⟨a, h⟩
      cases a with
      | mint a => exact ⟨a, h⟩
  | transfer tokenId allocations =>
    rw [applyEnvelope, applyTransfer_eq_ok]
    constructor
    · rintro ⟨a, h⟩
      exact ⟨.transfer a, h⟩
    · rintro ⟨a, h⟩
      cases a with
      | transfer a => exact ⟨a, h⟩
  | redeem tokenId redeemAmount changeAllocations =>
    rw [applyEnvelope, applyRedeem_eq_ok]
    constructor
    · rintro ⟨a, h⟩
      exact ⟨.redeem a, h⟩
    · rintro ⟨a, h⟩
      cases a with
      | redeem a => exact ⟨a, h⟩

/-- What a transaction does before its stray carriers are burned. -/
inductive Outcome (C : Crypto) (cfg : V3IndexerConfig) (block : V3BlockInput) (σ : Ledger)
    (tx : Transaction) : Type
  | nonCove (h : parseCoveTx tx = .nonCove)
  | refused (r : ApplyResult) (hv : r.valid = false) (hp : parseCoveTx tx ≠ .nonCove)
      (hr : applyParsed C cfg block σ tx (parseCoveTx tx) = .ok (σ, r))
  | accepted (envelope : ParsedEnvelopeV2) (hp : parseCoveTx tx = .cove envelope)
      (a : Acceptance C cfg block σ tx envelope)

/-- The burn entry of a transaction, when it still spends a live carrier. -/
def burnOps (C : Crypto) (σ : Ledger) (tx : Transaction) : List UndoOp :=
  if liveInputs σ.tokenUtxos tx.ins = [] then []
  else [.burn (tx.getId C) (liveInputs σ.tokenUtxos tx.ins)]

/-- The ledger once every input's carrier is gone. -/
def Ledger.spendAll (σ : Ledger) (tx : Transaction) : Ledger :=
  { σ with tokenUtxos := σ.tokenUtxos.deleteAll tx.spends }

namespace Outcome

def ledger : Outcome C cfg block σ tx → Ledger
  | .nonCove _ => σ
  | .refused _ _ _ _ => σ
  | .accepted _ _ a => σ.perform a.effect

def ops : Outcome C cfg block σ tx → List UndoOp
  | .nonCove _ => []
  | .refused _ _ _ _ => []
  | .accepted _ _ a => [a.undo]

def events (txIndex : Nat) : Outcome C cfg block σ tx → List V3Event
  | .nonCove _ => []
  | .refused r _ _ _ => [eventOf C block txIndex tx r]
  | .accepted _ _ a => [eventOf C block txIndex tx a.result]

def after {run : BlockRun} (o : Outcome C cfg block run.ledger tx) (txIndex : Nat) : BlockRun where
  ledger := o.ledger.spendAll tx
  ops := run.ops ++ o.ops ++ burnOps C o.ledger tx
  events := run.events ++ o.events txIndex

end Outcome

theorem burnUnaccountedInputs_eq (hn : tx.spends.Nodup) :
    (burnUnaccountedInputs C σ tx).1.toList = burnOps C σ tx ∧
      (burnUnaccountedInputs C σ tx).2 = σ.spendAll tx := by
  have hb : burnInputs tx.ins σ.tokenUtxos = _ := burnInputs_eq hn
  rw [burnUnaccountedInputs, hb, burnOps]
  refine ⟨?_, rfl⟩
  by_cases h : liveInputs σ.tokenUtxos tx.ins = [] <;> simp [h]

theorem applyParsed_cases {p : Ledger × ApplyResult} (hp : parseCoveTx tx ≠ .nonCove)
    (h : applyParsed C cfg block σ tx (parseCoveTx tx) = .ok p) :
    (p.1 = σ ∧ p.2.valid = false) ∨
      ∃ envelope, parseCoveTx tx = .cove envelope ∧
        ∃ a : Acceptance C cfg block σ tx envelope, p = (σ.perform a.effect, a.result) := by
  cases hc : parseCoveTx tx with
  | nonCove => exact absurd hc hp
  | invalid reason =>
    rw [hc, applyParsed, Except.ok.injEq] at h
    subst h
    exact Or.inl ⟨rfl, rfl⟩
  | cove envelope =>
    rw [hc, applyParsed, applyCove] at h
    cases he : applyEnvelope C cfg block σ tx envelope with
    | ok q =>
      rw [he] at h
      obtain ⟨a, ha⟩ := applyEnvelope_eq_ok.mp he
      have hq : q = p := Except.ok.inj h
      exact Or.inr ⟨envelope, rfl, a, by rw [← hq, ha]⟩
    | error e =>
      rw [he] at h
      cases e with
      | fault f => cases h
      | invalid r =>
        have hv : r.valid = false := applyEnvelope_refuses envelope _ he
        have hq : (σ, r) = p := Except.ok.inj h
        subst hq
        exact Or.inl ⟨rfl, hv⟩

/-- One turn of the block loop is one of the three outcomes. -/
theorem applyTx_cases {txIndex : Nat} {run run' : BlockRun} (hn : tx.spends.Nodup)
    (h : applyTx C cfg block txIndex tx run = .ok run') :
    ∃ o : Outcome C cfg block run.ledger tx, run' = o.after txIndex := by
  by_cases hc : parseCoveTx tx = .nonCove
  · refine ⟨.nonCove hc, ?_⟩
    obtain ⟨hops, hled⟩ := burnUnaccountedInputs_eq (C := C) (σ := run.ledger) hn
    simp only [applyTx, hc, Except.ok.injEq] at h
    simp [← h, Outcome.after, Outcome.ops, Outcome.events, Outcome.ledger, hops, hled]
  · have hx : applyTx C cfg block txIndex tx run = (do
        let parsed ← applyParsed C cfg block run.ledger tx (parseCoveTx tx)
        return ⟨(burnUnaccountedInputs C parsed.1 tx).2,
          (if parsed.2.valid then run.ops ++ parsed.2.undo.toList else run.ops) ++
            (burnUnaccountedInputs C parsed.1 tx).1.toList,
          run.events ++ [eventOf C block txIndex tx parsed.2]⟩) := by
      unfold applyTx
      split
      · contradiction
      · rfl
    rw [hx, bind_eq_ok] at h
    obtain ⟨⟨ledger, r⟩, hp, hrun⟩ := h
    obtain ⟨hops, hled⟩ := burnUnaccountedInputs_eq (C := C) (σ := ledger) hn
    have hrun' : run' = ⟨(burnUnaccountedInputs C ledger tx).2,
        (if r.valid then run.ops ++ r.undo.toList else run.ops) ++
          (burnUnaccountedInputs C ledger tx).1.toList,
        run.events ++ [eventOf C block txIndex tx r]⟩ := (pure_eq_ok.mp hrun).symm
    rw [hops, hled] at hrun'
    rcases applyParsed_cases hc hp with ⟨hl, hv⟩ | ⟨envelope, hcove, a, ha⟩
    · dsimp only at hl hv
      subst hl
      refine ⟨.refused r hv hc hp, ?_⟩
      simp [hrun', Outcome.after, Outcome.ops, Outcome.events, Outcome.ledger, hv]
    · obtain ⟨rfl, rfl⟩ := Prod.mk.inj ha
      refine ⟨.accepted envelope hcove a, ?_⟩
      simp [hrun', Outcome.after, Outcome.ops, Outcome.events, Outcome.ledger]

end Outcomes

end Cove
