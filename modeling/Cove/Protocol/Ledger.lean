import Cove.Economics.Spend
import Cove.Lib.Totals
import Cove.Protocol.Validator

/-! What a valid V1 operation does to the ledger, and the invariants it keeps. -/

namespace Cove

open Checked

namespace Protocol

/-! Balances. -/

theorem heldOf_set (m : Dict Bytes CoveBalance) (id i : Bytes) (b : CoveBalance) :
    heldOf (m.set id b) i = if i = id then b.availableAtoms else heldOf m i := by
  unfold heldOf
  rw [Dict.get_set]
  split_ifs <;> rfl

theorem heldOf_delete (m : Dict Bytes CoveBalance) (id i : Bytes) :
    heldOf (m.delete id) i = if i = id then 0 else heldOf m i := by
  unfold heldOf
  rw [Dict.get_delete]
  split_ifs <;> rfl

@[simp] theorem heldOf_empty (i : Bytes) : heldOf ∅ i = 0 := by
  simp [heldOf]

/-- Every balance is positive, of a known token, and no owner's map is empty. -/
structure BalancesInv (σ : CoveState) : Prop where
  nonempty : ∀ owner m, σ.balances.get owner = some m → m ≠ ∅
  positive : ∀ owner m, σ.balances.get owner = some m → ∀ id b, m.get id = some b →
    0 < b.availableAtoms
  known : ∀ owner m, σ.balances.get owner = some m → ∀ id b, m.get id = some b →
    σ.tokens.has id = true

theorem BalancesInv.held_nonneg {σ : CoveState} (h : BalancesInv σ) {owner : Bytes}
    {m : Dict Bytes CoveBalance} (hm : σ.balances.get owner = some m) (id : Bytes) :
    0 ≤ heldOf m id := by
  unfold heldOf
  cases hb : m.get id with
  | none => simp
  | some b => exact (h.positive owner m hm id b hb).le

/-- The state with one owner's map replaced. -/
def CoveState.put (σ : CoveState) (owner : Bytes) (m : Dict Bytes CoveBalance) : CoveState :=
  { σ with balances := σ.balances.set owner m }

theorem heldAtoms_put (σ : CoveState) (owner : Bytes) (m : Dict Bytes CoveBalance) (i : Bytes) :
    (σ.put owner m).heldAtoms i = σ.heldAtoms i - σ.balanceOf owner i + heldOf m i :=
  Dict.total_set _ _ _ _

theorem balancesInv_put {σ : CoveState} (h : BalancesInv σ) {owner : Bytes}
    {m : Dict Bytes CoveBalance} (hne : m ≠ ∅)
    (hm : ∀ i b, m.get i = some b → 0 < b.availableAtoms ∧ σ.tokens.has i = true) :
    BalancesInv (σ.put owner m) := by
  have hget : ∀ o m', (σ.put owner m).balances.get o = some m' →
      m' ≠ ∅ ∧ ∀ i b, m'.get i = some b → 0 < b.availableAtoms ∧ σ.tokens.has i = true := by
    intro o m' hm'
    rw [CoveState.put, Dict.get_set] at hm'
    split_ifs at hm' with ho
    · cases hm'
      exact ⟨hne, hm⟩
    · exact ⟨h.nonempty o m' hm',
        fun i b hb => ⟨h.positive o m' hm' i b hb, h.known o m' hm' i b hb⟩⟩
  exact ⟨fun o m' hm' => (hget o m' hm').1, fun o m' hm' i b hb => ((hget o m' hm').2 i b hb).1,
    fun o m' hm' i b hb => ((hget o m' hm').2 i b hb).2⟩

/-- A map with a balance written into it. -/
theorem put_set {σ : CoveState} (h : BalancesInv σ) {owner id : Bytes}
    {m : Dict Bytes CoveBalance} {atoms : Int}
    (hm : ∀ i b, m.get i = some b → 0 < b.availableAtoms ∧ σ.tokens.has i = true)
    (hpos : 0 < atoms) (hid : σ.tokens.has id = true) :
    BalancesInv (σ.put owner (m.set id ⟨atoms⟩)) := by
  apply balancesInv_put h
  · intro hempty
    have hself := Dict.get_set_self m id ⟨atoms⟩
    rw [hempty, Dict.get_empty] at hself
    cases hself
  · intro i b hb
    rw [Dict.get_set] at hb
    split_ifs at hb with hi
    · cases hb
      exact ⟨hpos, by rw [hi]; exact hid⟩
    · exact hm i b hb

theorem credit_eq (σ : CoveState) (owner id : Bytes) (amount : Int) :
    σ.credit owner id amount =
      σ.put owner (((σ.balances.get owner).getD ∅).set id ⟨σ.balanceOf owner id + amount⟩) := by
  rw [CoveState.credit, CoveState.put, CoveState.balanceOf]
  cases σ.balances.get owner with
  | none => simp
  | some m => rfl

theorem heldOf_current (σ : CoveState) (owner i : Bytes) :
    heldOf ((σ.balances.get owner).getD ∅) i = σ.balanceOf owner i := by
  rw [CoveState.balanceOf]
  cases σ.balances.get owner with
  | none => simp
  | some m => rfl

theorem heldAtoms_credit (σ : CoveState) (owner id i : Bytes) (amount : Int) :
    (σ.credit owner id amount).heldAtoms i =
      σ.heldAtoms i + if i = id then amount else 0 := by
  rw [credit_eq, heldAtoms_put, heldOf_set, heldOf_current]
  split_ifs with h
  · rw [h]
    ring
  · ring

theorem BalancesInv.balanceOf_nonneg {σ : CoveState} (h : BalancesInv σ) (owner id : Bytes) :
    0 ≤ σ.balanceOf owner id := by
  rw [CoveState.balanceOf]
  cases hg : σ.balances.get owner with
  | none => simp
  | some m => exact h.held_nonneg hg id

theorem balancesInv_credit {σ : CoveState} (h : BalancesInv σ) {owner id : Bytes} {amount : Int}
    (hpos : 0 < amount) (hid : σ.tokens.has id = true) :
    BalancesInv (σ.credit owner id amount) := by
  have hold := h.balanceOf_nonneg owner id
  rw [credit_eq]
  apply put_set h _ (by omega) hid
  intro i b hb
  cases hg : σ.balances.get owner with
  | none =>
    rw [hg, Option.getD_none, Dict.get_empty] at hb
    cases hb
  | some m =>
    rw [hg, Option.getD_some] at hb
    exact ⟨h.positive owner m hg i b hb, h.known owner m hg i b hb⟩

/-- An owner who covers an amount has a map with that token in it. -/
theorem held_of_covers {σ : CoveState} {owner id : Bytes} {amount : Int} (hpos : 0 < amount)
    (hle : amount ≤ σ.balanceOf owner id) :
    ∃ m b, σ.balances.get owner = some m ∧ m.get id = some b ∧
      σ.balanceOf owner id = b.availableAtoms := by
  rw [CoveState.balanceOf] at hle ⊢
  cases hg : σ.balances.get owner with
  | none =>
    rw [hg, Option.map_none, Option.getD_none] at hle
    omega
  | some m =>
    rw [hg, Option.map_some, Option.getD_some, heldOf] at hle
    cases hb : m.get id with
    | none =>
      rw [hb, Option.map_none, Option.getD_none] at hle
      omega
    | some b =>
      refine ⟨m, b, rfl, hb, ?_⟩
      rw [Option.map_some, Option.getD_some, heldOf, hb]
      rfl

/-- What a debit leaves: the balance lowered, and what became empty pruned. -/
theorem debit_eq {σ : CoveState} {owner id : Bytes} {amount : Int} {m : Dict Bytes CoveBalance}
    {b : CoveBalance} (hm : σ.balances.get owner = some m) (hb : m.get id = some b) :
    σ.debit owner id amount =
      if b.availableAtoms - amount = 0 then
        if m.delete id = ∅ then .ok { σ with balances := σ.balances.delete owner }
        else .ok (σ.put owner (m.delete id))
      else .ok (σ.put owner (m.set id ⟨b.availableAtoms - amount⟩)) := by
  rw [CoveState.debit, hm, show demand (some m) _ = .ok m from rfl]
  simp only [bind, Except.bind, hb]
  rfl

/-- A covered debit goes through, touches balances only, and lowers what is held by its amount. -/
theorem debit_ok {σ : CoveState} (h : BalancesInv σ) {owner id : Bytes} {amount : Int}
    (hpos : 0 < amount) (hle : amount ≤ σ.balanceOf owner id) :
    ∃ balances, σ.debit owner id amount = .ok { σ with balances := balances } ∧
      BalancesInv { σ with balances := balances } ∧
      ∀ i, { σ with balances := balances : CoveState }.heldAtoms i =
        σ.heldAtoms i - if i = id then amount else 0 := by
  obtain ⟨m, b, hm, hb, hheld⟩ := held_of_covers hpos hle
  have hsub : ∀ i b', m.get i = some b' → 0 < b'.availableAtoms ∧ σ.tokens.has i = true :=
    fun i b' hb' => ⟨h.positive owner m hm i b' hb', h.known owner m hm i b' hb'⟩
  have hbalance (i : Bytes) : σ.balanceOf owner i = heldOf m i := by
    rw [CoveState.balanceOf, hm]
    rfl
  rw [debit_eq hm hb]
  rw [hheld] at hle
  by_cases hleft : b.availableAtoms - amount = 0
  · rw [if_pos hleft]
    have hdeleted (i : Bytes) :
        heldOf (m.delete id) i = heldOf m i - if i = id then amount else 0 := by
      rw [heldOf_delete]
      split_ifs with hi
      · rw [hi, ← hbalance, hheld]
        omega
      · ring
    by_cases hempty : m.delete id = ∅
    · refine ⟨_, if_pos hempty, ⟨?_, ?_, ?_⟩, ?_⟩
      · intro o m' hm'
        rw [Dict.get_delete] at hm'
        split_ifs at hm'
        exact h.nonempty o m' hm'
      · intro o m' hm'
        rw [Dict.get_delete] at hm'
        split_ifs at hm'
        exact h.positive o m' hm'
      · intro o m' hm'
        rw [Dict.get_delete] at hm'
        split_ifs at hm'
        exact h.known o m' hm'
      · intro i
        have hzero := hdeleted i
        rw [hempty, heldOf_empty] at hzero
        rw [CoveState.heldAtoms, CoveState.heldAtoms, Dict.total_delete _ hm]
        omega
    · refine ⟨_, if_neg hempty, balancesInv_put h hempty ?_, ?_⟩
      · intro i b' hb'
        rw [Dict.get_delete] at hb'
        split_ifs at hb'
        exact hsub i b' hb'
      · intro i
        have hput := heldAtoms_put σ owner (m.delete id) i
        rw [hdeleted, hbalance] at hput
        rw [CoveState.put] at hput
        omega
  · rw [if_neg hleft]
    refine ⟨_, rfl, put_set h hsub (by omega) (hsub id b hb).2, ?_⟩
    intro i
    have hput := heldAtoms_put σ owner (m.set id ⟨b.availableAtoms - amount⟩) i
    rw [heldOf_set, hbalance, CoveState.put] at hput
    rw [hput]
    split_ifs with hi
    · rw [hi, ← hbalance, hheld]
      ring
    · ring

/-! Pricing of a mint. -/

theorem exactTokens_ok {supply amount : Int} (h0 : 0 ≤ supply) (hpos : 0 < amount)
    (hcap : supply + amount ≤ publicSupplyTokens) :
    ∃ q, exactTokens amount supply = .ok q ∧
      q.curveContributionSats = stairCharge supply (supply + amount) := by
  obtain ⟨q, hq, hcost, -⟩ :=
    ExactQuote.quoteExactTokens_eq h0 hpos hcap (Nat.lt_succ_self amount.toNat)
  refine ⟨q, ?_, hcost⟩
  rw [exactTokens, hq]
  rfl

theorem stairCharge_nonneg {a b : Int} (hab : a ≤ b) : 0 ≤ stairCharge a b := by
  have hmono := stairs_sequential.charge_mono a hab
  rwa [Metered.charge_self] at hmono

theorem computePlatformFee_ok {contribution bps : Int} (hc : 0 ≤ contribution) (hb : 0 ≤ bps) :
    ∃ fee, computePlatformFee contribution bps = .ok fee ∧ 0 ≤ fee := by
  unfold computePlatformFee
  rw [ensure, if_pos hb, ensure, if_pos hc]
  by_cases hz : contribution = 0 ∨ bps = 0
  · exact ⟨0, by simp [hz, bind, Except.bind, pure, Except.pure], le_refl 0⟩
  · refine ⟨Cove.ceilDiv (contribution * bps) 10000, ?_, ?_⟩
    · simp only [bind, Except.bind, hz, if_false]
      exact ExactQuote.ceilDiv_eq (mul_nonneg hc hb) (by decide)
    · unfold Cove.ceilDiv
      split_ifs
      · exact le_refl 0
      · omega

/-! The ledger's invariants. -/

/-- A token whose supply is a number of whole tokens within the public cap, on its stage. -/
structure TokenInv (σ : CoveState) (id : Bytes) (t : CoveToken) : Prop where
  deploymentId : t.deploymentId = id
  ticker : tickerText t.ticker = true
  indexed : σ.tickerIndex.get t.ticker = some id
  cap : t.publicSupplyAtoms = publicSupplyAtoms
  supply_nonneg : 0 ≤ t.confirmedSupplyAtoms
  supply_le : t.confirmedSupplyAtoms ≤ publicSupplyAtoms
  whole : t.confirmedSupplyAtoms % atomsPerToken = 0
  stage : getStageForSupply (atomsToDisplayTokens t.confirmedSupplyAtoms) = .ok t.currentStage
  conserved : σ.heldAtoms id = t.confirmedSupplyAtoms

/-- What holds of the ledger between operations; `seen` are the transactions applied so far. -/
structure CoveInv (seen : List Bytes) (σ : CoveState) : Prop where
  balances : BalancesInv σ
  tokens : ∀ id t, σ.tokens.get id = some t → TokenInv σ id t
  resolves : ∀ tick id, σ.tickerIndex.get tick = some id →
    ∃ t, σ.tokens.get id = some t ∧ t.ticker = tick
  seen : ∀ id, σ.tokens.has id = true → id ∈ seen

/-- The whole tokens minted so far. -/
def CoveToken.supply (t : CoveToken) : Int := t.confirmedSupplyAtoms / atomsPerToken

theorem CoveInv.new (seen : List Bytes) : CoveInv seen createCoveState := by
  refine ⟨⟨?_, ?_, ?_⟩, ?_, ?_, ?_⟩
  · intro owner m hm
    cases hm
  · intro owner m hm
    cases hm
  · intro owner m hm
    cases hm
  · intro id t ht
    cases ht
  · intro tick id h
    cases h
  · intro id h
    cases h

theorem CoveInv.mono {seen seen' : List Bytes} {σ : CoveState} (h : CoveInv seen σ)
    (hsub : ∀ x ∈ seen, x ∈ seen') : CoveInv seen' σ :=
  ⟨h.balances, h.tokens, h.resolves, fun id hid => hsub id (h.seen id hid)⟩

/-- Nothing is held of a token that does not exist. -/
theorem BalancesInv.held_unknown {σ : CoveState} (h : BalancesInv σ) {id : Bytes}
    (hid : σ.tokens.get id = none) : σ.heldAtoms id = 0 := by
  apply Multiset.sum_eq_zero
  intro x hx
  obtain ⟨e, he, rfl⟩ := Multiset.mem_map.mp hx
  have hm := Dict.mem_entries.mp he
  change heldOf e.2 id = 0
  rw [heldOf]
  cases hb : e.2.get id with
  | none => rfl
  | some b =>
    have hknown := h.known e.1 e.2 hm id b hb
    rw [Dict.has, hid] at hknown
    cases hknown

theorem resolveToken_eq_some {σ : CoveState} {ticker : Option Bytes} {t : CoveToken} :
    resolveToken σ ticker = some t ↔
      ∃ tick id, ticker = some tick ∧ tick ≠ [] ∧ σ.tickerIndex.get tick = some id ∧ id ≠ [] ∧
        σ.tokens.get id = some t := by
  unfold resolveToken
  cases ticker with
  | none => simp
  | some tick =>
    by_cases htick : tick = []
    · simp [htick]
    · cases hg : σ.tickerIndex.get tick with
      | none => simp [htick, hg]
      | some id =>
        by_cases hid : id = []
        · simp [htick, hg, hid]
        · simp [htick, hg, hid]

/-- The token a ticker resolves to stands under its own id. -/
theorem CoveInv.resolved {seen : List Bytes} {σ : CoveState} (h : CoveInv seen σ)
    {ticker : Option Bytes} {t : CoveToken} (ht : resolveToken σ ticker = some t) :
    σ.tokens.get t.deploymentId = some t ∧ TokenInv σ t.deploymentId t := by
  obtain ⟨tick, id, -, -, -, -, hget⟩ := resolveToken_eq_some.mp ht
  have hinv := h.tokens id t hget
  rw [hinv.deploymentId]
  exact ⟨hget, hinv⟩

/-! What validation accepts. -/

structure DeployPassed (σ : CoveState) (tx : CoveTransaction) (cfg : CoveConfig) : Prop where
  ticker : tickerText (tx.ticker.getD []) = true
  fresh : σ.tickerIndex.get (tx.ticker.getD []) = none
  actor : isSupportedScript tx.actor = true
  fee : ∃ out, findRole tx.protocolOutputs "launch-fee" = some out ∧ out.index = 1 ∧
    out.scriptPubKey = cfg.treasuryScript ∧ out.amountSats = cfg.launchFeeSats

/-- A mint of whole tokens of `t`, that pays the price `cost` and the fee on it. -/
structure MintPassed (σ : CoveState) (tx : CoveTransaction) (cfg : CoveConfig) (t : CoveToken)
    (cost fee : Int) : Prop where
  token : resolveToken σ tx.ticker = some t
  stated : tx.supplyBeforeAtoms = some t.confirmedSupplyAtoms
  positive : 0 < tx.amountAtoms.getD 0
  whole : (tx.amountAtoms.getD 0).tmod atomsPerToken = 0
  remaining : atomsToDisplayTokens (tx.amountAtoms.getD 0) ≤
    atomsToDisplayTokens (t.publicSupplyAtoms - t.confirmedSupplyAtoms)
  quoted : ∃ q, exactTokens (atomsToDisplayTokens (tx.amountAtoms.getD 0))
    (atomsToDisplayTokens t.confirmedSupplyAtoms) = .ok q ∧ q.curveContributionSats = cost
  charged : computePlatformFee cost cfg.primaryMintFeeBps = .ok fee
  settled : ∃ out, findRole tx.protocolOutputs "settlement" = some out ∧ out.index = 2 ∧
    out.scriptPubKey = cfg.settlementScript ∧ out.amountSats = cost + fee

structure TransferPassed (σ : CoveState) (tx : CoveTransaction) (t : CoveToken) : Prop where
  token : resolveToken σ tx.ticker = some t
  positive : 0 < tx.amountAtoms.getD 0
  other : ∀ r, tx.recipient = some r → r ≠ tx.actor
  covered : tx.amountAtoms.getD 0 ≤ σ.balanceOf tx.actor t.deploymentId

section

variable {σ : CoveState} {tx : CoveTransaction} {cfg : CoveConfig}

theorem validateDeploy_ok {u : Unit} (h : validateDeploy σ tx cfg = .ok u) :
    DeployPassed σ tx cfg := by
  simp only [validateDeploy, bind_eq_ok, ensure_eq_ok, demand_eq_ok] at h
  obtain ⟨-, hticker, -, hfresh, -, hactor, out, hout, -, hindex, -, hscript, hamount⟩ := h
  refine ⟨hticker, ?_, hactor, out, hout, hindex, hscript, hamount⟩
  rw [← Option.not_isSome_iff_eq_none]
  intro hsome
  rw [Dict.has, hsome] at hfresh
  cases hfresh

theorem validateMint_ok {u : Unit} (h : validateMint σ tx cfg = .ok u) :
    ∃ t cost fee, MintPassed σ tx cfg t cost fee := by
  simp only [validateMint, priced, bind_eq_ok, ensure_eq_ok, demand_eq_ok, mapError_eq_ok] at h
  obtain ⟨t, ht, supply, hsupply, -, hstated, -, hpos, -, hwhole, -, -, r, -, -, -, -, hremaining,
    q, hq, -, -, fee, hfee, rest⟩ := h
  obtain ⟨out, -, -, -, -, -, -, -, settled, hsettled, -, hindex, -, hscript, hamount⟩ := rest
  refine ⟨t, q.curveContributionSats, fee, ht, ?_, hpos, hwhole, hremaining, ⟨q, hq, rfl⟩, hfee,
    settled, hsettled, hindex, hscript, hamount⟩
  rw [hsupply, hstated]

theorem validateTransfer_ok {u : Unit} (h : validateTransfer σ tx = .ok u) :
    ∃ t, TransferPassed σ tx t := by
  simp only [validateTransfer, bind_eq_ok, ensure_eq_ok, demand_eq_ok] at h
  obtain ⟨t, ht, -, hpos, -, -, r, hr, -, -, -, hother, -, hcovered, -⟩ := h
  refine ⟨t, ht, hpos, ?_, hcovered⟩
  intro r' hr'
  rw [hr] at hr'
  cases hr'
  exact hother

/-! The parts of the ledger the invariant reads survive a change elsewhere. -/

theorem CoveInv.deploy {seen : List Bytes} (h : CoveInv seen σ) {id tick : Bytes} (creator : Bytes)
    (hid : id ∉ seen) (htext : tickerText tick = true) (htick : σ.tickerIndex.get tick = none)
    (treasury : Int) :
    CoveInv (id :: seen) { σ with
      tokens := σ.tokens.set id ⟨id, tick, creator, 0, publicSupplyAtoms, 1⟩
      tickerIndex := σ.tickerIndex.set tick id
      platformTreasurySats := treasury } := by
  have hnone : σ.tokens.get id = none := by
    cases hg : σ.tokens.get id with
    | none => rfl
    | some t => exact absurd (h.seen id (Dict.has_iff.mpr ⟨t, hg⟩)) hid
  have hkeep : ∀ i, σ.tokens.has i = true →
      (σ.tokens.set id ⟨id, tick, creator, 0, publicSupplyAtoms, 1⟩).has i = true := by
    intro i hi
    obtain ⟨t, ht⟩ := Dict.has_iff.mp hi
    by_cases hne : i = id
    · rw [hne] at ht
      rw [hnone] at ht
      cases ht
    · exact Dict.has_iff.mpr ⟨t, by rw [Dict.get_set_ne _ _ hne, ht]⟩
  refine ⟨⟨h.balances.nonempty, h.balances.positive, ?_⟩, ?_, ?_, ?_⟩
  · intro owner m hm i b hb
    exact hkeep i (h.balances.known owner m hm i b hb)
  · intro i t ht
    rw [Dict.get_set] at ht
    split_ifs at ht with hi
    · cases ht
      have hcap : (0 : Int) ≤ publicSupplyAtoms := by decide
      have hstage : getStageForSupply (atomsToDisplayTokens 0) = .ok 1 := by decide
      exact ⟨hi.symm, htext, by rw [hi]; exact Dict.get_set_self _ _ _, rfl, le_refl 0, hcap,
        Int.zero_emod _, hstage, by rw [hi]; exact h.balances.held_unknown hnone⟩
    · have ht' := h.tokens i t ht
      refine ⟨ht'.deploymentId, ht'.ticker, ?_, ht'.cap, ht'.supply_nonneg, ht'.supply_le,
        ht'.whole, ht'.stage,
        ht'.conserved⟩
      rw [Dict.get_set_ne, ht'.indexed]
      intro heq
      rw [← heq, ht'.indexed] at htick
      cases htick
  · intro k i hk
    rw [Dict.get_set] at hk
    split_ifs at hk with hkt
    · cases hk
      exact ⟨_, Dict.get_set_self _ _ _, hkt.symm⟩
    · obtain ⟨t, ht, htk⟩ := h.resolves k i hk
      refine ⟨t, ?_, htk⟩
      rw [Dict.get_set_ne _ _, ht]
      intro heq
      rw [heq, hnone] at ht
      cases ht
  · intro i hi
    obtain ⟨t, ht⟩ := Dict.has_iff.mp hi
    by_cases hne : i = id
    · rw [hne]
      exact List.mem_cons_self
    · rw [Dict.get_set_ne _ _ hne] at ht
      exact List.mem_cons_of_mem _ (h.seen i (Dict.has_iff.mpr ⟨t, ht⟩))

/-- The facts a mint's price rests on. -/
structure MintTerms (t : CoveToken) (amount tokens cost : Int) : Prop where
  supply : t.confirmedSupplyAtoms = t.supply * atomsPerToken
  supply_nonneg : 0 ≤ t.supply
  amount : amount = tokens * atomsPerToken
  positive : 0 < tokens
  cap : t.supply + tokens ≤ publicSupplyTokens
  cost : cost = stairCharge t.supply (t.supply + tokens)

theorem supply_display {t : CoveToken} {id : Bytes} (h : TokenInv σ id t) :
    t.confirmedSupplyAtoms = t.supply * atomsPerToken ∧ 0 ≤ t.supply ∧
      t.supply ≤ publicSupplyTokens ∧ atomsToDisplayTokens t.confirmedSupplyAtoms = t.supply := by
  have h0 := h.supply_nonneg
  have hmax := h.supply_le
  have hwhole := h.whole
  refine ⟨?_, ?_, ?_, Int.tdiv_eq_ediv_of_nonneg h0⟩
  · rw [CoveToken.supply, Int.ediv_mul_cancel_of_emod_eq_zero hwhole]
  · unfold CoveToken.supply atomsPerToken
    omega
  · unfold CoveToken.supply atomsPerToken
    rw [publicSupplyAtoms_eq] at hmax
    unfold publicSupplyTokens
    omega

/-- What the check on the remaining supply says in whole tokens. -/
theorem fits_of_remaining {t : CoveToken} {id : Bytes} {amount : Int} (h : TokenInv σ id t)
    (hpos : 0 < amount) (hwhole : amount.tmod atomsPerToken = 0)
    (hremaining : atomsToDisplayTokens amount ≤
      atomsToDisplayTokens (t.publicSupplyAtoms - t.confirmedSupplyAtoms)) :
    0 < atomsToDisplayTokens amount ∧
      t.supply + atomsToDisplayTokens amount ≤ publicSupplyTokens := by
  obtain ⟨hsupply, hnonneg, hcap, -⟩ := supply_display h
  have hlimit : publicSupplyTokens = 21000000 := by decide
  have hle := h.supply_le
  rw [Int.tmod_eq_emod_of_nonneg hpos.le, atomsPerToken_eq] at hwhole
  unfold atomsToDisplayTokens at hremaining ⊢
  rw [h.cap, Int.tdiv_eq_ediv_of_nonneg hpos.le, Int.tdiv_eq_ediv_of_nonneg (by omega), hsupply,
    publicSupplyAtoms_eq, atomsPerToken_eq] at hremaining
  rw [Int.tdiv_eq_ediv_of_nonneg hpos.le, atomsPerToken_eq]
  omega

theorem MintPassed.terms {seen : List Bytes} (h : CoveInv seen σ) {t : CoveToken} {cost fee : Int}
    (hp : MintPassed σ tx cfg t cost fee) :
    MintTerms t (tx.amountAtoms.getD 0) (atomsToDisplayTokens (tx.amountAtoms.getD 0)) cost := by
  have hinv := (h.resolved hp.token).2
  obtain ⟨hsupply, hnonneg, -, hdisplay⟩ := supply_display hinv
  obtain ⟨hstart, hend⟩ := fits_of_remaining hinv hp.positive hp.whole hp.remaining
  refine ⟨hsupply, hnonneg, ?_, hstart, hend, ?_⟩
  · have hwhole := hp.whole
    rw [Int.tmod_eq_emod_of_nonneg hp.positive.le] at hwhole
    rw [atomsToDisplayTokens, Int.tdiv_eq_ediv_of_nonneg hp.positive.le,
      Int.ediv_mul_cancel_of_emod_eq_zero hwhole]
  · obtain ⟨q, hq, hcost⟩ := hp.quoted
    obtain ⟨q', hq', hcost'⟩ := exactTokens_ok hnonneg hstart hend
    rw [hdisplay, hq', Except.ok.injEq] at hq
    rw [← hcost, ← hq, hcost']

/-- A token changed in its supply and stage only, with what is held of it. -/
theorem CoveInv.mint {seen : List Bytes} (h : CoveInv seen σ) {t : CoveToken}
    (hget : σ.tokens.get t.deploymentId = some t) {amount tokens cost : Int}
    (hterms : MintTerms t amount tokens cost) {stage : Nat}
    (hstage : getStageForSupply (atomsToDisplayTokens (t.confirmedSupplyAtoms + amount)) =
      .ok stage) (reserve treasury : Int) (owner : Bytes) :
    CoveInv seen (({ σ with
      tokens := σ.tokens.set t.deploymentId
        { t with confirmedSupplyAtoms := t.confirmedSupplyAtoms + amount, currentStage := stage }
      reserveSats := reserve
      platformTreasurySats := treasury } : CoveState).credit owner t.deploymentId amount) := by
  have hinv := h.tokens _ t hget
  have hamount : 0 < amount := by
    rw [hterms.amount, atomsPerToken_eq]
    have hpos := hterms.positive
    omega
  have hkeep : ∀ i, (σ.tokens.set t.deploymentId { t with
      confirmedSupplyAtoms := t.confirmedSupplyAtoms + amount, currentStage := stage }).has i =
        true ↔ σ.tokens.has i = true := by
    intro i
    by_cases hi : i = t.deploymentId
    · rw [hi, Dict.has, Dict.get_set_self, Dict.has, hget]
      exact Iff.rfl
    · rw [Dict.has, Dict.get_set_ne _ _ hi]
      exact Iff.rfl
  obtain ⟨σ₁, hσ₁⟩ : ∃ σ₁ : CoveState, σ₁ = { σ with
      tokens := σ.tokens.set t.deploymentId
        { t with confirmedSupplyAtoms := t.confirmedSupplyAtoms + amount, currentStage := stage }
      reserveSats := reserve
      platformTreasurySats := treasury } := ⟨_, rfl⟩
  rw [← hσ₁]
  have hbalances : BalancesInv σ₁ := by
    rw [hσ₁]
    exact ⟨h.balances.nonempty, h.balances.positive,
      fun o m hm i b hb => (hkeep i).mpr (h.balances.known o m hm i b hb)⟩
  have hheld : ∀ i, (σ₁.credit owner t.deploymentId amount).heldAtoms i =
      σ.heldAtoms i + if i = t.deploymentId then amount else 0 := by
    intro i
    rw [heldAtoms_credit, hσ₁]
    rfl
  have hhas : σ₁.tokens.has t.deploymentId = true := by
    rw [hσ₁]
    exact (hkeep _).mpr (Dict.has_iff.mpr ⟨t, hget⟩)
  refine ⟨balancesInv_credit hbalances hamount hhas, ?_, ?_, ?_⟩
  · intro i t' ht'
    have hindex : (σ₁.credit owner t.deploymentId amount).tickerIndex = σ.tickerIndex := by
      rw [hσ₁]
      rfl
    have htokens : (σ₁.credit owner t.deploymentId amount).tokens = σ₁.tokens := rfl
    rw [htokens, hσ₁, Dict.get_set] at ht'
    split_ifs at ht' with hi
    · cases ht'
      subst hi
      refine ⟨rfl, hinv.ticker, by rw [hindex]; exact hinv.indexed, hinv.cap, ?_, ?_, ?_, hstage, ?_⟩
      · have h0 := hinv.supply_nonneg
        dsimp only
        omega
      · have hcap := hterms.cap
        dsimp only
        rw [hterms.supply, hterms.amount, publicSupplyAtoms_eq, atomsPerToken_eq]
        have hlimit : publicSupplyTokens = 21000000 := by decide
        omega
      · dsimp only
        rw [hterms.supply, hterms.amount, ← add_mul]
        exact Int.mul_emod_left _ _
      · rw [hheld, if_pos rfl, hinv.conserved]
    · have hold := h.tokens i t' ht'
      refine ⟨hold.deploymentId, hold.ticker, by rw [hindex]; exact hold.indexed, hold.cap,
        hold.supply_nonneg, hold.supply_le, hold.whole, hold.stage, ?_⟩
      rw [hheld, if_neg hi, add_zero, hold.conserved]
  · intro tick i hi
    have hindex : (σ₁.credit owner t.deploymentId amount).tickerIndex = σ.tickerIndex := by
      rw [hσ₁]
      rfl
    have htokens : (σ₁.credit owner t.deploymentId amount).tokens = σ₁.tokens := rfl
    rw [hindex] at hi
    obtain ⟨t', ht', htick⟩ := h.resolves tick i hi
    rw [htokens, hσ₁]
    by_cases hne : i = t.deploymentId
    · rw [hne] at ht' ⊢
      rw [hget] at ht'
      cases ht'
      exact ⟨_, Dict.get_set_self _ _ _, htick⟩
    · exact ⟨t', by rw [Dict.get_set_ne _ _ hne, ht'], htick⟩
  · intro i hi
    have htokens : (σ₁.credit owner t.deploymentId amount).tokens = σ₁.tokens := rfl
    rw [htokens, hσ₁] at hi
    exact h.seen i ((hkeep i).mp hi)

/-- Balances may move as long as every token's sum stays. -/
theorem CoveInv.move {seen : List Bytes} (h : CoveInv seen σ)
    {balances : Dict Bytes (Dict Bytes CoveBalance)}
    (hb : BalancesInv { σ with balances := balances })
    (hheld : ∀ i, { σ with balances := balances : CoveState }.heldAtoms i = σ.heldAtoms i) :
    CoveInv seen { σ with balances := balances } := by
  refine ⟨hb, ?_, h.resolves, h.seen⟩
  intro i t ht
  have hold := h.tokens i t ht
  exact ⟨hold.deploymentId, hold.ticker, hold.indexed, hold.cap, hold.supply_nonneg,
    hold.supply_le, hold.whole,
    hold.stage, by rw [hheld, hold.conserved]⟩

/-! What an operation adds to the books. -/

/-- What the sold tokens cost when they are bought at once. -/
def CoveState.priceOfSupply (σ : CoveState) : Int :=
  σ.tokens.total fun _ t => stairCharge 0 t.supply

/-- What the reserve holds beyond that: the roundings up of the single mints. -/
def CoveState.excess (σ : CoveState) : Int := σ.reserveSats - σ.priceOfSupply

/-- What an operation pays to the configured scripts. -/
def CoveTransaction.receipt (tx : CoveTransaction) : Int :=
  match tx.operation with
  | .deploy => ((findRole tx.protocolOutputs "launch-fee").map fun o => o.amountSats).getD 0
  | .mint => ((findRole tx.protocolOutputs "settlement").map fun o => o.amountSats).getD 0
  | .transfer => 0

/-- How the books move: by what was paid, and with a rounding of at most one for a mint. -/
structure Booked (tx : CoveTransaction) (σ σ' : CoveState) : Prop where
  settled : σ'.reserveSats + σ'.platformTreasurySats =
    σ.reserveSats + σ.platformTreasurySats + tx.receipt
  excess_le : σ.excess ≤ σ'.excess
  excess_ge : σ'.excess ≤ σ.excess + if tx.operation = .mint then 1 else 0

theorem getStageForSupply_total {s : Int} (h : 0 ≤ s) : ∃ stage, getStageForSupply s = .ok stage := by
  unfold getStageForSupply
  rw [if_neg (by omega)]
  split_ifs <;> exact ⟨_, rfl⟩

/-- Cutting a purchase that starts at nothing costs at most one rounding. -/
theorem stairCharge_cut {s n : Int} (hs : 0 ≤ s) (hn : 0 ≤ n) :
    stairCharge 0 (s + n) ≤ stairCharge 0 s + stairCharge s (s + n) ∧
      stairCharge 0 s + stairCharge s (s + n) ≤ stairCharge 0 (s + n) + 1 :=
  ⟨Metered.charge_le_add _ _ _, stairs_sequential.add_le_charge hs (by omega)⟩

theorem deploy_applies {seen : List Bytes} (h : CoveInv seen σ) (hop : tx.operation = .deploy)
    (hp : DeployPassed σ tx cfg) (hfresh : tx.txid ∉ seen) :
    ∃ σ', applyCoveOperation σ tx cfg = .ok σ' ∧ CoveInv (tx.txid :: seen) σ' ∧
      Booked tx σ σ' := by
  have hinv := h.deploy tx.actor hfresh hp.ticker hp.fresh
    (σ.platformTreasurySats + cfg.launchFeeSats)
  have hnone : σ.tokens.get tx.txid = none := by
    cases hg : σ.tokens.get tx.txid with
    | none => rfl
    | some t => exact absurd (h.seen _ (Dict.has_iff.mpr ⟨t, hg⟩)) hfresh
  have hprice (t : CoveToken) (ht : t.confirmedSupplyAtoms = 0) :
      (σ.tokens.set tx.txid t).total (fun _ t => stairCharge 0 t.supply) = σ.priceOfSupply := by
    rw [Dict.total_set_of_fresh _ _ hnone, CoveToken.supply, ht, Int.zero_ediv, stairCharge,
      Metered.charge_self, zero_add]
    rfl
  refine ⟨_, by rw [applyCoveOperation, hop], hinv, ?_, ?_, ?_⟩
  · obtain ⟨out, hout, -, -, hamount⟩ := hp.fee
    rw [CoveTransaction.receipt, hop]
    simp only [hout, Option.map_some, Option.getD_some, hamount]
    ring
  · exact (congrArg (fun price => σ.reserveSats - price) (hprice _ rfl)).ge
  · rw [if_neg (by rw [hop]; decide), add_zero]
    exact (congrArg (fun price => σ.reserveSats - price) (hprice _ rfl)).le

theorem mint_applies {seen : List Bytes} (h : CoveInv seen σ) (hop : tx.operation = .mint)
    {t : CoveToken} {cost fee : Int} (hp : MintPassed σ tx cfg t cost fee) :
    ∃ σ', applyCoveOperation σ tx cfg = .ok σ' ∧ CoveInv seen σ' ∧ Booked tx σ σ' := by
  have hterms := hp.terms h
  obtain ⟨hget, hinv⟩ := h.resolved hp.token
  obtain ⟨q, hq, hcost⟩ := hp.quoted
  obtain ⟨amount, hamount⟩ : ∃ amount, amount = tx.amountAtoms.getD 0 := ⟨_, rfl⟩
  obtain ⟨tokens, htokens⟩ : ∃ tokens, tokens = atomsToDisplayTokens amount := ⟨_, rfl⟩
  rw [← hamount, ← htokens] at hterms
  have hend : t.confirmedSupplyAtoms + amount = (t.supply + tokens) * atomsPerToken := by
    rw [hterms.supply, hterms.amount, add_mul]
  have hnonneg : 0 ≤ t.confirmedSupplyAtoms + amount := by
    have h0 := hterms.supply_nonneg
    have hpos := hterms.positive
    rw [hend, atomsPerToken_eq]
    omega
  obtain ⟨stage, hstage⟩ := getStageForSupply_total
    (show 0 ≤ atomsToDisplayTokens (t.confirmedSupplyAtoms + amount) from by
      rw [atomsToDisplayTokens, Int.tdiv_eq_ediv_of_nonneg hnonneg, hend,
        Int.mul_ediv_cancel _ (by decide)]
      have h0 := hterms.supply_nonneg
      have hpos := hterms.positive
      omega)
  have hkept := h.mint hget hterms hstage (σ.reserveSats + cost) (σ.platformTreasurySats + fee)
    (tx.recipient.getD [])
  refine ⟨_, ?_, hkept, ?_, ?_, ?_⟩
  · simp only [applyCoveOperation, hop, hp.token, bind_eq_ok, demand_eq_ok, pure_eq_ok]
    refine ⟨t, rfl, q, hq, fee, by rw [hcost]; exact hp.charged, stage, ?_, ?_⟩
    · rw [← hamount]
      exact hstage
    · rw [← hamount, hcost]
  · obtain ⟨out, hout, -, -, hpaid⟩ := hp.settled
    rw [CoveTransaction.receipt, hop]
    simp only [hout, Option.map_some, Option.getD_some, hpaid, CoveState.credit]
    ring
  all_goals
    have hcut := stairCharge_cut hterms.supply_nonneg hterms.positive.le
    have hsupply : (t.confirmedSupplyAtoms + amount) / atomsPerToken = t.supply + tokens := by
      rw [hend, Int.mul_ediv_cancel _ (by decide)]
    have hcharge := hterms.cost
    simp only [CoveState.excess, CoveState.priceOfSupply, CoveState.credit, Dict.total_set, hget,
      Option.map_some, Option.getD_some, hop, if_true]
    simp only [CoveToken.supply, hsupply] at hcut hcharge ⊢
    omega

theorem transfer_applies {seen : List Bytes} (h : CoveInv seen σ) (hop : tx.operation = .transfer)
    {t : CoveToken} (hp : TransferPassed σ tx t) :
    ∃ σ', applyCoveOperation σ tx cfg = .ok σ' ∧ CoveInv seen σ' ∧ Booked tx σ σ' := by
  obtain ⟨hget, hinv⟩ := h.resolved hp.token
  obtain ⟨balances, hdebit, hinv', hheld⟩ := debit_ok h.balances hp.positive hp.covered
  obtain ⟨σ₁, hσ₁⟩ : ∃ σ₁ : CoveState, σ₁ = { σ with balances := balances } := ⟨_, rfl⟩
  have hhas : σ₁.tokens.has t.deploymentId = true := by
    rw [hσ₁]
    exact Dict.has_iff.mpr ⟨t, hget⟩
  rw [← hσ₁] at hdebit hinv'
  have hcredited : BalancesInv (σ₁.credit (tx.recipient.getD []) t.deploymentId _) :=
    balancesInv_credit hinv' hp.positive hhas
  obtain ⟨after, hafter⟩ : ∃ after : CoveState,
      after = σ₁.credit (tx.recipient.getD []) t.deploymentId (tx.amountAtoms.getD 0) := ⟨_, rfl⟩
  have hmoved : after = { σ with balances := after.balances } := by
    rw [hafter, hσ₁]
    rfl
  have hsame (i : Bytes) : after.heldAtoms i = σ.heldAtoms i := by
    rw [hafter, heldAtoms_credit, hσ₁, hheld]
    ring
  rw [← hafter, hmoved] at hcredited
  have hkept := h.move hcredited (by rw [← hmoved]; exact hsame)
  rw [← hmoved] at hkept
  refine ⟨after, ?_, hkept, ?_, ?_, ?_⟩
  · simp only [applyCoveOperation, hop, hp.token, bind_eq_ok, demand_eq_ok, pure_eq_ok]
    exact ⟨t, rfl, σ₁, hdebit, hafter.symm⟩
  · rw [hmoved, CoveTransaction.receipt, hop]
    exact (add_zero _).symm
  · rw [hmoved]
    exact le_refl _
  · rw [hmoved, if_neg (by rw [hop]; decide), add_zero]
    exact le_refl _

/-! Validation answers: the pricing it calls does not throw. -/

def Refusal.Told : Refusal → Prop
  | .invalid _ => True
  | .fault _ => False

theorem validateMint_told {seen : List Bytes} (h : CoveInv seen σ)
    (hfee : 0 ≤ cfg.primaryMintFeeBps) : FailsWith Refusal.Told (validateMint σ tx cfg) := by
  rw [validateMint]
  refine .bind_of_ok (.demand trivial) fun t ht => ?_
  rw [demand_eq_ok] at ht
  refine .bind (.demand trivial) fun supplyBefore => .bind (.ensure trivial) fun _ => ?_
  refine .bind_of_ok (.ensure trivial) fun _ hpos => .bind_of_ok (.ensure trivial) fun _ hwhole => ?_
  refine .bind (.ensure trivial) fun _ => .bind (.demand trivial) fun recipient => ?_
  refine .bind (.ensure trivial) fun _ => .bind_of_ok (.ensure trivial) fun _ hremaining => ?_
  rw [ensure_eq_ok] at hpos hwhole hremaining
  have hinv := (h.resolved ht).2
  obtain ⟨hsupply, hnonneg, -, hdisplay⟩ := supply_display hinv
  have hfits := fits_of_remaining hinv hpos hwhole hremaining
  obtain ⟨q, hq, hcost⟩ := exactTokens_ok hnonneg hfits.1 hfits.2
  rw [hdisplay, hq]
  refine .bind_of_ok (.ok q) fun q' hq' => .bind (.ensure trivial) fun _ => ?_
  cases hq'
  obtain ⟨fee, hcharged, -⟩ := computePlatformFee_ok
    (show 0 ≤ q.curveContributionSats from by
      rw [hcost]
      exact stairCharge_nonneg (by have hpos' := hfits.1; omega)) hfee
  rw [hcharged]
  refine .bind (.ok fee) fun _ => ?_
  refine .bind (.demand trivial) fun _ => .bind (.ensure trivial) fun _ => ?_
  refine .bind (.ensure trivial) fun _ => .bind (.ensure trivial) fun _ => ?_
  refine .bind (.demand trivial) fun _ => .bind (.ensure trivial) fun _ => ?_
  exact .bind (.ensure trivial) fun _ => .ensure trivial

theorem validateDeploy_told : FailsWith Refusal.Told (validateDeploy σ tx cfg) := by
  rw [validateDeploy]
  refine .bind (.ensure trivial) fun _ => .bind (.ensure trivial) fun _ => ?_
  refine .bind (.ensure trivial) fun _ => .bind (.demand trivial) fun _ => ?_
  exact .bind (.ensure trivial) fun _ => .bind (.ensure trivial) fun _ => .ensure trivial

theorem validateTransfer_told : FailsWith Refusal.Told (validateTransfer σ tx) := by
  rw [validateTransfer]
  refine .bind (.demand trivial) fun _ => .bind (.ensure trivial) fun _ => ?_
  refine .bind (.ensure trivial) fun _ => .bind (.demand trivial) fun _ => ?_
  refine .bind (.ensure trivial) fun _ => .bind (.ensure trivial) fun _ => ?_
  refine .bind (.ensure trivial) fun _ => .bind (.demand trivial) fun _ => ?_
  refine .bind (.ensure trivial) fun _ => .bind (.ensure trivial) fun _ => ?_
  refine .bind (.ensure trivial) fun _ => .bind (.demand trivial) fun _ => ?_
  exact .bind (.ensure trivial) fun _ => .bind (.ensure trivial) fun _ => .ensure trivial

theorem validate_told {seen : List Bytes} (h : CoveInv seen σ)
    (hfee : 0 ≤ cfg.primaryMintFeeBps) :
    FailsWith Refusal.Told (validateCoveOperation σ tx cfg) := by
  unfold validateCoveOperation
  cases tx.operation with
  | deploy => exact validateDeploy_told
  | mint => exact validateMint_told h hfee
  | transfer => exact validateTransfer_told

/-- A valid operation of a new transaction is applied, keeps the invariants and is booked. -/
theorem operation_applies {seen : List Bytes} (h : CoveInv seen σ)
    (hfresh : tx.txid ∉ seen) (hvalid : validateCoveOperation σ tx cfg = .ok ()) :
    ∃ σ', applyCoveOperation σ tx cfg = .ok σ' ∧ CoveInv (tx.txid :: seen) σ' ∧
      Booked tx σ σ' := by
  have hmore {σ' : CoveState} (hσ' : CoveInv seen σ') : CoveInv (tx.txid :: seen) σ' :=
    hσ'.mono fun _ hx => List.mem_cons_of_mem _ hx
  unfold validateCoveOperation at hvalid
  cases hop : tx.operation with
  | deploy =>
    rw [hop] at hvalid
    exact deploy_applies h hop (validateDeploy_ok hvalid) hfresh
  | mint =>
    rw [hop] at hvalid
    obtain ⟨t, cost, fee, hp⟩ := validateMint_ok hvalid
    obtain ⟨σ', happly, hinv, hbooked⟩ := mint_applies h hop hp
    exact ⟨σ', happly, hmore hinv, hbooked⟩
  | transfer =>
    rw [hop] at hvalid
    obtain ⟨t, hp⟩ := validateTransfer_ok hvalid
    obtain ⟨σ', happly, hinv, hbooked⟩ : ∃ σ', applyCoveOperation σ tx cfg = .ok σ' ∧
      CoveInv seen σ' ∧ Booked tx σ σ' := transfer_applies h hop hp
    exact ⟨σ', happly, hmore hinv, hbooked⟩

end

end Protocol

end Cove
