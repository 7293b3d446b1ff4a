import Cove.Indexer.UndoInverse
import Cove.Lib.Sha256

/-! Runs of the indexer over a chain: the states a clean replay builds, the states any mix of
applied and undone blocks reaches, and that the two are the same. -/

namespace Cove

open Checked

def chainTxs (chain : List V3BlockInput) : List Transaction := chain.flatMap V3BlockInput.txs

def txidsOf (C : Crypto) (txs : List Transaction) : List Bytes := txs.map (Transaction.getId C)

/-- A block that may come after a chain of indexed blocks. -/
structure NextBlock (C : Crypto) (chain : List V3BlockInput) (block : V3BlockInput) : Prop where
  height : ∀ last, chain.getLast? = some last → block.height = last.height + 1
  hash : block.hash.length = 32
  consensus : ConsensusValid C (chainTxs (chain ++ [block]))

/-- The next block, at or above the activation height. -/
structure ActiveBlock (C : Crypto) (cfg : V3IndexerConfig) (chain : List V3BlockInput)
    (block : V3BlockInput) : Prop extends NextBlock C chain block where
  active : cfg.genesisHeight ≤ block.height

/-- The chain applied block by block to a new indexer gives the state. -/
inductive Replays (C : Crypto) (cfg : V3IndexerConfig) : List V3BlockInput → V3IndexerState → Prop
  | new : Replays C cfg [] (.new C cfg)
  | step {chain : List V3BlockInput} {σ σ' : V3IndexerState} {block : V3BlockInput}
      {events : List V3Event} (hσ : Replays C cfg chain σ) (hb : ActiveBlock C cfg chain block)
      (h : applyBlock C cfg σ block = .ok (σ', events)) : Replays C cfg (chain ++ [block]) σ'

/-- The states any sequence of completed `applyBlock` and `undoBlock` calls reaches, beside
the blocks applied and not undone. A call that throws leaves no state: the
callers work on a clone and drop it. -/
inductive Reachable (C : Crypto) (cfg : V3IndexerConfig) :
    List V3BlockInput → V3IndexerState → Prop
  | new : Reachable C cfg [] (.new C cfg)
  | apply {chain : List V3BlockInput} {σ σ' : V3IndexerState} {block : V3BlockInput}
      {events : List V3Event} (hσ : Reachable C cfg chain σ) (hb : ActiveBlock C cfg chain block)
      (h : applyBlock C cfg σ block = .ok (σ', events)) : Reachable C cfg (chain ++ [block]) σ'
  | ignore {chain : List V3BlockInput} {σ σ' : V3IndexerState} {block : V3BlockInput}
      {events : List V3Event} (hσ : Reachable C cfg chain σ)
      (hb : block.height < cfg.genesisHeight)
      (h : applyBlock C cfg σ block = .ok (σ', events)) : Reachable C cfg chain σ'
  | undo {chain : List V3BlockInput} {σ σ' : V3IndexerState} {block : V3BlockInput}
      (hσ : Reachable C cfg (chain ++ [block]) σ)
      (h : undoBlock C cfg σ block.height = .ok σ') : Reachable C cfg chain σ'

section

variable {C : Crypto} {cfg : V3IndexerConfig} {block : V3BlockInput}

/-! What consensus promises of a transaction at its place in the chain. -/

theorem ConsensusValid.inputs {pre post : List Transaction} {tx : Transaction}
    (h : ConsensusValid C (pre ++ tx :: post)) : tx.spends.Nodup :=
  h.inputs_nodup tx (by simp)

theorem ConsensusValid.fresh {pre post : List Transaction} {tx : Transaction}
    (h : ConsensusValid C (pre ++ tx :: post)) : tx.getId C ∉ txidsOf C pre := by
  have hn := h.txids_nodup
  rw [List.map_append, List.nodup_append] at hn
  intro hm
  exact hn.2.2 _ hm _ (by simp) rfl

/-- What each transaction of a block keeps, the whole block keeps. The transactions
before the block are `base`, those of the block before the current one `done`. -/
theorem applyTxs_rule {base : List Transaction} (P : List Transaction → BlockRun → Prop)
    (step : ∀ done tx post txIndex run run', ConsensusValid C (base ++ done ++ tx :: post) →
      P done run → applyTx C cfg block txIndex tx run = .ok run' → P (done ++ [tx]) run')
    {txs : List Transaction} {txIndex : Nat} {run run' : BlockRun}
    (hc : ConsensusValid C (base ++ txs)) (hP : P [] run)
    (h : applyTxs C cfg block txIndex txs run = .ok run') : P txs run' := by
  suffices hgen : ∀ (txs done : List Transaction) (txIndex : Nat) (run : BlockRun),
      ConsensusValid C (base ++ (done ++ txs)) → P done run →
      applyTxs C cfg block txIndex txs run = .ok run' → P (done ++ txs) run' from
    hgen txs [] txIndex run hc hP h
  intro txs
  induction txs with
  | nil =>
    intro done txIndex run hc hP h
    simp only [applyTxs, Except.ok.injEq] at h
    subst h
    simpa using hP
  | cons tx txs ih =>
    intro done txIndex run hc hP h
    rw [applyTxs, bind_eq_ok] at h
    obtain ⟨mid, hmid, h⟩ := h
    have hstep := step done tx txs txIndex run mid (by rwa [List.append_assoc]) hP hmid
    rw [List.append_cons] at hc ⊢
    exact ih (done ++ [tx]) (txIndex + 1) mid hc hstep h

theorem applyBlock_eq_ok {σ σ' : V3IndexerState} {events : List V3Event}
    (ha : cfg.genesisHeight ≤ block.height) :
    applyBlock C cfg σ block = .ok (σ', events) ↔
      ∃ run, applyTxs C cfg block 0 block.txs ⟨σ.toLedger, [], []⟩ = .ok run ∧
        events = run.events ∧ σ' = {
          toLedger := run.ledger
          events := σ.events ++ run.events
          undoByHeight := σ.undoByHeight.set block.height ⟨block.height, block.hash, run.ops⟩
          cursor := ⟨cfg.network, block.height, block.hash, computeStateRoot C run.ledger⟩ } := by
  rw [applyBlock, if_neg (Nat.not_lt.mpr ha)]
  simp only [bind_eq_ok, pure_eq_ok, Prod.mk.injEq]
  constructor
  · rintro ⟨run, hr, rfl, rfl⟩
    exact ⟨run, hr, rfl, rfl⟩
  · rintro ⟨run, hr, rfl, rfl⟩
    exact ⟨run, hr, rfl, rfl⟩

theorem applyBlock_below {σ σ' : V3IndexerState} {events : List V3Event}
    (hb : block.height < cfg.genesisHeight) (h : applyBlock C cfg σ block = .ok (σ', events)) :
    σ' = σ ∧ events = [] := by
  rw [applyBlock, if_pos hb] at h
  obtain ⟨hσ, he⟩ := Prod.mk.inj (Except.ok.inj h)
  exact ⟨hσ.symm, he.symm⟩

/-! What a whole block does, from what each of its transactions does. -/

/-- A block keeps the ledger's invariant, its recorded operations undo it, and its events
carry its height. -/
structure BlockFacts (C : Crypto) (cfg : V3IndexerConfig) (block : V3BlockInput) (before : Ledger)
    (seen : List Transaction) (run : BlockRun) : Prop where
  inv : LedgerInv C cfg (txidsOf C seen) run.ledger
  undo : undoOps run.ledger run.ops = before
  events_at : ∀ e ∈ run.events, e.blockHeight = block.height

theorem Outcome.events_at {σ : Ledger} {tx : Transaction} (o : Outcome C cfg block σ tx)
    (txIndex : Nat) : ∀ e ∈ o.events txIndex, e.blockHeight = block.height := by
  cases o <;> simp [Outcome.events, eventOf]

theorem applyTx_facts {pre post : List Transaction} {tx : Transaction} {before : Ledger}
    {txIndex : Nat} {run run' : BlockRun} (hc : ConsensusValid C (pre ++ tx :: post))
    (hf : BlockFacts C cfg block before pre run)
    (h : applyTx C cfg block txIndex tx run = .ok run') :
    BlockFacts C cfg block before (pre ++ [tx]) run' := by
  have hinv := applyTx_inv hf.inv hc.inputs hc.fresh h
  obtain ⟨o, rfl⟩ := applyTx_cases hc.inputs h
  refine ⟨by simpa [txidsOf] using hinv, ?_, ?_⟩
  · rw [Outcome.after, List.append_assoc, undoOps_append, o.undo hf.inv hc.inputs hc.fresh, hf.undo]
  · intro e he
    rcases List.mem_append.mp he with he | he
    · exact hf.events_at e he
    · exact o.events_at txIndex e he

theorem applyTxs_facts {base : List Transaction} {before : Ledger} {txs : List Transaction}
    {run : BlockRun} (hc : ConsensusValid C (base ++ txs))
    (hI : LedgerInv C cfg (txidsOf C base) before)
    (h : applyTxs C cfg block 0 txs ⟨before, [], []⟩ = .ok run) :
    BlockFacts C cfg block before (base ++ txs) run := by
  refine applyTxs_rule (fun done => BlockFacts C cfg block before (base ++ done)) ?_ hc
    ⟨by simpa using hI, rfl, by simp⟩ h
  intro done tx post txIndex run run' hc hf h
  rw [← List.append_assoc]
  exact applyTx_facts hc hf h

theorem chainTxs_append (chain : List V3BlockInput) (block : V3BlockInput) :
    chainTxs (chain ++ [block]) = chainTxs chain ++ block.txs := by
  simp [chainTxs]

/-! What holds after a clean replay. -/

/-- The cursor after the last block of a chain. -/
def cursorAt (C : Crypto) (cfg : V3IndexerConfig) (chain : List V3BlockInput) (σ : Ledger) :
    V3Cursor :=
  match chain.getLast? with
  | none => ⟨cfg.network, 0, [], computeStateRoot C σ⟩
  | some b => ⟨cfg.network, b.height, b.hash, computeStateRoot C σ⟩

structure StateInv (C : Crypto) (cfg : V3IndexerConfig) (chain : List V3BlockInput)
    (σ : V3IndexerState) : Prop where
  ledger : LedgerInv C cfg (txidsOf C (chainTxs chain)) σ.toLedger
  cursor : σ.cursor = cursorAt C cfg chain σ.toLedger
  active : ∀ b ∈ chain, cfg.genesisHeight ≤ b.height
  heights : ∀ last, chain.getLast? = some last → ∀ b ∈ chain, b.height ≤ last.height
  event_block : ∀ e ∈ σ.events, ∃ b ∈ chain, e.blockHeight = b.height
  undo_block : ∀ h u, σ.undoByHeight.get h = some u → ∃ b ∈ chain, h = b.height
  last_undo : ∀ last, chain.getLast? = some last →
    ∃ ops, σ.undoByHeight.get last.height = some ⟨last.height, last.hash, ops⟩

theorem StateInv.new (C : Crypto) (cfg : V3IndexerConfig) : StateInv C cfg [] (.new C cfg) := by
  refine ⟨LedgerInv.empty C cfg, rfl, ?_, ?_, ?_, ?_, ?_⟩ <;> simp [V3IndexerState.new]

/-- Every indexed block lies below the next one. -/
theorem StateInv.below {chain : List V3BlockInput} {σ : V3IndexerState}
    (hI : StateInv C cfg chain σ) (hb : ActiveBlock C cfg chain block) :
    ∀ b ∈ chain, b.height < block.height := by
  intro b hmem
  cases hlast : chain.getLast? with
  | none =>
    rw [List.getLast?_eq_none_iff.mp hlast] at hmem
    cases hmem
  | some last =>
    have h1 := hI.heights last hlast b hmem
    have h2 := hb.height last hlast
    omega

/-- The next block's height has no undo record yet. -/
theorem StateInv.no_undo {chain : List V3BlockInput} {σ : V3IndexerState}
    (hI : StateInv C cfg chain σ) (hb : ActiveBlock C cfg chain block) :
    σ.undoByHeight.get block.height = none := by
  by_contra hne
  obtain ⟨u, hu⟩ := Option.ne_none_iff_exists'.mp hne
  obtain ⟨b, hm, heq⟩ := hI.undo_block _ u hu
  have := hI.below hb b hm
  omega

theorem StateInv.step {chain : List V3BlockInput} {σ σ' : V3IndexerState} {events : List V3Event}
    (hI : StateInv C cfg chain σ) (hb : ActiveBlock C cfg chain block)
    (h : applyBlock C cfg σ block = .ok (σ', events)) : StateInv C cfg (chain ++ [block]) σ' := by
  have hbelow := hI.below hb
  have hc := hb.consensus
  rw [chainTxs_append] at hc
  obtain ⟨run, hrun, -, rfl⟩ := (applyBlock_eq_ok hb.active).mp h
  have hfacts := applyTxs_facts hc hI.ledger hrun
  constructor
  case ledger =>
    rw [chainTxs_append]
    exact hfacts.inv
  case cursor => simp [cursorAt]
  case active =>
    intro b hm
    rcases List.mem_append.mp hm with hm | hm
    · exact hI.active b hm
    · rw [List.mem_singleton.mp hm]
      exact hb.active
  case heights =>
    intro last hl b hm
    simp only [List.getLast?_append, List.getLast?_singleton, Option.some_or, Option.some.injEq] at hl
    subst hl
    rcases List.mem_append.mp hm with hm | hm
    · exact (hbelow b hm).le
    · rw [List.mem_singleton.mp hm]
  case event_block =>
    intro e he
    rcases List.mem_append.mp he with he | he
    · obtain ⟨b, hm, heq⟩ := hI.event_block e he
      exact ⟨b, List.mem_append_left _ hm, heq⟩
    · exact ⟨block, by simp, hfacts.events_at e he⟩
  case undo_block =>
    intro k u hu
    rw [Dict.get_set] at hu
    split at hu
    · exact ⟨block, by simp, by assumption⟩
    · obtain ⟨b, hm, heq⟩ := hI.undo_block k u hu
      exact ⟨b, List.mem_append_left _ hm, heq⟩
  case last_undo =>
    intro last hl
    simp only [List.getLast?_append, List.getLast?_singleton, Option.some_or, Option.some.injEq] at hl
    subst hl
    exact ⟨_, Dict.get_set_self _ _ _⟩

theorem Replays.inv {chain : List V3BlockInput} {σ : V3IndexerState} (h : Replays C cfg chain σ) :
    StateInv C cfg chain σ := by
  induction h with
  | new => exact .new C cfg
  | step _ hb h ih => exact ih.step hb h

/-- The last step of a replay. -/
theorem Replays.last_step {chain : List V3BlockInput} {σ : V3IndexerState}
    (h : Replays C cfg (chain ++ [block]) σ) :
    ∃ σ₀ events, Replays C cfg chain σ₀ ∧ ActiveBlock C cfg chain block ∧
      applyBlock C cfg σ₀ block = .ok (σ, events) := by
  generalize hl : chain ++ [block] = l at h
  cases h with
  | new => simp at hl
  | @step chain' σ₀ _ block' events hσ hb ha =>
    obtain ⟨rfl, hblock⟩ := List.append_inj' hl rfl
    obtain rfl := List.singleton_inj.mp hblock
    exact ⟨σ₀, events, hσ, hb, ha⟩

theorem Replays.eq_new {σ : V3IndexerState} (h : Replays C cfg [] σ) : σ = .new C cfg := by
  generalize hl : ([] : List V3BlockInput) = l at h
  cases h with
  | new => rfl
  | step => simp at hl

/-- A chain has one replay at most. -/
theorem Replays.unique {chain : List V3BlockInput} {σ σ' : V3IndexerState}
    (h : Replays C cfg chain σ) (h' : Replays C cfg chain σ') : σ = σ' := by
  induction h generalizing σ' with
  | new => exact h'.eq_new.symm
  | @step chain σ₀ _ block _ _ _ ha ih =>
    obtain ⟨σ₁, _, h₁, -, ha'⟩ := h'.last_step
    rw [ih h₁, ha', Except.ok.injEq] at ha
    exact (Prod.mk.inj ha).1.symm

theorem Replays.of_append {chain rest : List V3BlockInput} {σ : V3IndexerState}
    (hσ : Replays C cfg (chain ++ rest) σ) : ∃ σ₀, Replays C cfg chain σ₀ := by
  induction rest using List.reverseRecOn generalizing σ with
  | nil => exact ⟨σ, by simpa using hσ⟩
  | append_singleton rest block ih =>
    rw [← List.append_assoc] at hσ
    obtain ⟨σ₁, _, h₁, -, -⟩ := hσ.last_step
    exact ih h₁

/-- A replay passes through every beginning of its chain. -/
theorem Replays.through {chain rest : List V3BlockInput} {σ : V3IndexerState}
    (h : Replays C cfg (chain ++ block :: rest) σ) :
    ∃ σ₀ p, Replays C cfg chain σ₀ ∧ applyBlock C cfg σ₀ block = .ok p := by
  rw [List.append_cons] at h
  obtain ⟨σ₁, h₁⟩ := h.of_append
  obtain ⟨σ₀, _, h₀, -, ha⟩ := h₁.last_step
  exact ⟨σ₀, _, h₀, ha⟩

/-- Every indexed block has its undo record. -/
theorem Replays.undo_record {chain : List V3BlockInput} {σ : V3IndexerState}
    (h : Replays C cfg chain σ) : ∀ b ∈ chain,
    ∃ ops, σ.undoByHeight.get b.height = some ⟨b.height, b.hash, ops⟩ := by
  induction h with
  | new => simp
  | @step chain σ σ' block events hσ hb h ih =>
    have hbelow := hσ.inv.below hb
    obtain ⟨run, -, -, rfl⟩ := (applyBlock_eq_ok hb.active).mp h
    intro b hm
    dsimp only
    rcases List.mem_append.mp hm with hm | hm
    · have := hbelow b hm
      rw [Dict.get_set_ne _ _ (by omega)]
      exact ih b hm
    · rw [List.mem_singleton.mp hm]
      exact ⟨_, Dict.get_set_self _ _ _⟩

/-- The blocks applied one after the other to a new indexer. -/
def replay (C : Crypto) (cfg : V3IndexerConfig) :
    List V3BlockInput → V3IndexerState → Except Fault V3IndexerState
  | [], σ => .ok σ
  | block :: blocks, σ => do
    let (σ', _) ← applyBlock C cfg σ block
    replay C cfg blocks σ'

theorem replay_append {blocks : List V3BlockInput}
    {block : V3BlockInput} {σ σ₁ σ₂ : V3IndexerState} {events : List V3Event}
    (h : replay C cfg blocks σ = .ok σ₁) (ha : applyBlock C cfg σ₁ block = .ok (σ₂, events)) :
    replay C cfg (blocks ++ [block]) σ = .ok σ₂ := by
  induction blocks generalizing σ with
  | nil =>
    rw [replay, Except.ok.injEq] at h
    subst h
    simp [replay, ha]
  | cons b blocks ih =>
    simp only [replay, bind_eq_ok, Prod.exists] at h
    obtain ⟨σ', ev, hb, h⟩ := h
    simp only [List.cons_append, replay, bind_eq_ok, Prod.exists]
    exact ⟨σ', ev, hb, ih h⟩

theorem Replays.replay {chain : List V3BlockInput}
    {σ : V3IndexerState} (h : Replays C cfg chain σ) :
    replay C cfg chain (.new C cfg) = .ok σ := by
  induction h with
  | new => rfl
  | step _ _ ha ih => exact replay_append ih ha

/-! Undo is the inverse of apply. -/

theorem undoBlock_applyBlock {chain : List V3BlockInput} {σ σ' : V3IndexerState}
    {events : List V3Event} (hI : StateInv C cfg chain σ) (hb : ActiveBlock C cfg chain block)
    (h : applyBlock C cfg σ block = .ok (σ', events)) : undoBlock C cfg σ' block.height = .ok σ := by
  have hbelow := hI.below hb
  have hc := hb.consensus
  rw [chainTxs_append] at hc
  obtain ⟨run, hrun, -, rfl⟩ := (applyBlock_eq_ok hb.active).mp h
  have hfacts := applyTxs_facts hc hI.ledger hrun
  have hledger : run.ops.reverse.foldl undoOp run.ledger = σ.toLedger := hfacts.undo
  have hnone := hI.no_undo hb
  have hevents : (σ.events ++ run.events).filter (fun e => e.blockHeight ≠ block.height) =
      σ.events := by
    rw [List.filter_append, List.filter_eq_self.mpr, List.filter_eq_nil_iff.mpr, List.append_nil]
    · intro e he
      simpa using hfacts.events_at e he
    · intro e he
      obtain ⟨b, hm, heq⟩ := hI.event_block e he
      have := hbelow b hm
      exact decide_eq_true (by omega)
  have hcursor : (σ.undoByHeight.get (block.height - 1)).elim
      (⟨cfg.network, 0, [], computeStateRoot C σ.toLedger⟩ : V3Cursor)
      (fun prior => ⟨cfg.network, block.height - 1, prior.blockHash,
        computeStateRoot C σ.toLedger⟩) = σ.cursor := by
    rw [hI.cursor, cursorAt]
    cases hlast : chain.getLast? with
    | none =>
      have hempty : σ.undoByHeight.get (block.height - 1) = none := by
        by_contra hne
        obtain ⟨u, hu⟩ := Option.ne_none_iff_exists'.mp hne
        obtain ⟨b, hm, -⟩ := hI.undo_block _ u hu
        rw [List.getLast?_eq_none_iff.mp hlast] at hm
        cases hm
      rw [hempty, Option.elim_none]
    | some last =>
      obtain ⟨ops, hu⟩ := hI.last_undo last hlast
      have hh : block.height - 1 = last.height := by
        rw [hb.height last hlast]
        rfl
      rw [hh, hu, Option.elim_some]
  simp only [undoBlock, Dict.get_set_self, demand, bind, Except.bind, pure, Except.pure,
    Dict.delete_back hnone, hledger, hevents]
  cases hprior : σ.undoByHeight.get (block.height - 1) with
  | none =>
    rw [hprior] at hcursor
    exact congrArg (fun c => Except.ok { σ with cursor := c }) hcursor
  | some prior =>
    rw [hprior] at hcursor
    exact congrArg (fun c => Except.ok { σ with cursor := c }) hcursor

/-- Undoing the last block of a replay gives the replay of the others. -/
theorem Replays.undo_last {chain : List V3BlockInput} {σ : V3IndexerState}
    (h : Replays C cfg (chain ++ [block]) σ) :
    ∃ σ₀, Replays C cfg chain σ₀ ∧ undoBlock C cfg σ block.height = .ok σ₀ := by
  obtain ⟨σ₀, _, hσ, hb, ha⟩ := h.last_step
  exact ⟨σ₀, hσ, undoBlock_applyBlock hσ.inv hb ha⟩

/-- Undoing blocks never leads outside what clean replays build. -/
theorem Reachable.replays {chain : List V3BlockInput} {σ : V3IndexerState}
    (h : Reachable C cfg chain σ) : Replays C cfg chain σ := by
  induction h with
  | new => exact .new
  | apply _ hb h ih => exact ih.step hb h
  | ignore _ hb h ih =>
    rw [(applyBlock_below hb h).1]
    exact ih
  | undo _ h ih =>
    obtain ⟨σ₀, hσ₀, hu⟩ := ih.undo_last
    rw [h, Except.ok.injEq] at hu
    rw [hu]
    exact hσ₀

theorem Replays.reachable {chain : List V3BlockInput} {σ : V3IndexerState}
    (hσ : Replays C cfg chain σ) : Reachable C cfg chain σ := by
  induction hσ with
  | new => exact .new
  | step _ hb happly ih => exact .apply ih hb happly

theorem Reachable.inv {chain : List V3BlockInput} {σ : V3IndexerState}
    (h : Reachable C cfg chain σ) : StateInv C cfg chain σ := h.replays.inv

/-- Undo of the next block restores every reachable state: the three maps, the
events, the undo records and the cursor. -/
theorem undo_restores_state {chain : List V3BlockInput} {σ σ' : V3IndexerState}
    {events : List V3Event} (hσ : Reachable C cfg chain σ) (hb : ActiveBlock C cfg chain block)
    (h : applyBlock C cfg σ block = .ok (σ', events)) : undoBlock C cfg σ' block.height = .ok σ :=
  undoBlock_applyBlock hσ.inv hb h

end

/-! A sample chain: a token is deployed, and a lot of it is minted. -/

instance (C : Crypto) (chain : List V3BlockInput) (block : V3BlockInput) :
    Decidable (NextBlock C chain block) :=
  decidable_of_iff ((∀ last ∈ chain.getLast?, block.height = last.height + 1) ∧
      block.hash.length = 32 ∧ ConsensusValid C (chainTxs (chain ++ [block])))
    ⟨fun h => ⟨h.1, h.2.1, h.2.2⟩, fun h => ⟨h.height, h.hash, h.consensus⟩⟩

instance (C : Crypto) (cfg : V3IndexerConfig) (chain : List V3BlockInput) (block : V3BlockInput) :
    Decidable (ActiveBlock C cfg chain block) :=
  decidable_of_iff (NextBlock C chain block ∧ cfg.genesisHeight ≤ block.height)
    ⟨fun h => ⟨h.1, h.2⟩, fun h => ⟨h.toNextBlock, h.active⟩⟩

/-- SHA-256 itself, and the curve points of the sample vaults. -/
def sampleCrypto : Crypto where
  sha256 := Sha256.sha256
  isXOnlyPoint key := key =
    Bytes.ofNatBE 32 0x79be667ef9dcbbac55a06295ce870b07029bfcdb2dce28d959f2815b16f81798
  xOnlyPointAddTweak key tweak := if key = coveNumsXOnly then [
    (Bytes.ofNatBE 32 0xc4350546920fa089e9aa61820ce6a7ec91be6ea109e94fc45647fa4f80498364,
      Bytes.ofNatBE 32 0x3b2ea14dcc9260b18a219610e75006be2ce317c426b0f58b771b035903355915, 0),
    (Bytes.ofNatBE 32 0x25a12f60bc4620b9fedba571335f8eed665e701601e39ba49b7886e682e7f493,
      Bytes.ofNatBE 32 0x6d5491b82e09697c7594de0d54549e3aee3ff2a1dd982b6416e4edba1ed340df, 1),
    (Bytes.ofNatBE 32 0x4b3708ff63340753e6933aac1fd18aa52ea7657f8b59cf699955ad3095b45c71,
      Bytes.ofNatBE 32 0x4807ed00386dc76249da2c05d0973c81fd411b12ac111c6976175c59f0df326d, 1),
    (Bytes.ofNatBE 32 0x63a28bec5ed2c330d1600494ac32b72c1a006d57601318e2df882305ae63fb14,
      Bytes.ofNatBE 32 0x05695141fe5dcc3eb51cf83c710b2c668097ef1082059f773e1c45963de08fc9,
      0)].lookup tweak else none

def sampleConfig : V3IndexerConfig where
  network := .regtest
  chainIdentity :=
    Bytes.ofNatBE 32 0x0f9188f13cb7b2c71f2a335e3a4fc328bf5beb436012afca590b1a11466e2206
  guardianXOnly :=
    Bytes.ofNatBE 32 0x79be667ef9dcbbac55a06295ce870b07029bfcdb2dce28d959f2815b16f81798
  recoveryKeyXOnly :=
    Bytes.ofNatBE 32 0xc6047f9441ed7d6d3045406e95c07cd85c778e4b8cef3ca7abac09b95c709ee5
  recoveryProfile := none
  feeScript := 0x00 :: 0x14 :: List.replicate 20 0xfe
  genesisHeight := 1
  buyFeeBps := none
  buyFeeFlatSats := none
  creatorFeeBps := none
  redeemFeeBps := none
  redeemFeeFlatSats := none

def sampleCreator : Bytes := 0x00 :: 0x14 :: List.replicate 20 0xcc

def sampleOwner : Bytes := 0x00 :: 0x14 :: List.replicate 20 0xaa

def opReturnScript (payload : Bytes) : Bytes := 0x6a :: UInt8.ofNat payload.length :: payload

theorem length_opReturnScript (payload : Bytes) :
    (opReturnScript payload).length = 2 + payload.length := by
  rw [opReturnScript, List.length_cons, List.length_cons]
  omega

/-- The length byte tells a payload of fewer than 256 bytes. -/
theorem opReturnScript_push {payload : Bytes} (h : payload.length < 256) :
    ((opReturnScript payload).getD 1 0).toNat = payload.length := by
  show (UInt8.ofNat payload.length).toNat = _
  rw [UInt8.toNat_ofNat', Nat.mod_eq_of_lt h]

def alphaId : Bytes :=
  Bytes.ofNatBE 32 0x704eddf1405874da4e94bb758026e37897219dc4cf7e78d125cfbf5c48517efa

/-- A deploy of the ticker, with the key of its first vault and the funding transaction's byte. -/
def sampleDeploy (ticker vaultKey : Bytes) (fund : UInt8) : Transaction where
  ins := [{ hash := List.replicate 32 fund, index := 0 }]
  outs := [
    ⟨opReturnScript (Bytes.ofHex "43560201" ++ [3, UInt8.ofNat ticker.length] ++ ticker ++
      List.replicate 32 7), 0⟩,
    ⟨0x51 :: 0x20 :: vaultKey, 10000⟩,
    ⟨sampleCreator, 1000⟩]

/-- A mint of one lot that spends the vault of a deploy. -/
def sampleMint (tokenId vaultKey : Bytes) (deploy : Transaction) (fund : UInt8) : Transaction where
  ins := [
    { hash := (deploy.getId sampleCrypto).reverse, index := 1 },
    { hash := List.replicate 32 fund, index := 0 }]
  outs := [
    ⟨opReturnScript (Bytes.ofHex "43560203" ++ tokenId ++ Bytes.ofNatBE 8 100000000000 ++ [2]), 0⟩,
    ⟨0x51 :: 0x20 :: vaultKey, 10027⟩,
    ⟨sampleOwner, 1000⟩,
    ⟨sampleConfig.feeScript, 5013⟩,
    ⟨sampleCreator, 546⟩]

def alphaDeploy : Transaction := sampleDeploy (Bytes.ascii "ALPHA")
  (Bytes.ofNatBE 32 0x3b2ea14dcc9260b18a219610e75006be2ce317c426b0f58b771b035903355915) 1

def alphaMint : Transaction := sampleMint alphaId
  (Bytes.ofNatBE 32 0x6d5491b82e09697c7594de0d54549e3aee3ff2a1dd982b6416e4edba1ed340df)
  alphaDeploy 3

def deployBlock : V3BlockInput :=
  ⟨1, List.replicate 32 0xb1, List.replicate 32 0xb0, [alphaDeploy]⟩

def mintBlock : V3BlockInput :=
  ⟨2, List.replicate 32 0xb2, List.replicate 32 0xb1, [alphaMint]⟩

/-- One evaluation of the chain for all that is used of it. -/
theorem sample_run : (ActiveBlock sampleCrypto sampleConfig [] deployBlock ∧
      ActiveBlock sampleCrypto sampleConfig [deployBlock] mintBlock) ∧
    ((replay sampleCrypto sampleConfig [deployBlock, mintBlock]
      (.new sampleCrypto sampleConfig)).toOption.any fun σ => σ.tokens.has alphaId) = true := by
  decide +kernel

theorem deployBlock_active : ActiveBlock sampleCrypto sampleConfig [] deployBlock :=
  sample_run.1.1

theorem mintBlock_active : ActiveBlock sampleCrypto sampleConfig [deployBlock] mintBlock :=
  sample_run.1.2

/-- Both blocks are taken, and the token is known afterwards. -/
theorem sample_applies : ∃ σ₁ σ₂ events₁ events₂ tokenMeta,
    applyBlock sampleCrypto sampleConfig (.new sampleCrypto sampleConfig) deployBlock =
      .ok (σ₁, events₁) ∧
    applyBlock sampleCrypto sampleConfig σ₁ mintBlock = .ok (σ₂, events₂) ∧
    σ₂.tokens.get alphaId = some tokenMeta := by
  obtain ⟨σ₂, hσ₂, hhas⟩ := (Option.any_eq_true _ _).mp sample_run.2
  obtain ⟨tokenMeta, hmeta⟩ := Dict.has_iff.mp hhas
  rw [toOption_eq_some] at hσ₂
  simp only [replay, bind_eq_ok, Prod.exists, Except.ok.injEq] at hσ₂
  obtain ⟨σ₁, events₁, h₁, σ, events₂, h₂, rfl⟩ := hσ₂
  exact ⟨σ₁, σ, events₁, events₂, tokenMeta, h₁, h₂, hmeta⟩

theorem sample_reachable : ∃ σ tokenMeta,
    Reachable sampleCrypto sampleConfig [deployBlock, mintBlock] σ ∧
      σ.tokens.get alphaId = some tokenMeta := by
  obtain ⟨σ₁, σ₂, _, _, tokenMeta, h₁, h₂, hmeta⟩ := sample_applies
  exact ⟨σ₂, tokenMeta, .apply (.apply .new deployBlock_active h₁) mintBlock_active h₂, hmeta⟩

theorem undo_restores_sample : ∃ σ σ' events, Reachable sampleCrypto sampleConfig [deployBlock] σ ∧
    applyBlock sampleCrypto sampleConfig σ mintBlock = .ok (σ', events) ∧
    undoBlock sampleCrypto sampleConfig σ' 2 = .ok σ := by
  obtain ⟨σ₁, σ₂, events₁, events₂, -, h₁, h₂, -⟩ := sample_applies
  have hσ₁ : Reachable sampleCrypto sampleConfig [deployBlock] σ₁ :=
    .apply .new deployBlock_active h₁
  exact ⟨σ₁, σ₂, events₂, hσ₁, h₂, undo_restores_state hσ₁ mintBlock_active h₂⟩

end Cove
