import Cove.Indexer.Reorg

/-! Runs of worker ticks while the best chain moves. The indexed chain stays one chain as long
as every block taken names the indexed tip as its parent; the worker never checks that it does. -/

namespace Cove

open Checked

/-- The block names the tip it was put on as its parent, or nothing was indexed. -/
def Linked (e : V3Cursor × V3BlockInput) : Prop :=
  e.1.blockHash = [] ∨ e.2.parentHash = e.1.blockHash

instance (e : V3Cursor × V3BlockInput) : Decidable (Linked e) :=
  inferInstanceAs (Decidable (_ ∨ _))

def AllLinked (w : World) : Prop := ∀ e ∈ w.applied, Linked e

/-- The index holds the beginning of some valid chain. -/
def OneChain (C : Crypto) (cfg : V3IndexerConfig) (source : Bytes → Option CoreBlock)
    (σ : V3IndexerState) (db : Db) : Prop := ∃ blocks h, Upto C cfg source blocks h σ db

/-- The index goes on at a height. -/
def Ready (C : Crypto) (cfg : V3IndexerConfig) (source : Bytes → Option CoreBlock) (h : Nat)
    (σ : V3IndexerState) (db : Db) : Prop := ∃ blocks, Upto C cfg source blocks h σ db

theorem AllLinked.history : History AllLinked :=
  ⟨fun _ h => h, fun _ _ _ _ h e he => h e (List.mem_append_left _ he), fun _ _ _ h => h⟩

section Safe

variable {C : Crypto} {cfg : V3IndexerConfig} {node : CoreNode}

theorem Ready.oneChain {h : Nat} (σ : V3IndexerState) (db : Db) (hr : Ready C cfg node.block h σ db) :
    OneChain C cfg node.block σ db := by
  obtain ⟨blocks, hu⟩ := hr
  exact ⟨blocks, h, hu⟩

theorem OneChain.ready (σ : V3IndexerState) (db : Db) (ho : OneChain C cfg node.block σ db) :
    Ready C cfg node.block (max (σ.cursor.height + 1) cfg.genesisHeight) σ db := by
  obtain ⟨blocks, h, hu⟩ := ho
  rw [hu.next]
  exact ⟨blocks, hu⟩

/-- A linked block of another chain shows that chain to be the indexed one. -/
theorem Upto.link {blocks best : List CoreBlock} {h : Nat} {σ : V3IndexerState} {db : Db}
    (hu : Upto C cfg node.block blocks h σ db) (hv : ValidChain C cfg node.block best) {b : CoreBlock}
    (hb : best[h]? = some b) (hl : Linked (σ.cursor, inputAt h b)) :
    Upto C cfg node.block best h σ db := by
  rcases Nat.eq_or_lt_of_le hu.start_le with heq | hlt
  · subst heq
    exact hu.transfer_start hv
  · obtain ⟨last, hlast, -, hhash⟩ := hu.cursor_last hlt
    obtain ⟨k, rfl⟩ : ∃ k, h = k + 1 := ⟨h - 1, by omega⟩
    rw [Nat.add_sub_cancel] at hlast
    have hk : k < best.length := by
      have := (List.getElem?_eq_some_iff.mp hb).1
      omega
    have hp := List.getElem?_eq_getElem hk
    have hparent : b.previousBlockHash = last.hash := by
      rcases hl with hnil | hparent
      · have hlen := hu.valid.hash last (List.mem_of_getElem? hlast)
        rw [← hhash, hnil] at hlen
        cases hlen
      · exact hparent.trans hhash
    exact hu.transfer hv (hu.valid.agree hv hlast hp (hparent.symm.trans (hv.linked k _ _ hp hb)))

theorem getBlockchainInfo_any {A : World → Prop} (hA : History A)
    {P : V3IndexerState → Db → Prop} {R : World → Prop} :
    Triple (Under A P) (getBlockchainInfo node) (fun _ => Under A P) R :=
  fun w hw ha => hw (hA.call w ha)

theorem getBlockHash_any {A : World → Prop} (hA : History A) {P : V3IndexerState → Db → Prop}
    (h : Nat) : Triple (Under A P) (getBlockHash node h)
      (fun hash w => (∃ k b, (node.best k)[h]? = some b ∧ b.hash = hash) ∧ Under A P w)
      (Under A P) := by
  intro w hw
  unfold getBlockHash
  cases hb : (node.best w.calls)[h]? with
  | some b => exact ⟨⟨w.calls, b, hb, rfl⟩, fun ha => hw (hA.call w ha)⟩
  | none => exact fun ha => hw (hA.call w ha)

variable (hnode : ∀ k, ValidChain C cfg node.block (node.best k))

include hnode

theorem stageBlock_linked {h : Nat} (rebuilding : Bool) {k : Nat} {b : CoreBlock}
    (hb : (node.best k)[h]? = some b) :
    Triple (Under AllLinked (Ready C cfg node.block h)) (stageBlock C cfg (inputAt h b) rebuilding)
      (fun _ => Under AllLinked (Ready C cfg node.block (h + 1)))
      (Under AllLinked (OneChain C cfg node.block)) := by
  intro w hw
  rcases stageBlock_cases C cfg (inputAt h b) rebuilding w with
    ⟨f, hf⟩ | ⟨staged, events, undo, db', happ, hundo, hp, hok⟩
  · rw [hf]
    exact Under.mono Ready.oneChain w hw
  · rw [hok]
    intro ha
    obtain ⟨blocks, hu⟩ := hw (AllLinked.history.adopt _ _ _ _ ha)
    have hlink : Linked (w.state.cursor, inputAt h b) := ha _ (by simp)
    obtain ⟨undo', db'', hundo', hp', hupto⟩ :=
      (hu.link (hnode k) hb hlink).stage hb rebuilding happ
    obtain rfl : undo' = undo := Option.some.inj (hundo'.symm.trans hundo)
    obtain rfl : db'' = db' := Except.ok.inj (hp'.symm.trans hp)
    exact ⟨node.best k, hupto⟩

theorem fetch_linked {h : Nat} (rebuilding : Bool) {hash : Bytes}
    (hb : ∃ k b, (node.best k)[h]? = some b ∧ b.hash = hash) :
    Triple (Under AllLinked (Ready C cfg node.block h))
      (do
        let block ← getBlock node hash
        stageBlock C cfg (inputAt h block) rebuilding)
      (fun _ => Under AllLinked (Ready C cfg node.block (h + 1)))
      (Under AllLinked (OneChain C cfg node.block)) := by
  obtain ⟨k, b, hget, rfl⟩ := hb
  have hknown := (hnode k).known b (List.mem_of_getElem? hget)
  have hread : Triple (Under AllLinked (Ready C cfg node.block h)) (getBlock node b.hash)
      (fun block w => block = b ∧ Under AllLinked (Ready C cfg node.block h) w)
      (Under AllLinked (OneChain C cfg node.block)) := by
    intro w hw
    unfold getBlock
    rw [hknown]
    exact ⟨rfl, hw⟩
  refine Triple.bind hread fun block => Triple.of_fact ?_
  rintro rfl
  exact stageBlock_linked hnode rebuilding hget

theorem indexBlock_linked (rebuilding : Bool) (h : Nat) :
    Triple (Under AllLinked (Ready C cfg node.block h)) (indexBlock C cfg node rebuilding h)
      (fun _ => Under AllLinked (Ready C cfg node.block (h + 1)))
      (Under AllLinked (OneChain C cfg node.block)) := by
  unfold indexBlock
  refine Triple.bind ((getBlockHash_any AllLinked.history h).consequence (fun _ h => h)
    (fun _ _ h => h) (Under.mono Ready.oneChain)) fun hash => Triple.of_fact fun hb =>
    Triple.bind indexerState_triple fun state => ?_
  refine Triple.ite (fun hc => Triple.pure fun w hw ha => ?_) fun _ =>
    (fetch_linked hnode rebuilding hb).strengthen (Under.mono fun _ _ h => h.1)
  obtain ⟨⟨blocks, hu⟩, rfl⟩ := hw ha
  rw [hu.no_undo (le_refl h)] at hc
  cases hc

theorem indexBlocks_linked (rebuilding : Bool) (h n : Nat) :
    Triple (Under AllLinked (Ready C cfg node.block h)) (indexBlocks C cfg node rebuilding h n)
      (fun _ => Under AllLinked (OneChain C cfg node.block))
      (Under AllLinked (OneChain C cfg node.block)) := by
  induction n generalizing h with
  | zero => exact Triple.pure (Under.mono Ready.oneChain)
  | succ n ih =>
    unfold indexBlocks
    exact Triple.bind (indexBlock_linked hnode rebuilding h) fun _ => ih (h + 1)

theorem persistentWorker_linked (rebuilding : Bool) :
    Triple (Under AllLinked (OneChain C cfg node.block)) (persistentWorker C cfg node rebuilding)
      (fun _ => Under AllLinked (OneChain C cfg node.block))
      (Under AllLinked (OneChain C cfg node.block)) := by
  unfold persistentWorker
  refine Triple.bind (getBlockchainInfo_any AllLinked.history) fun tip =>
    Triple.bind indexerState_triple fun state =>
      (indexBlocks_linked hnode rebuilding _ _).strengthen (Under.mono ?_)
  rintro σ db ⟨ho, rfl⟩
  exact OneChain.ready σ db ho

omit hnode in
theorem findAncestor_any {A : World → Prop} (hA : History A) {P : V3IndexerState → Db → Prop}
    (floor a : Nat) : Triple (Under A P) (findAncestor node floor a)
      (fun r w => (r ≤ a ∧ (floor ≤ a → floor ≤ r)) ∧ Under A P w) (Under A P) := by
  induction a with
  | zero => exact Triple.pure fun w hw => ⟨⟨le_refl _, fun h => h⟩, hw⟩
  | succ a ih =>
    unfold findAncestor
    refine Triple.ite (fun _ => Triple.pure fun w hw => ⟨⟨le_refl _, fun h => h⟩, hw⟩) fun hgt =>
      Triple.bind (getBlockHash_any hA (a + 1)) fun hash => Triple.of_fact fun _ =>
        Triple.bind indexerState_triple fun state => ?_
    refine Triple.ite (fun _ => Triple.pure fun w hw => ⟨⟨le_refl _, fun h => h⟩,
      Under.mono (fun _ _ h => h.1) w hw⟩) fun _ => ih.consequence
        (Under.mono fun _ _ h => h.1) (fun r w hw => ⟨⟨?_, fun _ => hw.1.2 (by omega)⟩, hw.2⟩)
        fun _ h => h
    have := hw.1.1
    omega

theorem replayBlocks_linked (h n : Nat) :
    Triple (Under AllLinked (Ready C cfg node.block h)) (replayBlocks C cfg node h n)
      (fun _ => Under AllLinked (OneChain C cfg node.block))
      (Under AllLinked (OneChain C cfg node.block)) := by
  induction n generalizing h with
  | zero => exact Triple.pure (Under.mono Ready.oneChain)
  | succ n ih =>
    unfold replayBlocks replayBlock
    refine Triple.bind (Triple.bind ((getBlockHash_any AllLinked.history h).consequence
      (fun _ h => h) (fun _ _ h => h) (Under.mono Ready.oneChain)) fun hash =>
      Triple.of_fact fun hb => fetch_linked hnode false hb) fun _ => ih (h + 1)

omit hnode in
/-- Orphaning leaves a shorter beginning of the same chain. -/
theorem orphanBlocks_linked {a c : Nat} (hfl : reorgFloor cfg ≤ a)
    (hle : a ≤ max c (reorgFloor cfg)) :
    Triple (Under AllLinked fun σ db => OneChain C cfg node.block σ db ∧ σ.cursor.height = c)
      (orphanBlocks C cfg a c) (fun _ => Under AllLinked (Ready C cfg node.block (a + 1)))
      (Under AllLinked (OneChain C cfg node.block)) := by
  intro w hw
  obtain ⟨blocks, hb⟩ := Under.exists (P := fun blocks σ db =>
    Upto C cfg node.block blocks (max (c + 1) (startHeight cfg)) σ db) w (fun ha => by
      obtain ⟨⟨blocks, h, hu⟩, hc⟩ := hw ha
      have hnext := hu.next
      have hs := hu.start_le
      refine ⟨blocks, ?_⟩
      rwa [show max (c + 1) (startHeight cfg) = h by
        have hgen : cfg.genesisHeight ≤ startHeight cfg := by
          unfold startHeight
          omega
        omega])
  exact (orphanBlocks_triple AllLinked.history node blocks a c (K := True)).consequence
    (fun _ h => h) (fun _ => Under.mono fun _ _ h => ⟨blocks, h.1⟩) (fun _ h => h) w
    fun ha => ⟨⟨hb ha, hfl, hle⟩, trivial⟩

theorem reorg_linked :
    Triple (Under AllLinked (OneChain C cfg node.block)) (reorgPersistentToTip C cfg node)
      (fun _ => Under AllLinked (OneChain C cfg node.block))
      (Under AllLinked (OneChain C cfg node.block)) := by
  unfold reorgPersistentToTip
  refine Triple.bind (getBlockchainInfo_any AllLinked.history) fun tip =>
    Triple.bind indexerState_triple fun state =>
      Triple.bind ((findAncestor_any AllLinked.history _ _).consequence
        (fun _ h => h) (fun _ _ h => h) (Under.mono fun _ _ h => h.1)) fun a =>
        Triple.of_fact fun ha => Triple.bind ((orphanBlocks_linked (ha.2 (by omega))
          (by have := ha.1; omega)).strengthen (Under.mono ?_)) fun _ =>
            replayBlocks_linked hnode _ _
  rintro σ db ⟨ho, rfl⟩
  exact ⟨ho, rfl⟩

theorem checkReorg_linked :
    Triple (Under AllLinked (OneChain C cfg node.block)) (checkReorg C cfg node)
      (fun _ => Under AllLinked (OneChain C cfg node.block))
      (Under AllLinked (OneChain C cfg node.block)) := by
  unfold checkReorg
  refine Triple.bind (getBlockchainInfo_any AllLinked.history) fun tip =>
    Triple.bind indexerState_triple fun state => ?_
  refine Triple.ite (fun _ => ?_) fun _ => Triple.pure (Under.mono fun _ _ h => h.1)
  refine Triple.bind ((getBlockHash_any AllLinked.history _).consequence
    (Under.mono fun _ _ h => h.1) (fun _ _ h => h) fun _ h => h) fun hash =>
      Triple.of_fact fun _ => Triple.ite (fun _ => reorg_linked hnode) fun _ => ?_
  exact Triple.pure fun _ h => h

theorem tickBody_linked :
    Triple (Under AllLinked (OneChain C cfg node.block)) (tickBody C cfg node)
      (fun _ => Under AllLinked (OneChain C cfg node.block))
      (Under AllLinked (OneChain C cfg node.block)) :=
  Triple.bind (checkReorg_linked hnode) fun _ => persistentWorker_linked hnode false

theorem tick_linked (w : World) (hw : Under AllLinked (OneChain C cfg node.block) w) :
    Under AllLinked (OneChain C cfg node.block) (tick C cfg node w) := by
  have hbody := tickBody_linked hnode w.newTick hw
  unfold tick
  cases hrun : tickBody C cfg node w.newTick with
  | ok a w' =>
    rw [hrun] at hbody
    exact hbody
  | error f w' =>
    rw [hrun] at hbody
    exact hbody

omit hnode in
/-- Along every run the index stays the beginning of one chain, as long as the blocks link. -/
theorem ticks_linked {core : CoreHistory}
    (hcore : ∀ n k, ValidChain C cfg core.block (core.best n k)) (n : Nat) (w : World)
    (hw : Under AllLinked (OneChain C cfg core.block) w) :
    Under AllLinked (OneChain C cfg core.block) (ticks C cfg core n w) := by
  induction n with
  | zero => exact hw
  | succ n ih => exact tick_linked (hcore n) _ ih

end Safe

/-! A tick against a best chain that stays put. -/

section StaticTick

variable {C : Crypto} {cfg : V3IndexerConfig} {node : CoreNode} {A : World → Prop}
  {best : List CoreBlock} (hA : History A)
  (hbest : ∀ w : World, A w.call → node.best w.calls = best)

include hA hbest

/-- After the first part of a tick the index lies on the best chain, or beyond its tip. -/
theorem checkReorg_static (blocks : List CoreBlock) (h : Nat) (hv : ValidChain C cfg node.block best) :
    Triple (Under A (Upto C cfg node.block blocks h)) (checkReorg C cfg node)
      (fun _ => Under A fun σ db => ∃ p : List CoreBlock × Nat, Upto C cfg node.block p.1 p.2 σ db ∧
        (p.2 ≤ best.length → p.1 = best))
      (fun _ => True) := by
  have hlen : 0 < best.length := List.length_pos_of_ne_nil hv.nonempty
  unfold checkReorg
  refine Triple.bind (getBlockchainInfo_static hA hbest) fun tip =>
    Triple.bind indexerState_triple fun state => ?_
  refine Triple.ite (fun hc => ?_) fun hc => Triple.pure (Under.mono ?_)
  · refine Triple.bind ((getBlockHash_static hA hbest state.cursor.height).consequence
      (fun _ h => h) (fun _ _ h => h) fun _ _ => trivial) fun hash => ?_
    refine Triple.ite (fun _ => ?_) fun hmatch => Triple.pure (Under.mono ?_)
    · exact (reorg_static hA hbest blocks h).consequence
        (Under.mono fun _ _ hp => ⟨hp.1.1.1, hv⟩)
          (fun _ => Under.mono fun _ _ hp => ⟨(best, _), hp, fun _ => rfl⟩)
        fun _ _ => trivial
    · rintro σ db ⟨⟨⟨hu, -⟩, rfl⟩, b', hb', hhash⟩
      have hlt : startHeight cfg < h := by
        rcases Nat.eq_or_lt_of_le hu.start_le with heq | hlt
        · rw [(hu.cursor_start heq.symm).1] at hc
          omega
        · exact hlt
      obtain ⟨b, hb, hheight, hcur⟩ := hu.cursor_last hlt
      rw [hheight] at hb'
      have heq : b.hash = b'.hash := by
        rw [← hcur, hhash]
        exact (not_not.mp hmatch).symm
      have htake := hu.valid.agree hv hb hb' heq
      rw [show h - 1 + 1 = h by omega] at htake
      exact ⟨(best, h), hu.transfer hv htake, fun _ => rfl⟩
  · rintro σ db ⟨⟨hu, htip⟩, rfl⟩
    rcases Nat.eq_or_lt_of_le hu.start_le with heq | hlt
    · subst heq
      exact ⟨(best, _), hu.transfer_start hv, fun _ => rfl⟩
    · obtain ⟨b, -, hheight, -⟩ := hu.cursor_last hlt
      have hs : 1 ≤ startHeight cfg := by
        unfold startHeight
        omega
      exact ⟨(blocks, h), hu, fun hle => absurd hle (by dsimp only; omega)⟩

omit hA hbest in
/-- What the index holds below its next height, it holds up to its cursor. -/
theorem Upto.at_cursor {blocks : List CoreBlock} {h : Nat} {σ : V3IndexerState} {db : Db}
    (hu : Upto C cfg node.block blocks h σ db) :
    HoldsChain C cfg (blocks.take (σ.cursor.height + 1)) σ db := by
  rcases Nat.eq_or_lt_of_le hu.start_le with heq | hlt
  · subst heq
    obtain ⟨db₀, hi, hsame⟩ := hu.holds
    rw [segment_take_start] at hi
    refine ⟨db₀, ?_, hsame⟩
    rwa [(hu.cursor_start rfl).1, segment_short]
    rw [List.length_take]
    unfold startHeight
    omega
  · obtain ⟨b, -, hheight, -⟩ := hu.cursor_last hlt
    rw [hheight, show h - 1 + 1 = h by omega]
    exact hu.holds

theorem tickBody_static (blocks : List CoreBlock) (h : Nat) (hv : ValidChain C cfg node.block best) :
    Triple (Under A (Upto C cfg node.block blocks h)) (tickBody C cfg node)
      (fun _ => Under A fun σ db => σ.cursor.height < best.length →
        HoldsChain C cfg (best.take (σ.cursor.height + 1)) σ db)
      (fun _ => True) := by
  refine Triple.bind (checkReorg_static hA hbest blocks h hv) fun _ => ?_
  intro w hw
  obtain ⟨p, hp⟩ := Under.exists w hw
  refine (persistentWorker_static hA hbest p.1 false p.2 hv.nonempty).consequence (fun _ h => h)
    (fun _ => Under.mono ?_) (fun _ _ => trivial) w hp
  rintro σ db ⟨hu, hp⟩ hlt
  by_cases hle : p.2 ≤ best.length
  · rw [hp hle] at hu
    exact hu.at_cursor
  · -- The index ends beyond the tip: only an empty one has its cursor below it.
    rcases Nat.eq_or_lt_of_le hu.start_le with heq | hgt
    · rw [← heq] at hu
      exact (hu.transfer_start hv).at_cursor
    · obtain ⟨b, -, hheight, -⟩ := hu.cursor_last hgt
      omega

end StaticTick

/-- What every call answered so far was read from one chain. -/
def Answered (node : CoreNode) (best : List CoreBlock) (w : World) : Prop :=
  ∀ k < w.calls, node.best k = best

theorem Answered.history (node : CoreNode) (best : List CoreBlock) :
    History (Answered node best) :=
  ⟨fun _ h k hk => h k (Nat.lt_succ_of_lt hk), fun _ _ _ _ h => h, fun _ _ _ h => h⟩

/-- A run of ticks heals: as long as every block taken so far named the indexed tip as its parent,
a tick that completes against one best chain leaves the clean replay of it to the cursor. -/
theorem self_healing {C : Crypto} {cfg : V3IndexerConfig} {core : CoreHistory}
    (hcore : ∀ n k, ValidChain C cfg core.block (core.best n k)) {start : List CoreBlock}
    (hstart : ValidChain C cfg core.block start) {w₀ w' : World}
    (hw₀ : HoldsChain C cfg start w₀.state w₀.db) (n : Nat)
    (hlinked : ∀ e ∈ (ticks C cfg core n w₀).applied, Linked e)
    (hdone : tickBody C cfg (core.node n) (ticks C cfg core n w₀).newTick = .ok () w')
    (hstatic : ∀ k < w'.calls, core.best n k = core.best n 0)
    (hheight : w'.state.cursor.height < (core.best n 0).length) :
    replay C cfg (segment cfg ((core.best n 0).take (w'.state.cursor.height + 1))) (.new C cfg) =
        .ok w'.state ∧
      HoldsChain C cfg ((core.best n 0).take (w'.state.cursor.height + 1)) w'.state w'.db := by
  obtain ⟨blocks, h, hu⟩ : OneChain C cfg core.block (ticks C cfg core n w₀).state
      (ticks C cfg core n w₀).db := by
    exact ticks_linked hcore n w₀ (fun _ => ⟨start, _, Upto.full hstart hw₀⟩) hlinked
  have hbest : ∀ w : World, Answered (core.node n) (core.best n 0) w.call →
      (core.node n).best w.calls = core.best n 0 := fun w ha => ha w.calls (Nat.lt_succ_self _)
  have hholds := (tickBody_static (Answered.history _ _) hbest blocks h (hcore n 0)).ok
    (s := (ticks C cfg core n w₀).newTick) (fun _ => hu) hdone hstatic hheight
  obtain ⟨db₀, hi, -⟩ := id hholds
  exact ⟨hi.replays.replay, hholds⟩

/-! Two branches of empty blocks over one genesis block. -/

def branchA : List CoreBlock :=
  [coreBlock 0xb0 0 [], coreBlock 0xa1 0xb0 [], coreBlock 0xa2 0xa1 []]

def branchB : List CoreBlock :=
  [coreBlock 0xb0 0 [], coreBlock 0xb1 0xb0 [], coreBlock 0xb2 0xb1 [], coreBlock 0xb3 0xb2 []]

/-- The best chain moves from the first branch to the second at one call of the first tick,
and stays there. -/
def movingCore (call : Nat) : CoreHistory where
  best n k := if n = 0 ∧ k < call then branchA else branchB
  block hash := (branchA ++ branchB).find? fun b => b.hash = hash

def newWorld : World := ⟨.new sampleCrypto sampleConfig, .empty, 0, []⟩

theorem movingCore_valid (call n k : Nat) :
    ValidChain sampleCrypto sampleConfig (movingCore call).block ((movingCore call).best n k) := by
  by_cases h : n = 0 ∧ k < call
  · rw [show (movingCore call).best n k = branchA from if_pos h]
    change ValidChain sampleCrypto sampleConfig (movingCore 0).block branchA
    decide +kernel
  · rw [show (movingCore call).best n k = branchB from if_neg h]
    change ValidChain sampleCrypto sampleConfig (movingCore 0).block branchB
    decide +kernel

theorem genesis_valid (call : Nat) : ValidChain sampleCrypto sampleConfig (movingCore call).block
    [coreBlock 0xb0 0 []] := by
  change ValidChain sampleCrypto sampleConfig (movingCore 0).block [coreBlock 0xb0 0 []]
  decide +kernel

theorem newWorld_holds :
    HoldsChain sampleCrypto sampleConfig [coreBlock 0xb0 0 []] newWorld.state newWorld.db :=
  ⟨Db.empty, .new, .refl _⟩

/-- The first tick indexes the first branch, the second one follows the reorg. -/
theorem self_healing_sample : ∃ w',
    tickBody sampleCrypto sampleConfig ((movingCore 100).node 1)
      (ticks sampleCrypto sampleConfig (movingCore 100) 1 newWorld).newTick = .ok () w' ∧
    replay sampleCrypto sampleConfig
      (segment sampleConfig (branchB.take (w'.state.cursor.height + 1)))
      (.new sampleCrypto sampleConfig) = .ok w'.state := by
  have hrun : returnedIn (fun w' => decide (w'.state.cursor.height < branchB.length))
      (tickBody sampleCrypto sampleConfig ((movingCore 100).node 1)
        (ticks sampleCrypto sampleConfig (movingCore 100) 1 newWorld).newTick) = true := by
    decide +kernel
  have hlinked : ∀ e ∈ (ticks sampleCrypto sampleConfig (movingCore 100) 1 newWorld).applied,
      Linked e := by decide +kernel
  obtain ⟨_, w', hdone, hpass⟩ := exists_of_returnedIn hrun
  exact ⟨w', hdone, (self_healing (movingCore_valid 100) (genesis_valid 100) newWorld_holds 1
    hlinked hdone (fun _ _ => rfl) (of_decide_eq_true hpass)).1⟩

/-- The best chain moves between two reads of the first tick. The second tick sees one branch
throughout and completes, with the first block of the other branch still indexed. -/
theorem mixed_branch_survives :
    (∀ n k, ValidChain sampleCrypto sampleConfig (movingCore 4).block ((movingCore 4).best n k)) ∧
    HoldsChain sampleCrypto sampleConfig [coreBlock 0xb0 0 []] newWorld.state newWorld.db ∧
    ∃ w', tickBody sampleCrypto sampleConfig ((movingCore 4).node 1)
        (ticks sampleCrypto sampleConfig (movingCore 4) 1 newWorld).newTick = .ok () w' ∧
      (∀ k < w'.calls, (movingCore 4).best 1 k = branchB) ∧
      w'.state.cursor.height < branchB.length ∧
      replay sampleCrypto sampleConfig
        (segment sampleConfig (branchB.take (w'.state.cursor.height + 1)))
        (.new sampleCrypto sampleConfig) ≠ .ok w'.state := by
  refine ⟨movingCore_valid 4, newWorld_holds, ?_⟩
  have hrun : returnedIn (fun w' => decide (w'.state.cursor.height = 3 ∧
      (w'.state.undoByHeight.get 1).map BlockUndo.blockHash = some (List.replicate 32 0xa1)))
      (tickBody sampleCrypto sampleConfig ((movingCore 4).node 1)
        (ticks sampleCrypto sampleConfig (movingCore 4) 1 newWorld).newTick) = true := by
    decide +kernel
  obtain ⟨_, w', hdone, hpass⟩ := exists_of_returnedIn hrun
  obtain ⟨hheight, hundo⟩ := of_decide_eq_true hpass
  refine ⟨w', hdone, fun _ _ => rfl, by rw [hheight]; decide, ?_⟩
  rw [hheight]
  intro heq
  have hclean : ((replay sampleCrypto sampleConfig (segment sampleConfig (branchB.take 4))
      (.new sampleCrypto sampleConfig)).toOption.bind fun σ =>
        (σ.undoByHeight.get 1).map BlockUndo.blockHash) = some (List.replicate 32 0xb1) := by
    decide +kernel
  rw [heq] at hclean
  exact absurd (hundo.symm.trans hclean) (by decide)

end Cove
