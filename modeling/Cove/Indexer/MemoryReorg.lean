import Cove.Indexer.Reorg

/-! The reorg of the indexer in memory: `packages/cove-indexer/src/v3/reorg.ts`. -/

namespace Cove

open Checked

/-- Bitcoin Core while its best chain stays put. -/
structure StaticCore where
  best : List CoreBlock
  block : Bytes → Option CoreBlock

namespace StaticCore

variable (core : StaticCore)

/-- `getBlockchainInfo().blocks`. -/
def tipHeight : Nat := core.best.length - 1

def getBlockHash (height : Nat) : Except Fault Bytes :=
  demand (core.best[height]?.map CoreBlock.hash) ⟨some "-8", "Block height out of range"⟩

def getBlock (hash : Bytes) : Except Fault CoreBlock :=
  demand (core.block hash) ⟨some "-5", "Block not found"⟩

end StaticCore

structure ReorgReport where
  commonAncestor : Nat
  orphanedBlocks : List Nat
  replayedBlocks : List Nat
  finalRoot : Bytes
  deriving DecidableEq, Repr

section

variable (C : Crypto) (cfg : V3IndexerConfig) (core : StaticCore)

/-- The walk down to the common ancestor. It ends at 0 at the latest. -/
def commonAncestor (undoByHeight : Dict Nat BlockUndo) : Nat → Except Fault Nat
  | 0 => .ok 0
  | ancestor + 1 => do
    let coreHash ← core.getBlockHash (ancestor + 1)
    if (undoByHeight.get (ancestor + 1)).map BlockUndo.blockHash = some coreHash then
      return ancestor + 1
    commonAncestor undoByHeight ancestor

/-- Undo every block from a height down to the one above the ancestor. -/
def undoDownTo (ancestor : Nat) : Nat → V3IndexerState → Except Fault (V3IndexerState × List Nat)
  | 0, σ => .ok (σ, [])
  | h + 1, σ =>
    if ancestor < h + 1 then do
      let σ ← undoBlock C cfg σ (h + 1)
      let (σ, orphaned) ← undoDownTo ancestor h σ
      return (σ, (h + 1) :: orphaned)
    else .ok (σ, [])

/-- Apply a number of blocks of the best chain from a height on. -/
def applyFrom : Nat → Nat → V3IndexerState → Except Fault (V3IndexerState × List Nat)
  | _, 0, σ => .ok (σ, [])
  | h, n + 1, σ => do
    let hash ← core.getBlockHash h
    let block ← core.getBlock hash
    let (σ, _) ← applyBlock C cfg σ (inputAt h block)
    let (σ, replayed) ← applyFrom (h + 1) n σ
    return (σ, h :: replayed)

def reorgToTip (σ : V3IndexerState) : Except Fault (V3IndexerState × ReorgReport) := do
  let tipHeight := core.tipHeight
  let ancestor ← commonAncestor core σ.undoByHeight σ.cursor.height
  let (σ', orphaned) ← undoDownTo C cfg ancestor σ.cursor.height σ
  let (σ', replayed) ← applyFrom C cfg core (ancestor + 1) (tipHeight - ancestor) σ'
  return (σ', ⟨ancestor, orphaned, replayed, computeStateRoot C σ'.toLedger⟩)

end

/-- The indexed blocks of a chain: those from the activation height on. -/
def activeBlocks (cfg : V3IndexerConfig) (blocks : List CoreBlock) : List V3BlockInput :=
  blocksFrom cfg.genesisHeight blocks

/-- Where nothing is indexed yet, block 0 lies below the activation height. Else the new tip is
not below the cursor, and the first indexed block is on the new chain or at height 1 at most. -/
def reorgSafe (cfg : V3IndexerConfig) (old new : List CoreBlock) : Bool :=
  if old.length ≤ cfg.genesisHeight then 1 ≤ cfg.genesisHeight
  else old.length ≤ new.length ∧
    (cfg.genesisHeight ≤ 1 ∨ old[cfg.genesisHeight]? = new[cfg.genesisHeight]?)

section

variable {C : Crypto} {cfg : V3IndexerConfig} {core : StaticCore} {blocks : List CoreBlock}
  {σ : V3IndexerState} {h : Nat}

/-! The walk to the common ancestor. -/

/-- The local block at a height is the best chain's. -/
def SharesBlock (core : StaticCore) (undoByHeight : Dict Nat BlockUndo) (h : Nat) : Prop :=
  ∃ undo b, undoByHeight.get h = some undo ∧ core.best[h]? = some b ∧ undo.blockHash = b.hash

theorem shared_iff {undoByHeight : Dict Nat BlockUndo} {b : CoreBlock}
    (hb : core.best[h]? = some b) :
    (undoByHeight.get h).map BlockUndo.blockHash = some b.hash ↔
      SharesBlock core undoByHeight h := by
  rw [Option.map_eq_some_iff]
  constructor
  · intro hlocal
    obtain ⟨undo, hundo, heq⟩ := hlocal
    exact ⟨undo, b, hundo, hb, heq⟩
  · intro hshared
    obtain ⟨undo, b', hundo, hb', heq⟩ := hshared
    obtain rfl := Option.some.inj (hb.symm.trans hb')
    exact ⟨undo, hundo, heq⟩

/-- Below the tip the walk finds the highest shared block, or ends at 0. -/
theorem commonAncestor_ok (undoByHeight : Dict Nat BlockUndo) (hh : h < core.best.length) :
    ∃ ancestor ≤ h, commonAncestor core undoByHeight h = .ok ancestor ∧
      (ancestor = 0 ∨ SharesBlock core undoByHeight ancestor) ∧
      ∀ k, ancestor < k → k ≤ h → ¬ SharesBlock core undoByHeight k := by
  induction h with
  | zero => exact ⟨0, le_refl _, rfl, Or.inl rfl, fun k hk hk' => by omega⟩
  | succ h ih =>
    have hb := List.getElem?_eq_getElem hh
    have hhash : core.getBlockHash (h + 1) = .ok core.best[h + 1].hash := by
      rw [StaticCore.getBlockHash, hb]
      rfl
    have hwalk : commonAncestor core undoByHeight (h + 1) =
        if (undoByHeight.get (h + 1)).map BlockUndo.blockHash = some core.best[h + 1].hash then
          .ok (h + 1)
        else commonAncestor core undoByHeight h := by
      rw [commonAncestor, hhash]
      rfl
    by_cases hshared : SharesBlock core undoByHeight (h + 1)
    · refine ⟨h + 1, le_refl _, ?_, Or.inr hshared, fun k hk hk' => by omega⟩
      rw [hwalk, if_pos ((shared_iff hb).mpr hshared)]
    · obtain ⟨ancestor, hle, hok, hfound, habove⟩ := ih (by omega)
      refine ⟨ancestor, by omega, ?_, hfound, ?_⟩
      · rw [hwalk, if_neg (fun he => hshared ((shared_iff hb).mp he)), hok]
      · intro k hk hk'
        rcases Nat.lt_or_eq_of_le hk' with hlt | rfl
        · exact habove k hk (by omega)
        · exact hshared

/-- Above the tip the node has no hash to give. -/
theorem commonAncestor_above (undoByHeight : Dict Nat BlockUndo) (hh : core.best.length ≤ h)
    (hpos : h ≠ 0) : ∃ f, commonAncestor core undoByHeight h = .error f := by
  obtain ⟨k, rfl⟩ := Nat.exists_eq_succ_of_ne_zero hpos
  have hhash : core.getBlockHash (k + 1) = .error ⟨some "-8", "Block height out of range"⟩ := by
    rw [StaticCore.getBlockHash, List.getElem?_eq_none hh]
    rfl
  exact ⟨_, by rw [commonAncestor, hhash]; rfl⟩

/-! Undoing and applying blocks. -/

theorem activeBlocks_take_succ (hg : cfg.genesisHeight ≤ h) {b : CoreBlock}
    (hb : blocks[h]? = some b) :
    activeBlocks cfg (blocks.take (h + 1)) = activeBlocks cfg (blocks.take h) ++ [inputAt h b] :=
  blocksFrom_take_succ hg hb

theorem activeBlocks_take_below (hh : h ≤ cfg.genesisHeight) :
    activeBlocks cfg (blocks.take h) = [] :=
  blocksFrom_short (by
    rw [List.length_take]
    omega)

/-- Where every block above the ancestor is indexed, undoing them leaves the replay of the rest. -/
theorem undoDownTo_ok {ancestor : Nat} (hg : cfg.genesisHeight ≤ ancestor + 1) (hle : ancestor ≤ h)
    (hh : h < blocks.length) (hσ : Replays C cfg (activeBlocks cfg (blocks.take (h + 1))) σ) :
    ∃ σ' orphaned, undoDownTo C cfg ancestor h σ = .ok (σ', orphaned) ∧
      Replays C cfg (activeBlocks cfg (blocks.take (ancestor + 1))) σ' := by
  induction h generalizing σ with
  | zero =>
    obtain rfl := Nat.le_zero.mp hle
    exact ⟨σ, [], rfl, hσ⟩
  | succ h ih =>
    by_cases hlt : ancestor < h + 1
    · rw [activeBlocks_take_succ (by omega) (List.getElem?_eq_getElem hh)] at hσ
      obtain ⟨σ₀, hσ₀, hundo⟩ := hσ.undo_last
      obtain ⟨σ', orphaned, hrest, hσ'⟩ := ih (by omega) (by omega) hσ₀
      refine ⟨σ', (h + 1) :: orphaned, ?_, hσ'⟩
      have hundo : undoBlock C cfg σ (h + 1) = .ok σ₀ := hundo
      rw [undoDownTo, if_pos hlt, hundo]
      change (undoDownTo C cfg ancestor h σ₀ >>= _) = _
      rw [hrest]
      rfl
    · obtain rfl : ancestor = h + 1 := by omega
      exact ⟨σ, [], by rw [undoDownTo, if_neg hlt], hσ⟩

/-- Undoing goes on below the first indexed block, where nothing was recorded. -/
theorem undoDownTo_below (hg : 2 ≤ cfg.genesisHeight) (hle : cfg.genesisHeight ≤ h + 1)
    (hh : h < blocks.length) (hσ : Replays C cfg (activeBlocks cfg (blocks.take (h + 1))) σ) :
    ∃ f, undoDownTo C cfg 0 h σ = .error f := by
  induction h generalizing σ with
  | zero => omega
  | succ h ih =>
    by_cases hfirst : cfg.genesisHeight ≤ h + 1
    · rw [activeBlocks_take_succ hfirst (List.getElem?_eq_getElem hh)] at hσ
      obtain ⟨σ₀, hσ₀, hundo⟩ := hσ.undo_last
      obtain ⟨f, hf⟩ := ih hfirst (by omega) hσ₀
      have hundo : undoBlock C cfg σ (h + 1) = .ok σ₀ := hundo
      refine ⟨f, ?_⟩
      rw [undoDownTo, if_pos (Nat.succ_pos h), hundo]
      change (undoDownTo C cfg 0 h σ₀ >>= _) = _
      rw [hf]
      rfl
    · rw [activeBlocks_take_below (by omega)] at hσ
      rw [hσ.eq_new]
      refine ⟨⟨none, s!"no undo journal for height {h + 1}"⟩, ?_⟩
      rw [undoDownTo, if_pos (Nat.succ_pos h)]
      rfl

/-- Applying the rest of the best chain to a replay of its beginning gives the replay of it all. -/
theorem applyFrom_ok {fresh : V3IndexerState} {n : Nat} (hlink : HashLinked core.block core.best)
    (hfresh : Replays C cfg (activeBlocks cfg core.best) fresh) (hn : h + n = core.best.length)
    (hσ : Replays C cfg (activeBlocks cfg (core.best.take h)) σ) :
    ∃ replayed, applyFrom C cfg core h n σ = .ok (fresh, replayed) := by
  induction n generalizing h σ with
  | zero =>
    rw [List.take_of_length_le (by omega)] at hσ
    rw [hσ.unique hfresh]
    exact ⟨[], rfl⟩
  | succ n ih =>
    have hb : core.best[h]? = some core.best[h] := List.getElem?_eq_getElem (by omega)
    have hhash : core.getBlockHash h = .ok core.best[h].hash := by
      rw [StaticCore.getBlockHash, hb]
      rfl
    have hblock : core.getBlock core.best[h].hash = .ok core.best[h] := by
      rw [StaticCore.getBlock, hlink.known _ (List.mem_of_getElem? hb)]
      rfl
    obtain ⟨σ', events, happly, hσ'⟩ : ∃ σ' events,
        applyBlock C cfg σ (inputAt h core.best[h]) = .ok (σ', events) ∧
        Replays C cfg (activeBlocks cfg (core.best.take (h + 1))) σ' := by
      by_cases hg : h < cfg.genesisHeight
      · refine ⟨σ, [], if_pos hg, ?_⟩
        rw [activeBlocks_take_below (by omega)] at hσ ⊢
        exact hσ
      · obtain ⟨rest, hrest⟩ : ∃ rest, activeBlocks cfg core.best =
            activeBlocks cfg (core.best.take (h + 1)) ++ rest := blocksFrom_prefix _ _ _
        rw [hrest] at hfresh
        obtain ⟨σ', hσ'⟩ := hfresh.of_append
        have hstep := hσ'
        rw [activeBlocks_take_succ (by omega) hb] at hstep
        obtain ⟨σ₀, events, hσ₀, -, happly⟩ := hstep.last_step
        rw [hσ₀.unique hσ] at happly
        exact ⟨σ', events, happly, hσ'⟩
    obtain ⟨replayed, hrest⟩ := ih (by omega) hσ'
    refine ⟨h :: replayed, ?_⟩
    rw [applyFrom, hhash]
    change (core.getBlock core.best[h].hash >>= _) = _
    rw [hblock]
    change (applyBlock C cfg σ (inputAt h core.best[h]) >>= _) = _
    rw [happly]
    change (applyFrom C cfg core (h + 1) n σ' >>= _) = _
    rw [hrest]
    rfl

/-- Blocks above height 0 leave no record at height 0. -/
theorem applyFrom_keeps_zero {σ' : V3IndexerState} {n : Nat} {replayed : List Nat} (hpos : 0 < h)
    (happly : applyFrom C cfg core h n σ = .ok (σ', replayed)) :
    σ'.undoByHeight.get 0 = σ.undoByHeight.get 0 := by
  induction n generalizing h σ replayed with
  | zero =>
    rw [applyFrom, Except.ok.injEq, Prod.mk.injEq] at happly
    rw [happly.1]
  | succ n ih =>
    simp only [applyFrom, bind_eq_ok, pure_eq_ok, Prod.exists, Prod.mk.injEq] at happly
    obtain ⟨_, -, block, -, σ₁, events, hblock, _, rest, hrest, rfl, -⟩ := happly
    rw [ih (Nat.succ_pos h) hrest]
    by_cases hg : h < cfg.genesisHeight
    · rw [(applyBlock_below hg hblock).1]
    · obtain ⟨run, -, -, rfl⟩ := (applyBlock_eq_ok (Nat.not_lt.mp hg)).mp hblock
      exact Dict.get_set_ne _ _ (Nat.ne_of_lt hpos)

/-! The reorg. -/

section Reorg

variable {old : List CoreBlock} {fresh : V3IndexerState}

theorem reorgToTip_eq {ancestor : Nat} {σ₀ σ' : V3IndexerState} {orphaned replayed : List Nat}
    (hwalk : commonAncestor core σ.undoByHeight σ.cursor.height = .ok ancestor)
    (hundo : undoDownTo C cfg ancestor σ.cursor.height σ = .ok (σ₀, orphaned))
    (happly : applyFrom C cfg core (ancestor + 1) (core.tipHeight - ancestor) σ₀ =
      .ok (σ', replayed)) :
    reorgToTip C cfg core σ =
      .ok (σ', ⟨ancestor, orphaned, replayed, computeStateRoot C σ'.toLedger⟩) := by
  rw [reorgToTip, hwalk]
  change (undoDownTo C cfg ancestor σ.cursor.height σ >>= _) = _
  rw [hundo]
  change (applyFrom C cfg core (ancestor + 1) (core.tipHeight - ancestor) σ₀ >>= _) = _
  rw [happly]
  rfl

theorem cursor_of_nothing (hσ : Replays C cfg (activeBlocks cfg old) σ)
    (hg : old.length ≤ cfg.genesisHeight) : σ = .new C cfg := by
  have hempty : activeBlocks cfg old = [] := blocksFrom_short hg
  rw [hempty] at hσ
  exact hσ.eq_new

theorem cursor_height (hσ : Replays C cfg (activeBlocks cfg old) σ)
    (hg : cfg.genesisHeight < old.length) : σ.cursor.height = old.length - 1 := by
  have hlast : old[old.length - 1]? = some old[old.length - 1] := List.getElem?_eq_getElem (by omega)
  have hblocks := @activeBlocks_take_succ cfg _ _ (by omega) _ hlast
  rw [List.take_of_length_le (by omega)] at hblocks
  rw [hσ.inv.cursor, cursorAt, hblocks, List.getLast?_append, List.getLast?_singleton]
  rfl

/-- A block is shared where it is indexed and the two chains are one up to it. -/
theorem sharesBlock_iff (hσ : Replays C cfg (activeBlocks cfg old) σ)
    (hold : HashLinked core.block old) (hlink : HashLinked core.block core.best) :
    SharesBlock core σ.undoByHeight h ↔ cfg.genesisHeight ≤ h ∧ h < old.length ∧
      old.take (h + 1) = core.best.take (h + 1) := by
  constructor
  · intro hshared
    obtain ⟨undo, b, hundo, hb, heq⟩ := hshared
    obtain ⟨input, hmem, rfl⟩ := hσ.inv.undo_block _ _ hundo
    obtain ⟨ops, hrecord⟩ := hσ.undo_record input hmem
    obtain ⟨k, blk, hk, hblk, rfl⟩ := mem_blocksFrom.mp hmem
    rw [hundo, Option.some.injEq] at hrecord
    have hhash : blk.hash = b.hash := by
      rw [← heq, hrecord]
      rfl
    exact ⟨hk, (List.getElem?_eq_some_iff.mp hblk).1, hold.agree hlink hblk hb hhash⟩
  · intro hshared
    obtain ⟨hg, hlt, htake⟩ := hshared
    have hb : old[h]? = some old[h] := List.getElem?_eq_getElem hlt
    have hbest : core.best[h]? = some old[h] := by
      have hget := congrArg (fun l => l[h]?) htake
      rw [List.getElem?_take_of_lt (by omega), List.getElem?_take_of_lt (by omega), hb] at hget
      exact hget.symm
    have hmem : inputAt h old[h] ∈ activeBlocks cfg old := mem_blocksFrom.mpr ⟨h, _, hg, hb, rfl⟩
    obtain ⟨ops, hrecord⟩ := hσ.undo_record _ hmem
    exact ⟨_, old[h], hrecord, hbest, rfl⟩

/-- Where nothing is indexed the reorg indexes the chain from height 1 on. -/
theorem reorg_from_nothing (hσ : Replays C cfg (activeBlocks cfg old) σ)
    (hlink : HashLinked core.block core.best) (hfresh : Replays C cfg (activeBlocks cfg core.best) fresh)
    (hne : core.best ≠ []) (hempty : old.length ≤ cfg.genesisHeight) (hg : 1 ≤ cfg.genesisHeight) :
    ∃ report, reorgToTip C cfg core σ = .ok (fresh, report) := by
  obtain rfl := cursor_of_nothing hσ hempty
  have hpos := List.length_pos_iff.mpr hne
  have hstart : Replays C cfg (activeBlocks cfg (core.best.take 1)) (.new C cfg) := by
    rw [activeBlocks_take_below hg]
    exact .new
  obtain ⟨replayed, happly⟩ := applyFrom_ok (n := core.tipHeight) hlink hfresh
    (by unfold StaticCore.tipHeight; omega) hstart
  exact ⟨_, reorgToTip_eq rfl rfl happly⟩

/-- So a block 0 that is to be indexed is left out. -/
theorem reorg_misses_zero (hg : cfg.genesisHeight = 0) (hempty : old = [])
    (hσ : Replays C cfg (activeBlocks cfg old) σ)
    (hfresh : Replays C cfg (activeBlocks cfg core.best) fresh) (hne : core.best ≠ [])
    (report : ReorgReport) : reorgToTip C cfg core σ ≠ .ok (fresh, report) := by
  intro hok
  obtain rfl := cursor_of_nothing hσ (by simp [hempty])
  simp only [reorgToTip, bind_eq_ok, pure_eq_ok, Prod.exists, Prod.mk.injEq] at hok
  obtain ⟨ancestor, hwalk, σ₀, orphaned, hundo, σ', replayed, happly, rfl, -⟩ := hok
  have hwalk : Except.ok 0 = Except.ok ancestor := hwalk
  obtain rfl := Except.ok.inj hwalk
  have hundo : Except.ok (V3IndexerState.new C cfg, []) = Except.ok (σ₀, orphaned) := hundo
  obtain ⟨rfl, -⟩ := Prod.mk.inj (Except.ok.inj hundo)
  have hzero := applyFrom_keeps_zero (Nat.succ_pos 0) happly
  obtain ⟨b, rest, hbest⟩ := List.exists_cons_of_ne_nil hne
  have hmem : inputAt 0 b ∈ activeBlocks cfg core.best :=
    mem_blocksFrom.mpr ⟨0, b, by omega, by rw [hbest]; rfl, rfl⟩
  obtain ⟨ops, hrecord⟩ := hfresh.undo_record _ hmem
  have hrecord : σ'.undoByHeight.get 0 = some _ := hrecord
  rw [hzero] at hrecord
  cases hrecord

/-- A tip below the cursor ends the walk at once. -/
theorem reorg_short_tip (hσ : Replays C cfg (activeBlocks cfg old) σ) (hne : core.best ≠ [])
    (hg : cfg.genesisHeight < old.length) (hshort : core.best.length < old.length) :
    ∃ f, reorgToTip C cfg core σ = .error f := by
  have hpos := List.length_pos_iff.mpr hne
  have hcursor := cursor_height hσ hg
  obtain ⟨f, hf⟩ : ∃ f, commonAncestor core σ.undoByHeight σ.cursor.height = .error f :=
    commonAncestor_above _ (by omega) (by omega)
  exact ⟨f, by rw [reorgToTip, hf]; rfl⟩

/-- The walk ends at the last shared block, or at 0 where no indexed block is shared. -/
theorem reorg_walk (hσ : Replays C cfg (activeBlocks cfg old) σ) (hold : HashLinked core.block old)
    (hlink : HashLinked core.block core.best) (hg : cfg.genesisHeight < old.length)
    (hlen : old.length ≤ core.best.length) :
    ∃ ancestor < old.length, commonAncestor core σ.undoByHeight σ.cursor.height = .ok ancestor ∧
      (ancestor ≠ 0 → cfg.genesisHeight ≤ ancestor ∧
        old.take (ancestor + 1) = core.best.take (ancestor + 1)) ∧
      (ancestor = 0 → ∀ k, 0 < k → cfg.genesisHeight ≤ k → k < old.length →
        old.take (k + 1) ≠ core.best.take (k + 1)) := by
  have hcursor := cursor_height hσ hg
  have hbelow : σ.cursor.height < core.best.length := by omega
  obtain ⟨ancestor, hle, hwalk, hfound, habove⟩ := commonAncestor_ok σ.undoByHeight hbelow
  refine ⟨ancestor, by omega, hwalk, ?_, ?_⟩
  · intro hpos
    obtain ⟨hk, -, htake⟩ := (sharesBlock_iff hσ hold hlink).mp (hfound.resolve_left hpos)
    exact ⟨hk, htake⟩
  · intro hzero k hpos hk hlt htake
    exact habove k (by omega) (by omega) ((sharesBlock_iff hσ hold hlink).mpr ⟨hk, hlt, htake⟩)

theorem first_block_shared (hg : cfg.genesisHeight < old.length)
    (hold : HashLinked core.block old) (hlink : HashLinked core.block core.best) :
    old.take (cfg.genesisHeight + 1) = core.best.take (cfg.genesisHeight + 1) ↔
      old[cfg.genesisHeight]? = core.best[cfg.genesisHeight]? := by
  have hb : old[cfg.genesisHeight]? = some old[cfg.genesisHeight] := List.getElem?_eq_getElem hg
  constructor
  · intro htake
    have hget := congrArg (fun l => l[cfg.genesisHeight]?) htake
    rwa [List.getElem?_take_of_lt (by omega), List.getElem?_take_of_lt (by omega)] at hget
  · intro hget
    exact hold.agree hlink hb (hget ▸ hb) rfl

/-- The blocks above the ancestor are all indexed, so they are undone and the new ones applied. -/
theorem reorg_through (hσ : Replays C cfg (activeBlocks cfg old) σ) (hold : HashLinked core.block old)
    (hlink : HashLinked core.block core.best) (hfresh : Replays C cfg (activeBlocks cfg core.best) fresh)
    (hzero : old.take 1 = core.best.take 1) (hg : cfg.genesisHeight < old.length)
    (hlen : old.length ≤ core.best.length)
    (hfirst : cfg.genesisHeight ≤ 1 ∨
      old[cfg.genesisHeight]? = core.best[cfg.genesisHeight]?) :
    ∃ report, reorgToTip C cfg core σ = .ok (fresh, report) := by
  have hcursor := cursor_height hσ hg
  obtain ⟨ancestor, hlt, hwalk, hfound, hnone⟩ := reorg_walk hσ hold hlink hg hlen
  have hindexed : cfg.genesisHeight ≤ ancestor + 1 := by
    by_cases hpos : ancestor = 0
    · rcases hfirst with hlow | hsame
      · omega
      · by_contra hhigh
        exact hnone hpos cfg.genesisHeight (by omega) (le_refl _) hg
          ((first_block_shared hg hold hlink).mpr hsame)
    · have := (hfound hpos).1
      omega
  have htake : old.take (ancestor + 1) = core.best.take (ancestor + 1) := by
    by_cases hpos : ancestor = 0
    · rw [hpos]
      exact hzero
    · exact (hfound hpos).2
  have hwhole : Replays C cfg (activeBlocks cfg (old.take (σ.cursor.height + 1))) σ := by
    rwa [List.take_of_length_le (by omega)]
  obtain ⟨σ₀, orphaned, hundo, hσ₀⟩ := undoDownTo_ok hindexed (by omega) (by omega) hwhole
  rw [htake] at hσ₀
  obtain ⟨replayed, happly⟩ := applyFrom_ok (n := core.tipHeight - ancestor) hlink hfresh
    (by unfold StaticCore.tipHeight; omega) hσ₀
  exact ⟨_, reorgToTip_eq hwalk hundo happly⟩

/-- With no indexed block shared, undoing runs past the first one. -/
theorem reorg_past_first (hσ : Replays C cfg (activeBlocks cfg old) σ)
    (hold : HashLinked core.block old) (hlink : HashLinked core.block core.best)
    (hg : cfg.genesisHeight < old.length) (hlen : old.length ≤ core.best.length)
    (hhigh : 1 < cfg.genesisHeight)
    (hfirst : old[cfg.genesisHeight]? ≠ core.best[cfg.genesisHeight]?) :
    ∃ f, reorgToTip C cfg core σ = .error f := by
  have hcursor := cursor_height hσ hg
  obtain ⟨ancestor, hlt, hwalk, hfound, -⟩ := reorg_walk hσ hold hlink hg hlen
  have hzero : ancestor = 0 := by
    by_contra hpos
    obtain ⟨hk, htake⟩ := hfound hpos
    have hget := congrArg (fun l => l[cfg.genesisHeight]?) htake
    rw [List.getElem?_take_of_lt (by omega), List.getElem?_take_of_lt (by omega)] at hget
    exact hfirst hget
  have hwhole : Replays C cfg (activeBlocks cfg (old.take (σ.cursor.height + 1))) σ := by
    rwa [List.take_of_length_le (by omega)]
  obtain ⟨f, hundo⟩ := undoDownTo_below hhigh (by omega) (by omega) hwhole
  refine ⟨f, ?_⟩
  rw [hzero] at hwalk
  rw [reorgToTip, hwalk]
  change (undoDownTo C cfg 0 σ.cursor.height σ >>= _) = _
  rw [hundo]
  rfl

/-- The reorg ends as a new indexer on the new best chain exactly in the safe cases. -/
theorem memory_reorg_iff {chain : List CoreBlock} {source : Bytes → Option CoreBlock}
    (hσ : Reachable C cfg (activeBlocks cfg old) σ)
    (hfresh : Replays C cfg (activeBlocks cfg chain) fresh)
    (hold : HashLinked source old) (hlink : HashLinked source chain) (hne : chain ≠ [])
    (hzero : ∀ b ∈ old.head?, chain.head? = some b) :
    (∃ report, reorgToTip C cfg ⟨chain, source⟩ σ = .ok (fresh, report)) ↔
      reorgSafe cfg old chain = true := by
  have hσ := hσ.replays
  unfold reorgSafe
  by_cases hempty : old.length ≤ cfg.genesisHeight
  · rw [if_pos hempty, decide_eq_true_eq]
    constructor
    · intro hok
      obtain ⟨report, hok⟩ := hok
      by_contra hg
      have hnil : old = [] := List.length_eq_zero_iff.mp (by omega)
      exact reorg_misses_zero (by omega) hnil hσ hfresh hne report hok
    · exact reorg_from_nothing hσ hlink hfresh hne hempty
  · rw [if_neg hempty, decide_eq_true_eq]
    have htake : old.take 1 = chain.take 1 := by
      obtain ⟨b, rest, hcons⟩ := List.exists_cons_of_length_pos (show 0 < old.length by omega)
      have hhead := hzero b (by rw [hcons]; rfl)
      obtain ⟨rest', hchain⟩ := List.head?_eq_some_iff.mp hhead
      rw [hcons, hchain]
      rfl
    constructor
    · intro hok
      obtain ⟨report, hok⟩ := hok
      have hlen : old.length ≤ chain.length := by
        by_contra hshort
        obtain ⟨f, hf⟩ : ∃ f, reorgToTip C cfg ⟨chain, source⟩ σ = .error f :=
          reorg_short_tip hσ hne (by omega) (Nat.not_le.mp hshort)
        rw [hf] at hok
        cases hok
      refine ⟨hlen, ?_⟩
      by_contra hunsafe
      rw [not_or] at hunsafe
      obtain ⟨f, hf⟩ : ∃ f, reorgToTip C cfg ⟨chain, source⟩ σ = .error f :=
        reorg_past_first hσ hold hlink (by omega) hlen (by omega) hunsafe.2
      rw [hf] at hok
      cases hok
    · intro hsafe
      exact reorg_through hσ hold hlink hfresh htake (by omega) hsafe.1 hsafe.2

end Reorg

end

/-- The mint is reorged out, above the first indexed block. -/
theorem memory_reorg_sample : ∃ σ fresh report,
    Reachable sampleCrypto sampleConfig (activeBlocks sampleConfig mintedChain) σ ∧
    Replays sampleCrypto sampleConfig (activeBlocks sampleConfig orphaningChain) fresh ∧
    reorgToTip sampleCrypto sampleConfig
      ⟨orphaningChain, (staticNode orphaningChain mintedChain).block⟩ σ = .ok (fresh, report) := by
  obtain ⟨σ, _, hσ, -⟩ := sample_reachable
  obtain ⟨fresh, hfresh⟩ := orphaning_replayable
  have hsafe : reorgSafe sampleConfig mintedChain orphaningChain = true := by decide +kernel
  obtain ⟨report, hok⟩ := (memory_reorg_iff hσ hfresh minted_valid.link orphaning_valid.link
    (by decide) (by decide)).mpr hsafe
  exact ⟨σ, fresh, report, hσ, hfresh, hok⟩

def lateConfig : V3IndexerConfig := { sampleConfig with genesisHeight := 2 }

/-- Chains that part at the activation height. -/
def lateChain : List CoreBlock :=
  [coreBlock 0xb0 0 [], coreBlock 0xb1 0xb0 [], coreBlock 0xb2 0xb1 []]

def lateFork : List CoreBlock :=
  [coreBlock 0xb0 0 [], coreBlock 0xb1 0xb0 [], coreBlock 0xb3 0xb1 []]

theorem late_replays {chain : List CoreBlock} {block : V3BlockInput}
    (hchain : activeBlocks lateConfig chain = [block])
    (hb : ActiveBlock sampleCrypto lateConfig [] block) (htxs : block.txs = []) :
    ∃ σ, Replays sampleCrypto lateConfig (activeBlocks lateConfig chain) σ := by
  have hstep : applyBlock sampleCrypto lateConfig (.new sampleCrypto lateConfig) block =
      .ok (_, _) := (applyBlock_eq_ok hb.active).mpr ⟨_, by rw [htxs]; rfl, rfl, rfl⟩
  rw [hchain]
  exact ⟨_, .step .new hb hstep⟩

/-- The fork is at the first indexed block, and the undoing runs into the one below it. -/
theorem first_block_reorg_throws : ∃ σ fresh f,
    Reachable sampleCrypto lateConfig (activeBlocks lateConfig lateChain) σ ∧
    Replays sampleCrypto lateConfig (activeBlocks lateConfig lateFork) fresh ∧
    HashLinked (staticNode lateFork lateChain).block lateChain ∧
    HashLinked (staticNode lateFork lateChain).block lateFork ∧
    reorgToTip sampleCrypto lateConfig ⟨lateFork, (staticNode lateFork lateChain).block⟩ σ =
      .error f := by
  have hlate : ValidChain sampleCrypto lateConfig (staticNode lateFork lateChain).block lateChain := by
    decide +kernel
  have hfork : ValidChain sampleCrypto lateConfig (staticNode lateFork lateChain).block lateFork := by
    decide +kernel
  obtain ⟨σ, hσ⟩ : ∃ σ, Replays sampleCrypto lateConfig (activeBlocks lateConfig lateChain) σ :=
    late_replays rfl (by decide +kernel) rfl
  obtain ⟨fresh, hfresh⟩ : ∃ fresh,
      Replays sampleCrypto lateConfig (activeBlocks lateConfig lateFork) fresh :=
    late_replays rfl (by decide +kernel) rfl
  obtain ⟨f, hf⟩ : ∃ f, reorgToTip sampleCrypto lateConfig
      ⟨lateFork, (staticNode lateFork lateChain).block⟩ σ = .error f :=
    reorg_past_first hσ hlate.link hfork.link (by decide) (by decide) (by decide) (by decide)
  exact ⟨σ, fresh, f, hσ.reachable, hfresh, hlate.link, hfork.link, hf⟩

end Cove
