import Cove.Indexer.Persistent

/-! A reorg to a best chain that stays put is a replay of that chain. -/

namespace Cove

open Checked

/-- The first height the indexer reads. -/
def startHeight (cfg : V3IndexerConfig) : Nat := max 1 cfg.genesisHeight

/-- The blocks of a chain from the first height on, as they are handed to the indexer. -/
def segment (cfg : V3IndexerConfig) (blocks : List CoreBlock) : List V3BlockInput :=
  (blocks.mapIdx inputAt).drop (startHeight cfg)

/-- What Bitcoin promises of a best chain. A hash commits to its block, and a block names the
hash of the one before it. -/
structure ValidChain (C : Crypto) (cfg : V3IndexerConfig) (source : Bytes → Option CoreBlock)
    (blocks : List CoreBlock) : Prop where
  nonempty : blocks ≠ []
  known : ∀ b ∈ blocks, source b.hash = some b
  hash : ∀ b ∈ blocks, b.hash.length = 32
  linked : ∀ (h : Nat) (b b' : CoreBlock), blocks[h]? = some b → blocks[h + 1]? = some b' →
    b'.previousBlockHash = b.hash
  consensus : ConsensusValid C (chainTxs (segment cfg blocks))

/-- The state and the tables are those of an indexer that applied the chain. -/
def HoldsChain (C : Crypto) (cfg : V3IndexerConfig) (blocks : List CoreBlock) (σ : V3IndexerState)
    (db : Db) : Prop :=
  ∃ db₀, Indexed C cfg (segment cfg blocks) σ db₀ ∧ SameProjection C cfg db db₀

theorem startHeight_eq (cfg : V3IndexerConfig) : startHeight cfg = reorgFloor cfg + 1 := by
  unfold startHeight reorgFloor
  omega

/-- The blocks of a chain from a height on, as they are handed to the indexer. -/
def blocksFrom (start : Nat) (blocks : List CoreBlock) : List V3BlockInput :=
  (blocks.mapIdx inputAt).drop start

theorem take_succ_get {blocks : List CoreBlock} {h : Nat} {b : CoreBlock} (hb : blocks[h]? = some b) :
    blocks.take (h + 1) = blocks.take h ++ [b] := by
  rw [List.take_add_one, hb]
  rfl

theorem length_take_of_get {blocks : List CoreBlock} {h : Nat} {b : CoreBlock}
    (hb : blocks[h]? = some b) : (blocks.take h).length = h := by
  have hlt := (List.getElem?_eq_some_iff.mp hb).1
  rw [List.length_take]
  omega

section BlocksFrom

variable {start : Nat} {blocks : List CoreBlock} {h : Nat}

theorem blocksFrom_short (hl : blocks.length ≤ start) : blocksFrom start blocks = [] :=
  List.drop_eq_nil_of_le (by simpa using hl)

theorem blocksFrom_append (hl : start ≤ blocks.length) (b : CoreBlock) :
    blocksFrom start (blocks ++ [b]) = blocksFrom start blocks ++ [inputAt blocks.length b] := by
  rw [blocksFrom, blocksFrom, List.mapIdx_append, List.drop_append_of_le_length (by simpa using hl)]
  simp

theorem blocksFrom_take_succ (hs : start ≤ h) {b : CoreBlock} (hb : blocks[h]? = some b) :
    blocksFrom start (blocks.take (h + 1)) = blocksFrom start (blocks.take h) ++ [inputAt h b] := by
  have hlen := length_take_of_get hb
  rw [take_succ_get hb, blocksFrom_append (by omega), hlen]

theorem blocksFrom_take_start (start : Nat) (blocks : List CoreBlock) :
    blocksFrom start (blocks.take start) = [] :=
  blocksFrom_short (by
    rw [List.length_take]
    omega)

theorem blocksFrom_prefix (start : Nat) (blocks : List CoreBlock) (h : Nat) :
    ∃ rest, blocksFrom start blocks = blocksFrom start (blocks.take h) ++ rest := by
  by_cases hs : start ≤ (blocks.take h).length
  · refine ⟨(blocks.drop h).mapIdx fun i => inputAt (i + (blocks.take h).length), ?_⟩
    rw [blocksFrom, blocksFrom, ← List.drop_append_of_le_length (by simpa using hs),
      ← List.mapIdx_append, List.take_append_drop]
  · have hshort : blocksFrom start (blocks.take h) = [] := blocksFrom_short (by omega)
    exact ⟨blocksFrom start blocks, by rw [hshort, List.nil_append]⟩

theorem mem_blocksFrom {b : V3BlockInput} :
    b ∈ blocksFrom start blocks ↔ ∃ k blk, start ≤ k ∧ blocks[k]? = some blk ∧ b = inputAt k blk := by
  rw [blocksFrom, List.mem_iff_getElem?]
  simp only [List.getElem?_drop, List.getElem?_mapIdx, Option.map_eq_some_iff]
  constructor
  · intro hb
    obtain ⟨i, blk, hblk, rfl⟩ := hb
    exact ⟨_, blk, by omega, hblk, rfl⟩
  · intro hb
    obtain ⟨k, blk, hk, hblk, rfl⟩ := hb
    refine ⟨k - start, blk, ?_, ?_⟩
    · rwa [Nat.add_sub_cancel' hk]
    · rw [Nat.add_sub_cancel' hk]

end BlocksFrom

section Segment

variable {cfg : V3IndexerConfig} {blocks : List CoreBlock} {h : Nat}

theorem segment_short (hl : blocks.length ≤ startHeight cfg) : segment cfg blocks = [] :=
  blocksFrom_short hl

theorem segment_take_succ (hs : startHeight cfg ≤ h) {b : CoreBlock} (hb : blocks[h]? = some b) :
    segment cfg (blocks.take (h + 1)) = segment cfg (blocks.take h) ++ [inputAt h b] :=
  blocksFrom_take_succ hs hb

theorem segment_take_start (cfg : V3IndexerConfig) (blocks : List CoreBlock) :
    segment cfg (blocks.take (startHeight cfg)) = [] :=
  blocksFrom_take_start (startHeight cfg) blocks

theorem segment_prefix (cfg : V3IndexerConfig) (blocks : List CoreBlock) (h : Nat) :
    ∃ rest, segment cfg blocks = segment cfg (blocks.take h) ++ rest :=
  blocksFrom_prefix (startHeight cfg) blocks h

theorem mem_segment {b : V3BlockInput} : b ∈ segment cfg blocks ↔
    ∃ k blk, startHeight cfg ≤ k ∧ blocks[k]? = some blk ∧ b = inputAt k blk := mem_blocksFrom

end Segment

/-- A hash commits to its block, and a block names the hash of the one before it. -/
structure HashLinked (source : Bytes → Option CoreBlock) (blocks : List CoreBlock) : Prop where
  known : ∀ b ∈ blocks, source b.hash = some b
  linked : ∀ (h : Nat) (b b' : CoreBlock), blocks[h]? = some b → blocks[h + 1]? = some b' →
    b'.previousBlockHash = b.hash

/-- Two linked chains with the same hash at a height are the same up to it. -/
theorem HashLinked.agree {source : Bytes → Option CoreBlock} {blocks other : List CoreBlock} {h : Nat}
    (hv : HashLinked source blocks) (ho : HashLinked source other) {b b' : CoreBlock}
    (hb : blocks[h]? = some b) (hb' : other[h]? = some b') (heq : b.hash = b'.hash) :
    blocks.take (h + 1) = other.take (h + 1) := by
  have hsame : b = b' := by
    have h1 := hv.known b (List.mem_of_getElem? hb)
    have h2 := ho.known b' (List.mem_of_getElem? hb')
    rw [heq, h2] at h1
    exact (Option.some.inj h1).symm
  subst hsame
  induction h generalizing b with
  | zero => rw [take_succ_get hb, take_succ_get hb', List.take_zero, List.take_zero]
  | succ h ih =>
    have hk : h < blocks.length := by
      have := (List.getElem?_eq_some_iff.mp hb).1
      omega
    have hk' : h < other.length := by
      have := (List.getElem?_eq_some_iff.mp hb').1
      omega
    have hp := List.getElem?_eq_getElem hk
    have hp' := List.getElem?_eq_getElem hk'
    have hlink : blocks[h].hash = other[h].hash := by
      rw [← hv.linked h _ _ hp hb, ← ho.linked h _ _ hp' hb']
    have hprev : blocks[h] = other[h] := by
      have h1 := hv.known _ (List.mem_of_getElem? hp)
      have h2 := ho.known _ (List.mem_of_getElem? hp')
      rw [hlink, h2] at h1
      exact (Option.some.inj h1).symm
    rw [take_succ_get hb, take_succ_get hb', ih hp (hprev ▸ hp') rfl]

section Chains

variable {C : Crypto} {cfg : V3IndexerConfig} {source : Bytes → Option CoreBlock}
  {blocks : List CoreBlock} {h : Nat}

/-- What consensus promises of a chain it promises of every beginning of it. -/
theorem ConsensusValid.of_append {txs rest : List Transaction} (hc : ConsensusValid C (txs ++ rest)) :
    ConsensusValid C txs := by
  constructor
  case txids_nodup =>
    have hn := hc.txids_nodup
    rw [List.map_append] at hn
    exact (List.nodup_append.mp hn).1
  case inputs_nodup => exact fun tx hm => hc.inputs_nodup tx (List.mem_append_left _ hm)
  case spends_nodup =>
    have hn := hc.spends_nodup
    rw [List.flatMap_append, List.filter_append] at hn
    exact (List.nodup_append.mp hn).1
  case spends_earlier =>
    intro pre tx post he o ho hm
    refine hc.spends_earlier pre tx (post ++ rest) (by rw [he]; simp) o ho ?_
    rw [← List.cons_append, List.map_append]
    exact List.mem_append_left _ hm

theorem chainTxs_append_list (chain rest : List V3BlockInput) :
    chainTxs (chain ++ rest) = chainTxs chain ++ chainTxs rest := by
  simp [chainTxs]

theorem validChain_iff : ValidChain C cfg source blocks ↔
    blocks ≠ [] ∧ (∀ b ∈ blocks, source b.hash = some b) ∧ (∀ b ∈ blocks, b.hash.length = 32) ∧
      blocks.IsChain (fun b b' => b'.previousBlockHash = b.hash) ∧
      ConsensusValid C (chainTxs (segment cfg blocks)) := by
  constructor
  · intro h
    refine ⟨h.nonempty, h.known, h.hash, List.isChain_iff_getElem.mpr fun i hi => ?_, h.consensus⟩
    exact h.linked i _ _ (List.getElem?_eq_getElem (by omega)) (List.getElem?_eq_getElem hi)
  · rintro ⟨hne, hknown, hhash, hlinked, hcons⟩
    refine ⟨hne, hknown, hhash, fun i b b' hb hb' => ?_, hcons⟩
    obtain ⟨_, rfl⟩ := List.getElem?_eq_some_iff.mp hb
    obtain ⟨hi, rfl⟩ := List.getElem?_eq_some_iff.mp hb'
    exact List.isChain_iff_getElem.mp hlinked i hi

instance : Decidable (ValidChain C cfg source blocks) := decidable_of_iff _ validChain_iff.symm

theorem ValidChain.consensus_take (hv : ValidChain C cfg source blocks) (h : Nat) :
    ConsensusValid C (chainTxs (segment cfg (blocks.take h))) := by
  obtain ⟨rest, hrest⟩ := segment_prefix cfg blocks h
  have hc := hv.consensus
  rw [hrest, chainTxs_append_list] at hc
  exact hc.of_append

/-- The next block of a valid chain may be indexed. -/
theorem ValidChain.active (hv : ValidChain C cfg source blocks) (hs : startHeight cfg ≤ h)
    {b : CoreBlock} (hb : blocks[h]? = some b) :
    ActiveBlock C cfg (segment cfg (blocks.take h)) (inputAt h b) := by
  refine ⟨⟨?_, hv.hash b (List.mem_of_getElem? hb), ?_⟩, ?_⟩
  · intro last hlast
    rcases Nat.eq_or_lt_of_le hs with heq | hlt
    · rw [← heq, segment_take_start] at hlast
      cases hlast
    · obtain ⟨k, rfl⟩ : ∃ k, h = k + 1 := ⟨h - 1, by omega⟩
      have hk : k < blocks.length := by
        have := (List.getElem?_eq_some_iff.mp hb).1
        omega
      rw [segment_take_succ (by omega) (List.getElem?_eq_getElem hk)] at hlast
      simp only [List.getLast?_append, List.getLast?_singleton, Option.some_or,
        Option.some.injEq] at hlast
      rw [← hlast]
      rfl
  · rw [← segment_take_succ hs hb]
    exact hv.consensus_take (h + 1)
  · change cfg.genesisHeight ≤ h
    unfold startHeight at hs
    omega

theorem ValidChain.link (hv : ValidChain C cfg source blocks) : HashLinked source blocks :=
  ⟨hv.known, hv.linked⟩

theorem ValidChain.agree {other : List CoreBlock} (hv : ValidChain C cfg source blocks)
    (ho : ValidChain C cfg source other) {b b' : CoreBlock} (hb : blocks[h]? = some b)
    (hb' : other[h]? = some b') (heq : b.hash = b'.hash) :
    blocks.take (h + 1) = other.take (h + 1) := hv.link.agree ho.link hb hb' heq

end Chains

/-- The index holds the blocks of a valid chain below a height. -/
structure Upto (C : Crypto) (cfg : V3IndexerConfig) (source : Bytes → Option CoreBlock)
    (blocks : List CoreBlock) (h : Nat) (σ : V3IndexerState) (db : Db) : Prop where
  valid : ValidChain C cfg source blocks
  start_le : startHeight cfg ≤ h
  le_length : startHeight cfg < h → h ≤ blocks.length
  holds : HoldsChain C cfg (blocks.take h) σ db

namespace Upto

variable {C : Crypto} {cfg : V3IndexerConfig} {source : Bytes → Option CoreBlock}
  {blocks : List CoreBlock} {h : Nat}
  {σ : V3IndexerState} {db : Db}

theorem replays (hu : Upto C cfg source blocks h σ db) :
    Replays C cfg (segment cfg (blocks.take h)) σ := by
  obtain ⟨db₀, hi, -⟩ := hu.holds
  exact hi.replays

/-- An index of nothing. -/
theorem cursor_start (hu : Upto C cfg source blocks h σ db) (hs : h = startHeight cfg) :
    σ.cursor.height = 0 ∧ σ.cursor.blockHash = [] := by
  have hc := hu.replays.inv.cursor
  rw [hs, segment_take_start] at hc
  rw [hc]
  exact ⟨rfl, rfl⟩

theorem cursor_last (hu : Upto C cfg source blocks h σ db) (hs : startHeight cfg < h) :
    ∃ b, blocks[h - 1]? = some b ∧ σ.cursor.height = h - 1 ∧ σ.cursor.blockHash = b.hash := by
  obtain ⟨k, rfl⟩ : ∃ k, h = k + 1 := ⟨h - 1, by omega⟩
  have hk : k < blocks.length := hu.le_length hs
  have hb := List.getElem?_eq_getElem hk
  have hc := hu.replays.inv.cursor
  rw [segment_take_succ (by omega) hb] at hc
  refine ⟨blocks[k], hb, ?_⟩
  rw [hc]
  simp [cursorAt, inputAt]

/-- The height the loop goes on from. -/
theorem next (hu : Upto C cfg source blocks h σ db) :
    max (σ.cursor.height + 1) cfg.genesisHeight = h := by
  have hs := hu.start_le
  rcases Nat.eq_or_lt_of_le hs with heq | hlt
  · rw [(hu.cursor_start heq.symm).1, ← heq]
    unfold startHeight
    omega
  · obtain ⟨b, -, hheight, -⟩ := hu.cursor_last hlt
    rw [hheight]
    unfold startHeight at hs
    omega

theorem undo_hash (hu : Upto C cfg source blocks h σ db) {k : Nat} (hk : startHeight cfg ≤ k)
    (hkh : k < h) {b : CoreBlock} (hb : blocks[k]? = some b) :
    (σ.undoByHeight.get k).map BlockUndo.blockHash = some b.hash := by
  have hmem : inputAt k b ∈ segment cfg (blocks.take h) :=
    mem_segment.mpr ⟨k, b, hk, by rwa [List.getElem?_take_of_lt hkh], rfl⟩
  obtain ⟨ops, hops⟩ := hu.replays.undo_record _ hmem
  rw [show (inputAt k b).height = k from rfl] at hops
  rw [hops]
  rfl

theorem no_undo (hu : Upto C cfg source blocks h σ db) {k : Nat} (hk : h ≤ k) :
    σ.undoByHeight.get k = none := by
  by_contra hne
  obtain ⟨u, hu'⟩ := Option.ne_none_iff_exists'.mp hne
  obtain ⟨b, hm, heq⟩ := hu.replays.inv.undo_block k u hu'
  obtain ⟨j, blk, -, hj, rfl⟩ := mem_segment.mp hm
  have hlt := (List.getElem?_eq_some_iff.mp hj).1
  rw [List.length_take] at hlt
  have hjk : k = j := heq
  omega

/-- A block the state machine accepts is persisted and adopted. -/
theorem stage (hu : Upto C cfg source blocks h σ db) {b : CoreBlock} (hb : blocks[h]? = some b)
    (rebuilding : Bool) {σ' : V3IndexerState} {events : List V3Event}
    (ha : applyBlock C cfg σ (inputAt h b) = .ok (σ', events)) :
    ∃ undo db', σ'.undoByHeight.get h = some undo ∧
      persistBlock C db σ' (inputAt h b) (σ'.events.filter fun e => e.blockHeight = h) undo
        rebuilding = .ok db' ∧
      Upto C cfg source blocks (h + 1) σ' db' := by
  obtain ⟨db₀, hi, hsame⟩ := hu.holds
  have hact := hu.valid.active hu.start_le hb
  obtain ⟨undo, db', hundo, hp, -, -⟩ :=
    persistBlock_synced rebuilding (hi.synced.of_same hsame.symm) hi.replays.inv hact ha
  have hpers : Persisted C cfg (inputAt h b) rebuilding σ db₀ σ' db' :=
    Persisted.of_same ⟨⟨_, ha⟩, undo, hundo, hp⟩ hsame
  refine ⟨undo, db', hundo, hp, hu.valid, by have := hu.start_le; omega, ?_, ?_⟩
  · intro _
    exact (List.getElem?_eq_some_iff.mp hb).1
  · refine ⟨db', ?_, .refl _⟩
    rw [segment_take_succ hu.start_le hb]
    exact .persist hi hact hpers

/-- The last block is orphaned. -/
theorem orphan {k : Nat} (hu : Upto C cfg source blocks (k + 1) σ db) (hs : startHeight cfg ≤ k) :
    ∃ undo σ', undoBlock C cfg σ k = .ok σ' ∧ σ.undoByHeight.get k = some undo ∧
      Upto C cfg source blocks k σ' (rollback db undo σ'.cursor) := by
  have hk : k < blocks.length := hu.le_length (by omega)
  have hb := List.getElem?_eq_getElem hk
  obtain ⟨db₁, hi, hsame⟩ := hu.holds
  rw [segment_take_succ hs hb] at hi
  obtain ⟨ops, hops⟩ := hi.replays.undo_record (inputAt k blocks[k]) (by simp)
  obtain ⟨σ₀, db₀, hi₀, hundo, hback⟩ := hi.unwind hops
  exact ⟨_, σ₀, hundo, hops, hu.valid, hs, fun _ => by omega, db₀, hi₀,
    (hsame.rollback _ _).trans hback⟩

/-- The same blocks of another chain. -/
theorem transfer {other : List CoreBlock} (hu : Upto C cfg source blocks h σ db)
    (hv : ValidChain C cfg source other) (heq : blocks.take h = other.take h) :
    Upto C cfg source other h σ db := by
  refine ⟨hv, hu.start_le, ?_, by rw [← heq]; exact hu.holds⟩
  intro hlt
  have hlen := congrArg List.length heq
  have hle := hu.le_length hlt
  rw [List.length_take, List.length_take] at hlen
  omega

/-- An index of nothing holds the beginning of every chain. -/
theorem transfer_start {other : List CoreBlock}
    (hu : Upto C cfg source blocks (startHeight cfg) σ db) (hv : ValidChain C cfg source other) :
    Upto C cfg source other (startHeight cfg) σ db := by
  refine ⟨hv, le_refl _, fun hlt => absurd hlt (lt_irrefl _), ?_⟩
  obtain ⟨db₀, hi, hsame⟩ := hu.holds
  rw [segment_take_start] at hi
  exact ⟨db₀, by rwa [segment_take_start], hsame⟩

end Upto

/-! Programs under an assumption about the whole run. -/

/-- Whatever the run assumes of its history gives the property of the state and the tables. -/
def Under (A : World → Prop) (P : V3IndexerState → Db → Prop) (w : World) : Prop :=
  A w → P w.state w.db

/-- An assumption about the calls answered and the blocks applied so far: it holds earlier
when it holds later. -/
structure History (A : World → Prop) : Prop where
  call : ∀ w : World, A w.call → A w
  adopt : ∀ (w : World) σ db e, A { w with state := σ, db, applied := w.applied ++ [e] } → A w
  orphan : ∀ (w : World) σ db, A { w with state := σ, db } → A w

theorem Under.mono {A : World → Prop} {P Q : V3IndexerState → Db → Prop}
    (h : ∀ σ db, P σ db → Q σ db) (w : World) (hw : Under A P w) : Under A Q w :=
  fun ha => h _ _ (hw ha)

theorem Under.exists {A : World → Prop} {ι : Type} [Inhabited ι]
    {P : ι → V3IndexerState → Db → Prop} (w : World)
    (hw : Under A (fun σ db => ∃ i, P i σ db) w) : ∃ i, Under A (P i) w := by
  by_cases ha : A w
  · obtain ⟨i, hi⟩ := hw ha
    exact ⟨i, fun _ => hi⟩
  · exact ⟨default, fun h => absurd h ha⟩

section Static

variable {C : Crypto} {cfg : V3IndexerConfig} {node : CoreNode} {A : World → Prop}
  {P : V3IndexerState → Db → Prop}

theorem indexerState_triple {R : World → Prop} :
    Triple (Under A P) indexerState
      (fun s => Under A fun σ db => P σ db ∧ σ = s) R :=
  fun _ hw ha => ⟨hw ha, rfl⟩

/-! The best chain does not move. -/

variable {best blocks : List CoreBlock} (hA : History A)
  (hbest : ∀ w : World, A w.call → node.best w.calls = best)

include hA hbest

theorem getBlockchainInfo_static {R : World → Prop} : Triple (Under A P) (getBlockchainInfo node)
    (fun tip => Under A fun σ db => P σ db ∧ tip = best.length - 1) R := by
  intro w hw ha
  exact ⟨hw (hA.call w ha), by rw [hbest w ha]⟩

theorem getBlockHash_static (h : Nat) : Triple (Under A P) (getBlockHash node h)
    (fun hash => Under A fun σ db => P σ db ∧ ∃ b, best[h]? = some b ∧ b.hash = hash)
    (Under A fun σ db => P σ db ∧ best[h]? = none) := by
  intro w hw
  unfold getBlockHash
  cases hb : (node.best w.calls)[h]? with
  | some b =>
    intro ha
    rw [hbest w ha] at hb
    exact ⟨hw (hA.call w ha), b, hb, rfl⟩
  | none =>
    intro ha
    rw [hbest w ha] at hb
    exact ⟨hw (hA.call w ha), hb⟩

omit hbest in
theorem getBlock_triple (hash : Bytes) : Triple (Under A P) (getBlock node hash)
    (fun block => Under A fun σ db => P σ db ∧ node.block hash = some block)
    (Under A fun σ db => P σ db ∧ node.block hash = none) := by
  intro w hw
  unfold getBlock
  cases hb : node.block hash with
  | some b => exact fun ha => ⟨hw (hA.call w ha), rfl⟩
  | none => exact fun ha => ⟨hw (hA.call w ha), rfl⟩

end Static

/-- An indexer can replay the chain to its tip. -/
def Replayable (C : Crypto) (cfg : V3IndexerConfig) (blocks : List CoreBlock) : Prop :=
  ∃ σ, Replays C cfg (segment cfg blocks) σ

theorem segment_at {cfg : V3IndexerConfig} {blocks : List CoreBlock} {h : Nat}
    (hs : startHeight cfg ≤ h) {b : CoreBlock} (hb : blocks[h]? = some b) :
    ∃ rest, segment cfg blocks = segment cfg (blocks.take h) ++ inputAt h b :: rest := by
  obtain ⟨rest, hrest⟩ := segment_prefix cfg blocks (h + 1)
  exact ⟨rest, by rw [hrest, segment_take_succ hs hb, List.append_assoc]; rfl⟩

/-- A replayable chain's next block is accepted. -/
theorem Upto.accepts {C : Crypto} {cfg : V3IndexerConfig} {node : CoreNode}
    {blocks : List CoreBlock} {h : Nat} {σ : V3IndexerState} {db : Db}
    (hu : Upto C cfg node.block blocks h σ db) (hr : Replayable C cfg blocks) {b : CoreBlock}
    (hb : blocks[h]? = some b) : ∃ p, applyBlock C cfg σ (inputAt h b) = .ok p := by
  obtain ⟨σ', hσ'⟩ := hr
  obtain ⟨rest, hrest⟩ := segment_at hu.start_le hb
  rw [hrest] at hσ'
  obtain ⟨σ₀, p, h₀, hp⟩ := hσ'.through
  exact ⟨p, by rwa [hu.replays.unique h₀]⟩

section StaticRun

variable {C : Crypto} {cfg : V3IndexerConfig} {node : CoreNode} {A : World → Prop}
  {best blocks : List CoreBlock} (hA : History A)
  (hbest : ∀ w : World, A w.call → node.best w.calls = best)

include hA

/-- What else the assumption gives stays true, whatever is staged. -/
theorem stageBlock_static {h : Nat} (rebuilding : Bool) (b : CoreBlock) {K : Prop} :
    Triple (Under A fun σ db => (Upto C cfg node.block best h σ db ∧ best[h]? = some b) ∧ K)
      (stageBlock C cfg (inputAt h b) rebuilding)
      (fun _ => Under A fun σ db => Upto C cfg node.block best (h + 1) σ db ∧ K)
      (Under A fun _ _ => ¬ Replayable C cfg best) := by
  intro w hw
  rcases stageBlock_cases C cfg (inputAt h b) rebuilding w with
    ⟨f, hf⟩ | ⟨staged, events, undo, db', happ, hundo, hp, hok⟩
  · rw [hf]
    intro ha hr
    obtain ⟨⟨hu, hb⟩, -⟩ := hw ha
    obtain ⟨⟨staged, events⟩, happ⟩ := hu.accepts hr hb
    obtain ⟨undo, db', hundo, hp, -⟩ := hu.stage hb rebuilding happ
    rw [stageBlock_of_ok happ hundo hp] at hf
    cases hf
  · rw [hok]
    intro ha
    obtain ⟨⟨hu, hb⟩, hk⟩ := hw (hA.adopt _ _ _ _ ha)
    obtain ⟨undo', db'', hundo', hp', hupto⟩ := hu.stage hb rebuilding happ
    obtain rfl : undo' = undo := Option.some.inj (hundo'.symm.trans hundo)
    obtain rfl : db'' = db' := Except.ok.inj (hp'.symm.trans hp)
    exact ⟨hupto, hk⟩

/-- The block at a height of the best chain is read and staged. -/
theorem fetch_static {h : Nat} (rebuilding : Bool) (hash : Bytes) {K : Prop} :
    Triple (Under A fun σ db => (Upto C cfg node.block best h σ db ∧
        ∃ b, best[h]? = some b ∧ b.hash = hash) ∧ K)
      (do
        let block ← getBlock node hash
        stageBlock C cfg (inputAt h block) rebuilding)
      (fun _ => Under A fun σ db => Upto C cfg node.block best (h + 1) σ db ∧ K)
      (Under A fun _ _ => ¬ Replayable C cfg best) := by
  refine Triple.bind ((getBlock_triple hA hash).consequence (fun _ h => h) (fun _ _ h => h) ?_)
    fun block => (stageBlock_static hA rebuilding block).strengthen (Under.mono ?_)
  · intro w hw ha
    obtain ⟨⟨⟨hu, b, hb, rfl⟩, -⟩, hnone⟩ := hw ha
    rw [hu.valid.known b (List.mem_of_getElem? hb)] at hnone
    cases hnone
  · rintro σ db ⟨⟨⟨hu, b, hb, rfl⟩, hk⟩, hblock⟩
    rw [hu.valid.known b (List.mem_of_getElem? hb), Option.some.injEq] at hblock
    exact ⟨⟨hu, hblock ▸ hb⟩, hk⟩

include hbest

theorem indexBlock_static (rebuilding : Bool) (h : Nat) {K : Prop} :
    Triple (Under A fun σ db => (Upto C cfg node.block best h σ db ∧ h < best.length) ∧ K)
      (indexBlock C cfg node rebuilding h)
      (fun _ => Under A fun σ db => Upto C cfg node.block best (h + 1) σ db ∧ K)
      (Under A fun _ _ => ¬ Replayable C cfg best) := by
  unfold indexBlock
  refine Triple.bind ((getBlockHash_static hA hbest h).consequence (fun _ h => h)
    (fun _ _ h => h) ?_) fun hash => Triple.bind indexerState_triple fun state => ?_
  · intro w hw ha
    obtain ⟨⟨⟨-, hlt⟩, -⟩, hnone⟩ := hw ha
    rw [List.getElem?_eq_getElem hlt] at hnone
    cases hnone
  · refine Triple.ite (fun hc => ?_) fun _ =>
      (fetch_static hA rebuilding hash).strengthen (Under.mono ?_)
    · -- No record of a height above the cursor, so nothing is skipped.
      refine Triple.pure fun w hw ha => ?_
      obtain ⟨⟨⟨⟨hu, -⟩, -⟩, -⟩, rfl⟩ := hw ha
      rw [hu.no_undo (le_refl h)] at hc
      cases hc
    · rintro σ db ⟨⟨⟨⟨hu, -⟩, hk⟩, hb⟩, -⟩
      exact ⟨⟨hu, hb⟩, hk⟩

theorem indexBlocks_static (blocks : List CoreBlock) (rebuilding : Bool) (h n : Nat) {K : Prop} :
    Triple (Under A fun σ db => (Upto C cfg node.block blocks h σ db ∧
        (0 < n → blocks = best ∧ h + n ≤ best.length)) ∧ K)
      (indexBlocks C cfg node rebuilding h n)
      (fun _ => Under A fun σ db => Upto C cfg node.block blocks (h + n) σ db ∧ K)
      (Under A fun _ _ => ¬ Replayable C cfg best) := by
  induction n generalizing h with
  | zero => exact Triple.pure (Under.mono fun _ _ h => ⟨h.1.1, h.2⟩)
  | succ n ih =>
    unfold indexBlocks
    refine Triple.bind (((indexBlock_static hA hbest rebuilding h
      (K := (blocks = best ∧ h + (n + 1) ≤ best.length) ∧ K))).strengthen (Under.mono ?_))
      fun _ => ?_
    · rintro σ db ⟨⟨hu, hn⟩, hk⟩
      obtain ⟨rfl, hle⟩ := hn (by omega)
      exact ⟨⟨hu, by omega⟩, ⟨rfl, hle⟩, hk⟩
    · rw [show h + (n + 1) = h + 1 + n by omega]
      refine (ih (h + 1)).strengthen (Under.mono ?_)
      rintro σ db ⟨hu, ⟨rfl, hle⟩, hk⟩
      exact ⟨⟨hu, fun _ => ⟨rfl, by omega⟩⟩, hk⟩

/-- The loop catches up with a best chain that goes on from the indexed one, and does nothing
when the index has reached the tip. -/
theorem persistentWorker_static (blocks : List CoreBlock) (rebuilding : Bool) (h : Nat)
    (hne : best ≠ []) :
    Triple (Under A fun σ db => Upto C cfg node.block blocks h σ db ∧ (h ≤ best.length → blocks = best))
      (persistentWorker C cfg node rebuilding)
      (fun _ => Under A fun σ db => Upto C cfg node.block blocks (max h best.length) σ db ∧
        (h ≤ best.length → blocks = best))
      (Under A fun _ _ => ¬ Replayable C cfg best) := by
  have hlen : 0 < best.length := List.length_pos_of_ne_nil hne
  unfold persistentWorker
  refine Triple.bind (getBlockchainInfo_static hA hbest) fun tip =>
    Triple.bind indexerState_triple fun state => ?_
  refine (indexBlocks_static hA hbest blocks rebuilding _ _
    (K := (max (state.cursor.height + 1) cfg.genesisHeight = h ∧ tip + 1 = best.length) ∧
      (h ≤ best.length → blocks = best))).consequence
    (Under.mono ?_) (fun _ => Under.mono ?_) fun _ h => h
  · rintro σ db ⟨⟨⟨hu, hb⟩, htip⟩, rfl⟩
    rw [hu.next]
    exact ⟨⟨hu, fun hn => ⟨hb (by omega), by omega⟩⟩, ⟨rfl, by omega⟩, hb⟩
  · rintro σ db ⟨hu, ⟨hnext, htip⟩, hb⟩
    rw [hnext, htip] at hu
    rw [show max h best.length = h + (best.length - h) by omega]
    exact ⟨hu, hb⟩

/-! The reorg. -/

theorem findAncestor_static (blocks : List CoreBlock) (h a : Nat) {K : Prop} :
    Triple (Under A fun σ db => (Upto C cfg node.block blocks h σ db ∧
        (reorgFloor cfg < a → a < best.length)) ∧ K)
      (findAncestor node (reorgFloor cfg) a)
      (fun r => Under A fun σ db => Upto C cfg node.block blocks h σ db ∧
        (r ≤ a ∧ (reorgFloor cfg ≤ a → reorgFloor cfg ≤ r) ∧
          (reorgFloor cfg < r → r < h ∧ ∃ b b', blocks[r]? = some b ∧ best[r]? = some b' ∧
            b.hash = b'.hash)) ∧ K)
      (Under A fun _ _ => ¬ Replayable C cfg best) := by
  induction a with
  | zero =>
    refine Triple.pure (Under.mono ?_)
    rintro σ db ⟨⟨hu, -⟩, hk⟩
    exact ⟨hu, ⟨le_refl _, fun h => h, fun h => absurd h (by omega)⟩, hk⟩
  | succ a ih =>
    unfold findAncestor
    refine Triple.ite (fun hle => Triple.pure (Under.mono ?_)) fun hgt => ?_
    · rintro σ db ⟨⟨hu, -⟩, hk⟩
      exact ⟨hu, ⟨le_refl _, fun h => h, fun h => absurd h (by omega)⟩, hk⟩
    refine Triple.bind ((getBlockHash_static hA hbest (a + 1)).consequence (fun _ h => h)
      (fun _ _ h => h) ?_) fun coreHash => Triple.bind indexerState_triple fun state => ?_
    · intro w hw ha
      obtain ⟨⟨⟨-, hlt⟩, -⟩, hnone⟩ := hw ha
      rw [List.getElem?_eq_getElem (hlt (by omega))] at hnone
      cases hnone
    refine Triple.ite (fun hc => Triple.pure (Under.mono ?_)) fun _ => ?_
    · rintro σ db ⟨⟨⟨⟨hu, -⟩, hk⟩, b', hb', rfl⟩, rfl⟩
      -- A record at this height is the one of the indexed chain's block.
      have hlt : a + 1 < h := by
        by_contra hge
        rw [hu.no_undo (by omega)] at hc
        cases hc
      have hs : startHeight cfg ≤ a + 1 := by
        rw [startHeight_eq]
        omega
      have hlen : a + 1 < blocks.length := by
        have := hu.le_length (by omega)
        omega
      have hb := List.getElem?_eq_getElem hlen
      rw [hu.undo_hash hs hlt hb, Option.some.injEq] at hc
      exact ⟨hu, ⟨le_refl _, fun _ => by omega, fun _ => ⟨hlt, _, _, hb, hb', hc⟩⟩, hk⟩
    · refine ih.consequence (Under.mono ?_) (fun r => Under.mono ?_) fun _ h => h
      · rintro σ db ⟨⟨⟨⟨hu, hlt⟩, hk⟩, -⟩, -⟩
        exact ⟨⟨hu, fun h => by have := hlt (by omega); omega⟩, hk⟩
      · rintro σ db ⟨hu, ⟨hle, hfl, hr⟩, hk⟩
        exact ⟨hu, ⟨by omega, fun h => hfl (by omega), hr⟩, hk⟩

omit hbest in
theorem orphanBlock_triple (node : CoreNode) (blocks : List CoreBlock) (k : Nat) {K : Prop}
    {R : V3IndexerState → Db → Prop} :
    Triple (Under A fun σ db => (Upto C cfg node.block blocks (k + 1) σ db ∧ startHeight cfg ≤ k) ∧ K)
      (orphanBlock C cfg k) (fun _ => Under A fun σ db => Upto C cfg node.block blocks k σ db ∧ K)
      (Under A R) := by
  intro w hw
  unfold orphanBlock
  cases hundo : undoBlock C cfg w.state k with
  | error f =>
    intro ha
    obtain ⟨⟨hu, hs⟩, -⟩ := hw ha
    obtain ⟨undo, σ', hok, -⟩ := hu.orphan hs
    rw [hundo] at hok
    cases hok
  | ok staged =>
    cases hget : w.state.undoByHeight.get k with
    | none =>
      intro ha
      obtain ⟨⟨hu, hs⟩, -⟩ := hw ha
      obtain ⟨undo, σ', -, hsome, -⟩ := hu.orphan hs
      rw [hget] at hsome
      cases hsome
    | some undo =>
      intro ha
      obtain ⟨⟨hu, hs⟩, hk⟩ := hw (hA.orphan _ _ _ ha)
      obtain ⟨undo', σ', hok, hsome, hupto⟩ := hu.orphan hs
      obtain rfl : undo = undo' := Option.some.inj (hget.symm.trans hsome)
      obtain rfl : staged = σ' := Except.ok.inj (hundo.symm.trans hok)
      exact ⟨hupto, hk⟩

omit hbest in
/-- The blocks above the ancestor are orphaned, the last one first. -/
theorem orphanBlocks_triple (node : CoreNode) (blocks : List CoreBlock) (a c : Nat) {K : Prop}
    {R : V3IndexerState → Db → Prop} :
    Triple (Under A fun σ db => (Upto C cfg node.block blocks (max (c + 1) (startHeight cfg)) σ db ∧
        reorgFloor cfg ≤ a ∧ a ≤ max c (reorgFloor cfg)) ∧ K)
      (orphanBlocks C cfg a c) (fun _ => Under A fun σ db => Upto C cfg node.block blocks (a + 1) σ db ∧ K)
      (Under A R) := by
  have hstart := startHeight_eq cfg
  induction c with
  | zero =>
    refine Triple.pure (Under.mono ?_)
    rintro σ db ⟨⟨hu, hfl, hle⟩, hk⟩
    refine ⟨?_, hk⟩
    rwa [show max (0 + 1) (startHeight cfg) = a + 1 by omega] at hu
  | succ c ih =>
    unfold orphanBlocks
    refine Triple.ite (fun hlt => ?_) fun hge => Triple.pure (Under.mono ?_)
    · refine Triple.bind ((orphanBlock_triple hA node blocks (c + 1)
        (K := (reorgFloor cfg ≤ a ∧ a ≤ max (c + 1) (reorgFloor cfg)) ∧ K)).strengthen
        (Under.mono ?_)) fun _ => ih.strengthen (Under.mono ?_)
      · rintro σ db ⟨⟨hu, hfl, hle⟩, hk⟩
        rw [show max (c + 1 + 1) (startHeight cfg) = c + 1 + 1 by omega] at hu
        exact ⟨⟨hu, by omega⟩, ⟨hfl, hle⟩, hk⟩
      · rintro σ db ⟨hu, ⟨hfl, hle⟩, hk⟩
        rw [show max (c + 1) (startHeight cfg) = c + 1 by omega]
        exact ⟨⟨hu, hfl, by omega⟩, hk⟩
    · rintro σ db ⟨⟨hu, hfl, hle⟩, hk⟩
      refine ⟨?_, hk⟩
      rwa [show max (c + 1 + 1) (startHeight cfg) = a + 1 by omega] at hu

theorem replayBlock_static (h : Nat) {K : Prop} :
    Triple (Under A fun σ db => (Upto C cfg node.block best h σ db ∧ h < best.length) ∧ K)
      (replayBlock C cfg node h)
      (fun _ => Under A fun σ db => Upto C cfg node.block best (h + 1) σ db ∧ K)
      (Under A fun _ _ => ¬ Replayable C cfg best) := by
  unfold replayBlock
  refine Triple.bind ((getBlockHash_static hA hbest h).consequence (fun _ h => h)
    (fun _ _ h => h) ?_) fun hash => (fetch_static hA false hash).strengthen (Under.mono ?_)
  · intro w hw ha
    obtain ⟨⟨⟨-, hlt⟩, -⟩, hnone⟩ := hw ha
    rw [List.getElem?_eq_getElem hlt] at hnone
    cases hnone
  · rintro σ db ⟨⟨⟨hu, -⟩, hk⟩, hb⟩
    exact ⟨⟨hu, hb⟩, hk⟩

theorem replayBlocks_static (h n : Nat) {K : Prop} :
    Triple (Under A fun σ db => (Upto C cfg node.block best h σ db ∧ (0 < n → h + n ≤ best.length)) ∧ K)
      (replayBlocks C cfg node h n)
      (fun _ => Under A fun σ db => Upto C cfg node.block best (h + n) σ db ∧ K)
      (Under A fun _ _ => ¬ Replayable C cfg best) := by
  induction n generalizing h with
  | zero => exact Triple.pure (Under.mono fun _ _ h => ⟨h.1.1, h.2⟩)
  | succ n ih =>
    unfold replayBlocks
    refine Triple.bind (((replayBlock_static hA hbest h
      (K := h + (n + 1) ≤ best.length ∧ K))).strengthen (Under.mono ?_)) fun _ => ?_
    · rintro σ db ⟨⟨hu, hn⟩, hk⟩
      have hle := hn (by omega)
      exact ⟨⟨hu, by omega⟩, hle, hk⟩
    · rw [show h + (n + 1) = h + 1 + n by omega]
      refine (ih (h + 1)).strengthen (Under.mono ?_)
      rintro σ db ⟨hu, hle, hk⟩
      exact ⟨⟨hu, fun _ => by omega⟩, hk⟩

/-- A reorg to a best chain that stays put ends with that chain indexed to its tip. -/
theorem reorg_static (blocks : List CoreBlock) (h : Nat) :
    Triple (Under A fun σ db => Upto C cfg node.block blocks h σ db ∧ ValidChain C cfg node.block best)
      (reorgPersistentToTip C cfg node)
      (fun _ => Under A (Upto C cfg node.block best (max (startHeight cfg) best.length)))
      (Under A fun _ _ => ¬ Replayable C cfg best) := by
  have hstart := startHeight_eq cfg
  unfold reorgPersistentToTip
  refine Triple.bind (getBlockchainInfo_static hA hbest) fun tip =>
    Triple.bind indexerState_triple fun state => ?_
  -- What the assumption tells about the values read so far.
  let K := (ValidChain C cfg node.block best ∧ tip + 1 = best.length) ∧
    h = max (state.cursor.height + 1) (startHeight cfg)
  refine Triple.bind ((findAncestor_static hA hbest blocks h _ (K := K)).strengthen
    (Under.mono ?_)) fun a => Triple.bind ((orphanBlocks_triple hA node blocks a
      state.cursor.height (K := K ∧ (a ≤ max tip (reorgFloor cfg)) ∧
        (reorgFloor cfg < a → ∃ b b', blocks[a]? = some b ∧ best[a]? = some b' ∧
          b.hash = b'.hash) ∧ reorgFloor cfg ≤ a)).strengthen (Under.mono ?_)) fun _ =>
        (replayBlocks_static hA hbest (a + 1) (tip - a)
          (K := tip + 1 = best.length ∧ reorgFloor cfg ≤ a ∧ a ≤ max tip (reorgFloor cfg))).consequence
        (Under.mono ?_) (fun _ => Under.mono ?_) fun _ h => h
  · rintro σ db ⟨⟨⟨hu, hv⟩, htip⟩, rfl⟩
    have hlen : 0 < best.length := List.length_pos_of_ne_nil hv.nonempty
    have hnext := hu.next
    have hgen : cfg.genesisHeight ≤ startHeight cfg := by
      unfold startHeight
      omega
    have hs := hu.start_le
    exact ⟨⟨hu, fun hlt => by omega⟩, ⟨hv, by omega⟩, by unfold startHeight; omega⟩
  · rintro σ db ⟨hu, ⟨hle, hfl, hr⟩, hk⟩
    have hfloor := hfl (by omega)
    rw [hk.2] at hu
    exact ⟨⟨hu, hfloor, by omega⟩, hk, by omega, fun hlt => (hr hlt).2, hfloor⟩
  · rintro σ db ⟨hu, ⟨⟨hv, htip⟩, -⟩, hle, hr, hfl⟩
    have hupto : Upto C cfg node.block best (a + 1) σ db := by
      rcases Nat.eq_or_lt_of_le hfl with heq | hlt
      · rw [← heq, ← hstart] at hu ⊢
        exact hu.transfer_start hv
      · obtain ⟨b, b', hb, hb', hhash⟩ := hr hlt
        exact hu.transfer hv (hu.valid.agree hv hb hb' hhash)
    exact ⟨⟨hupto, fun hn => by omega⟩, htip, hfl, hle⟩
  · rintro σ db ⟨hu, htip, hfl, hle⟩
    rwa [show max (startHeight cfg) best.length = a + 1 + (tip - a) by omega]

end StaticRun

/-! The reorg as a whole. -/

section Replay

variable {C : Crypto} {cfg : V3IndexerConfig} {node : CoreNode} {best : List CoreBlock}

theorem History.trivial : History fun _ => True := ⟨fun _ h => h, fun _ _ _ _ h => h, fun _ _ _ h => h⟩

theorem Upto.full {source : Bytes → Option CoreBlock} {blocks : List CoreBlock} {σ : V3IndexerState}
    {db : Db}
    (hv : ValidChain C cfg source blocks) (hi : HoldsChain C cfg blocks σ db) :
    Upto C cfg source blocks (max (startHeight cfg) blocks.length) σ db := by
  refine ⟨hv, by omega, fun h => by omega, ?_⟩
  rwa [List.take_of_length_le (by omega)]

theorem Upto.holdsChain {source : Bytes → Option CoreBlock} {blocks : List CoreBlock}
    {σ : V3IndexerState} {db : Db}
    (hu : Upto C cfg source blocks (max (startHeight cfg) blocks.length) σ db) :
    HoldsChain C cfg blocks σ db := by
  have hh := hu.holds
  rwa [List.take_of_length_le (by omega)] at hh

/-- The tables of a chain are determined by it. -/
theorem Indexed.unique {chain : List V3BlockInput} {σ σ' : V3IndexerState} {db db' : Db}
    (h : Indexed C cfg chain σ db) (h' : Indexed C cfg chain σ' db') :
    σ = σ' ∧ SameProjection C cfg db db' := by
  induction h generalizing σ' db' with
  | new =>
    obtain ⟨rfl, rfl⟩ := h'.eq_new
    exact ⟨rfl, .refl _⟩
  | @persist chain σ₀ _ db₀ _ block _ _ _ hp ih =>
    obtain ⟨σ₁, db₁, _, hi', -, hp'⟩ := h'.last_step
    obtain ⟨rfl, hsame⟩ := ih hi'
    obtain ⟨events, ha⟩ := hp.applied
    obtain ⟨events', ha'⟩ := hp'.applied
    obtain ⟨rfl, -⟩ := Prod.mk.inj (Except.ok.inj (ha.symm.trans ha'))
    refine ⟨rfl, ?_⟩
    obtain ⟨undo, hu, hpb⟩ := (hp.of_same hsame).persisted
    obtain ⟨undo', hu', hpb'⟩ := hp'.persisted
    obtain rfl := Option.some.inj (hu.symm.trans hu')
    exact persistBlock_same hpb hpb'

/-- A new indexer holds the beginning of every chain. -/
theorem Upto.new {source : Bytes → Option CoreBlock} (hv : ValidChain C cfg source best) :
    Upto C cfg source best (startHeight cfg) (.new C cfg) .empty := by
  refine ⟨hv, le_refl _, fun h => absurd h (lt_irrefl _), Db.empty, ?_, .refl _⟩
  rw [segment_take_start]
  exact .new

/-- A fresh indexer on a chain that stays put ends with it indexed. -/
theorem fresh_holds (hbest : ∀ k, node.best k = best) (hv : ValidChain C cfg node.block best)
    {calls : Nat} {fresh : World}
    (h : persistentWorker C cfg node false ⟨.new C cfg, .empty, calls, []⟩ = .ok () fresh) :
    HoldsChain C cfg best fresh.state fresh.db := by
  have hrun := (persistentWorker_static History.trivial (fun w _ => hbest w.calls) best false
    (startHeight cfg) hv.nonempty).ok (fun _ => ⟨Upto.new hv, fun _ => rfl⟩) h
  exact (hrun trivial).1.holdsChain

/-- On a chain it can replay a fresh indexer gets to the tip. -/
theorem fresh_completes (hbest : ∀ k, node.best k = best) (hv : ValidChain C cfg node.block best)
    (hr : Replayable C cfg best) :
    ∃ fresh, persistentWorker C cfg node false ⟨.new C cfg, .empty, 0, []⟩ = .ok () fresh := by
  have hrun : Triple _ (persistentWorker C cfg node false) _ fun _ => False :=
    (persistentWorker_static History.trivial (fun w _ => hbest w.calls) best false
      (startHeight cfg) hv.nonempty).consequence (fun _ h => h) (fun _ _ h => h)
      fun _ h => h trivial hr
  obtain ⟨⟨⟩, fresh, hok, -⟩ := hrun.returns (s := ⟨.new C cfg, .empty, 0, []⟩)
    fun _ => ⟨Upto.new hv, fun _ => rfl⟩
  exact ⟨fresh, hok⟩

/-- A persistent reorg equals a replay: from the state and tables of any earlier chain, memory
and projection end as those of a fresh indexer on the new best chain. -/
theorem reorg_equals_replay {old : List CoreBlock} {w fresh : World}
    (hbest : ∀ k, node.best k = best) (hv : ValidChain C cfg node.block best)
    (ho : ValidChain C cfg node.block old) (hw : HoldsChain C cfg old w.state w.db)
    (hfresh : persistentWorker C cfg node false ⟨.new C cfg, .empty, 0, []⟩ = .ok () fresh) :
    ∃ w', reorgPersistentToTip C cfg node w = .ok () w' ∧ w'.state = fresh.state ∧
      SameProjection C cfg w'.db fresh.db := by
  obtain ⟨dbF, hF, hsameF⟩ := fresh_holds hbest hv hfresh
  have hreorg : Triple _ (reorgPersistentToTip C cfg node) _ fun _ => False :=
    (reorg_static History.trivial (fun w _ => hbest w.calls) old
      (max (startHeight cfg) old.length)).consequence (fun _ h => h) (fun _ _ h => h)
      fun _ h => h trivial ⟨_, hF.replays⟩
  obtain ⟨⟨⟩, w', hrun, hupto⟩ := hreorg.returns (s := w) fun _ => ⟨Upto.full ho hw, hv⟩
  obtain ⟨db', hi, hsame⟩ := (hupto trivial).holdsChain
  obtain ⟨hstate, hdb⟩ := hi.unique hF
  exact ⟨w', hrun, hstate, hsame.trans (hdb.trans hsameF.symm)⟩

end Replay

def coreBlock (hash parent : UInt8) (txs : List Transaction) : CoreBlock :=
  ⟨List.replicate 32 hash, List.replicate 32 parent, txs⟩

/-- The chain of the deploy and the mint. -/
def mintedChain : List CoreBlock :=
  [coreBlock 0xb0 0 [], coreBlock 0xb1 0xb0 [alphaDeploy], coreBlock 0xb2 0xb1 [alphaMint]]

/-- Another chain, where the mint was orphaned. -/
def orphaningChain : List CoreBlock :=
  [coreBlock 0xb0 0 [], coreBlock 0xb1 0xb0 [alphaDeploy], coreBlock 0xb3 0xb1 []]

/-- A node that stays on one chain and knows the blocks of two. -/
def staticNode (best other : List CoreBlock) : CoreNode where
  best _ := best
  block hash := (best ++ other).find? fun b => b.hash = hash

theorem minted_valid : ValidChain sampleCrypto sampleConfig
    (staticNode orphaningChain mintedChain).block mintedChain := by decide +kernel

theorem orphaning_valid : ValidChain sampleCrypto sampleConfig
    (staticNode orphaningChain mintedChain).block orphaningChain := by decide +kernel

theorem orphaning_replayable : Replayable sampleCrypto sampleConfig orphaningChain := by
  obtain ⟨σ₁, _, _, _, _, h₁, -⟩ := sample_applies
  have hempty : ActiveBlock sampleCrypto sampleConfig [deployBlock] (inputAt 2 (coreBlock 0xb3 0xb1 [])) := by
    decide +kernel
  have hstep : applyBlock sampleCrypto sampleConfig σ₁ (inputAt 2 (coreBlock 0xb3 0xb1 [])) =
      .ok (_, _) := (applyBlock_eq_ok hempty.active).mpr ⟨⟨σ₁.toLedger, [], []⟩, rfl, rfl, rfl⟩
  exact ⟨_, .step (.step .new deployBlock_active h₁) hempty hstep⟩

/-- The mint is reorged out. -/
theorem reorg_equals_replay_sample : ∃ w w' fresh,
    HoldsChain sampleCrypto sampleConfig mintedChain w.state w.db ∧
      reorgPersistentToTip sampleCrypto sampleConfig (staticNode orphaningChain mintedChain) w =
        .ok () w' ∧
      persistentWorker sampleCrypto sampleConfig (staticNode orphaningChain mintedChain) false
        ⟨.new sampleCrypto sampleConfig, .empty, 0, []⟩ = .ok () fresh ∧
      w'.state = fresh.state ∧ SameProjection sampleCrypto sampleConfig w'.db fresh.db := by
  obtain ⟨σ, _, hσ, -⟩ := sample_reachable
  obtain ⟨db, hl⟩ := hσ.lockstep
  have hw : HoldsChain sampleCrypto sampleConfig mintedChain σ db := hl.indexed
  have hbest : ∀ k, (staticNode orphaningChain mintedChain).best k = orphaningChain := fun _ => rfl
  obtain ⟨fresh, hfresh⟩ := fresh_completes hbest orphaning_valid orphaning_replayable
  obtain ⟨w', hrun, hstate, hdb⟩ := reorg_equals_replay (w := ⟨σ, db, 0, []⟩) hbest orphaning_valid
    minted_valid hw hfresh
  exact ⟨⟨σ, db, 0, []⟩, w', fresh, hw, hrun, hfresh, hstate, hdb⟩

end Cove
