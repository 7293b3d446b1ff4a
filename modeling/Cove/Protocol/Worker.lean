import Cove.Lib.HashChain
import Cove.Lib.Hoare
import Cove.Protocol.Store

/-! The V1 worker: `cmdWorker` of `packages/cove-indexer/src/cli.ts`. The process may be killed
before any of its transactions. -/

namespace Cove

open Checked

namespace Protocol

/-- The database, and how many transactions the process lives to commit. -/
structure WorkerWorld where
  db : CoveTables
  left : Nat
  deriving DecidableEq

/-- Of the errors a block may end in any may be the one thrown. -/
abbrev CoveWorker := EStateM (Multiset Fault) WorkerWorld

def plainFault (message : String) : Multiset Fault := {⟨none, message⟩}

def lifted {α : Type} (x : Except (Multiset Fault) α) : CoveWorker α := fun w =>
  match x with
  | .ok a => .ok a w
  | .error e => .error e w

def readTables : CoveWorker CoveTables := fun w => .ok w.db w

/-- One transaction: it is done as a whole or not at all. -/
def commit (f : CoveTables → Except Fault CoveTables) : CoveWorker Unit := fun w =>
  match w.left, f w.db with
  | 0, _ => .error (plainFault "killed") w
  | _ + 1, .error fault => .error {fault} w
  | left + 1, .ok db => .ok () ⟨db, left⟩

section

variable (config : CoveConfig) (node : List ServedBlock)
  (listing : (σ : CoveState) → σ.Listing)

/-- The best chain from the first block of Bitcoin on; its tip is its last block. -/
def bestHeight : Nat := node.length - 1

def fetchBlockWithRetry (height : Nat) : Except (Multiset Fault) ServedBlock :=
  demand node[height]? (plainFault s!"getBlockHash {height} failed after 4 retries")

/-- The next blocks from a height on, so many of them. -/
def scanRange (ix : CoveIndexer) (height : Nat) : Nat → Except (Multiset Fault) CoveIndexer
  | 0 => .ok ix
  | n + 1 => do
    let block ← fetchBlockWithRetry node height
    let ix ← ix.processBlock config height block.txs
    scanRange ix (height + 1) n

def scanAndPersist (ix : CoveIndexer) (height : Nat) : Nat → CoveWorker CoveIndexer
  | 0 => pure ix
  | n + 1 => do
    let block ← lifted (fetchBlockWithRetry node height)
    let ix ← lifted (ix.processBlock config height block.txs)
    commit fun t => persistBlock t height block.hash block.previousBlockHash (listing ix.state)
      ix.events (ix.getStateRoot config)
    scanAndPersist ix (height + 1) n

structure Running where
  indexer : CoveIndexer
  from' : Nat

def newIndexer : Except (Multiset Fault) CoveIndexer :=
  (CoveIndexer.new config).mapError fun fault => {fault}

/-- The checks of the cursor behind the replay. -/
def checkCheckpoint (t : CoveTables) (cursor : CoveCursorRow) (ix : CoveIndexer) :
    Except (Multiset Fault) Unit := do
  let missing := plainFault s!"missing checkpoint at cursor height {cursor.height}"
  let cp ← demand (getLatestCheckpoint t) missing
  ensure (cp.1 = cursor.height) missing
  ensure (cp.2.blockHash = cursor.blockHash)
    (plainFault s!"checkpoint/cursor block hash mismatch at {cursor.height}")
  ensure (cp.2.stateRoot = ix.getStateRoot config)
    (plainFault (s!"checkpoint mismatch at {cursor.height}: persisted " ++
      Bytes.utf8Text cp.2.stateRoot.hexText ++ " != replay " ++
      Bytes.utf8Text (ix.getStateRoot config).hexText))

def reconstruct (t : CoveTables) : Except (Multiset Fault) Running := do
  let ix ← newIndexer config
  match t.cursor with
  | none => return ⟨ix, config.genesis⟩
  | some cursor => do
    let ix ← scanRange config node ix config.genesis (cursor.height + 1 - config.genesis)
    checkCheckpoint config t cursor ix
    return ⟨ix, cursor.height + 1⟩

def rebuild : CoveWorker Running := do
  commit fun t => .ok (setRebuilding t true)
  commit fun t => .ok (clearCove t)
  let ix ← lifted (newIndexer config)
  let ix ← scanAndPersist config node listing ix config.genesis
    (bestHeight node + 1 - config.genesis)
  commit fun t => .ok (setRebuilding t false)
  return ⟨ix, bestHeight node + 1⟩

def advance (r : Running) : CoveWorker Running := do
  if bestHeight node < r.from' then return r
  else
    let ix ← scanAndPersist config node listing r.indexer r.from' (bestHeight node + 1 - r.from')
    return ⟨ix, bestHeight node + 1⟩

/-- One turn of the loop. A call for the cursor's hash that fails is tried again in the next. -/
def poll (r : Running) : CoveWorker Running := do
  let t ← readTables
  match t.cursor with
  | none => advance config node listing r
  | some stored =>
    if bestHeight node < stored.height then rebuild config node listing
    else
      match node[stored.height]? with
      | none => return r
      | some block =>
        if block.hash ≠ stored.blockHash then rebuild config node listing
        else advance config node listing r

/-- The start, and the first turn of the loop. -/
def cmdWorker : CoveWorker Running := do
  let t ← readTables
  let r ← lifted (reconstruct config node t)
  poll config node listing r

end

/-! What the runs of the worker leave behind. -/

/-- The blocks from the activation height on. -/
def active (config : CoveConfig) (node : List ServedBlock) : List ServedBlock :=
  node.drop config.genesis

/-- What Bitcoin guarantees of the best chains of a node at different times: blocks are linked by
hashes that name one block each, no transaction of a chain repeats, and the activation is near. -/
structure BestChains (config : CoveConfig) (start : Bytes) (chains : Set (List ServedBlock)) :
    Prop where
  linked : ∀ c ∈ chains, HashChain.Chained ServedBlock.previousBlockHash ServedBlock.hash start c
  hash_inj : ∀ c ∈ chains, ∀ c' ∈ chains, ∀ b ∈ c, ∀ b' ∈ c', b.hash = b'.hash → b = b'
  hash_ne : ∀ c ∈ chains, ∀ b ∈ c, b.hash ≠ start
  txids : ∀ c ∈ chains, (txidsOf (active config c)).Nodup
  nonempty : ∀ c ∈ chains, c ≠ []
  reaches : ∀ c ∈ chains, config.genesis ≤ c.length

section

variable {config : CoveConfig} {start : Bytes} {chains : Set (List ServedBlock)}
  {node : List ServedBlock} {listing : (σ : CoveState) → σ.Listing} {history : List ServedBlock}
  {ix : CoveIndexer} {r : Running}

theorem txidsOf_append (l l' : List ServedBlock) : txidsOf (l ++ l') = txidsOf l ++ txidsOf l' :=
  List.flatMap_append

theorem prefix_nodup_txids (h : history <+: active config node)
    (hunique : (txidsOf (active config node)).Nodup) : (txidsOf history).Nodup := by
  obtain ⟨rest, hrest⟩ := h
  rw [← hrest, txidsOf_append] at hunique
  exact (List.nodup_append.mp hunique).1

/-- The block behind a piece of the chain. -/
theorem next_served {n : Nat} (hpre : history <+: active config node)
    (hn : config.genesis + history.length + (n + 1) ≤ node.length) :
    ∃ block, node[config.genesis + history.length]? = some block ∧
      history ++ [block] <+: active config node := by
  obtain ⟨rest, hrest⟩ := hpre
  have hlen := congrArg List.length hrest
  rw [List.length_append, active, List.length_drop] at hlen
  cases rest with
  | nil =>
    rw [List.length_nil] at hlen
    omega
  | cons block rest =>
    refine ⟨block, ?_, rest, by rw [← hrest, List.append_assoc]; rfl⟩
    rw [← List.getElem?_drop]
    change (active config node)[history.length]? = some block
    rw [← hrest, List.getElem?_append_right (le_refl _), Nat.sub_self]
    rfl

/-- A block of one hash at one height has one past. -/
theorem BestChains.same_past (h : BestChains config start chains) {l l' : List ServedBlock}
    (hc : l ∈ chains) (hc' : l' ∈ chains) {height : Nat} {b b' : ServedBlock}
    (hb : l[height]? = some b) (hb' : l'[height]? = some b') (hhash : b.hash = b'.hash) :
    l.take (height + 1) = l'.take (height + 1) := by
  have hchained : ∀ l ∈ chains, HashChain.Chained ServedBlock.previousBlockHash ServedBlock.hash
      start (l.take (height + 1)) := by
    intro l hc
    have hlinked := h.linked l hc
    rw [← List.take_append_drop (height + 1) l] at hlinked
    exact (HashChain.chained_append.mp hlinked).1
  have htake : ∀ (l : List ServedBlock) (b : ServedBlock), l[height]? = some b →
      l.take (height + 1) = l.take height ++ [b] := by
    intro l b hb
    rw [List.take_add_one, hb]
    rfl
  have hsame := HashChain.map_eq_of_head (f := id) (hchained l hc) (hchained l' hc') ?_ ?_ ?_
  · simpa using hsame
  · intro x hx y hy hxy
    have heq := h.hash_inj l hc l' hc' x (List.mem_of_mem_take hx) y (List.mem_of_mem_take hy) hxy
    rw [heq]
    exact ⟨rfl, rfl⟩
  · intro x hx
    rcases List.mem_append.mp hx with hx | hx
    · exact h.hash_ne l hc x (List.mem_of_mem_take hx)
    · exact h.hash_ne l' hc' x (List.mem_of_mem_take hx)
  · rw [htake l b hb, htake l' b' hb', HashChain.head_concat, HashChain.head_concat, hhash]

/-- Where two chains agree on the hash of a block, all before it is of both. -/
theorem BestChains.prefix_of_hash (h : BestChains config start chains) {l : List ServedBlock}
    (hc : l ∈ chains) (hnode : node ∈ chains) {b block : ServedBlock}
    (hpre : history ++ [b] <+: active config l)
    (hblock : node[config.genesis + history.length]? = some block) (hhash : block.hash = b.hash) :
    history ++ [b] <+: active config node := by
  have hat : l[config.genesis + history.length]? = some b := by
    rw [← List.getElem?_drop]
    obtain ⟨rest, hrest⟩ := hpre
    change (active config l)[history.length]? = some b
    rw [← hrest, List.append_assoc, List.getElem?_append_right (le_refl _), Nat.sub_self]
    rfl
  have hpast := h.same_past hc hnode hat hblock hhash.symm
  have hdrop : (active config l).take (history.length + 1) =
      (active config node).take (history.length + 1) := by
    have hcut := congrArg (List.drop config.genesis) hpast
    rw [List.drop_take, List.drop_take] at hcut
    have hcount : config.genesis + history.length + 1 - config.genesis = history.length + 1 := by
      omega
    rw [hcount] at hcut
    exact hcut
  have hall := List.prefix_iff_eq_take.mp hpre
  rw [List.length_append, List.length_singleton, hdrop] at hall
  rw [hall]
  exact List.take_prefix _ _

end

/-! What each piece of the worker leaves behind. -/

/-- Tables with a property, and so many of the transactions of the process behind. -/
def Spent (k m : Nat) (P : CoveTables → Prop) (w : WorkerWorld) : Prop :=
  P w.db ∧ w.left + m = k

/-- The tables of a replay of blocks that some best chain had. -/
def OnServed (config : CoveConfig) (chains : Set (List ServedBlock)) (t : CoveTables) : Prop :=
  ∃ history ix, (history = [] ∨ ∃ c ∈ chains, history <+: active config c) ∧
    Projects config history ix t

/-- The process was killed before so many transactions. -/
def Cut (config : CoveConfig) (chains : Set (List ServedBlock)) (k n : Nat) (w : WorkerWorld) :
    Prop :=
  k < n ∧ OnServed config chains w.db

section

variable {config : CoveConfig} {start : Bytes} {chains : Set (List ServedBlock)}
  {node : List ServedBlock} {listing : (σ : CoveState) → σ.Listing} {history : List ServedBlock}
  {ix ix' : CoveIndexer} {r : Running} {t : CoveTables} {n k m : Nat}

@[simp] theorem lifted_ok_bind {α β : Type} (a : α) (f : α → CoveWorker β) :
    lifted (.ok a) >>= f = f a := rfl

theorem Cut.mono {w : WorkerWorld} (h : Cut config chains k m w) (hle : m ≤ n) :
    Cut config chains k n w := ⟨h.1.trans_le hle, h.2⟩

/-- What is read are tables with the property. -/
theorem readTables_bind {α : Type} {f : CoveTables → CoveWorker α} {P : CoveTables → Prop}
    {Q : α → WorkerWorld → Prop} {R : WorkerWorld → Prop}
    (h : ∀ t, P t → Triple (Spent k m P) (f t) Q R) :
    Triple (Spent k m P) (readTables >>= f) Q R := by
  intro w hw
  exact h w.db hw.1 w hw

/-- A transaction that cannot fail is not done only where the process is killed before it. -/
theorem commit_spec {f : CoveTables → Except Fault CoveTables} {P Q : CoveTables → Prop}
    (h : ∀ t, P t → ∃ t', f t = .ok t' ∧ Q t') :
    Triple (Spent k m P) (commit f) (fun _ => Spent k (m + 1) Q) (fun w => k ≤ m ∧ P w.db) := by
  intro w hw
  obtain ⟨db, left⟩ := w
  obtain ⟨hP, rfl⟩ := hw
  obtain ⟨t', hf, hQ⟩ := h db hP
  cases left with
  | zero => exact ⟨by simp, hP⟩
  | succ left =>
    simp only [commit, hf]
    exact ⟨hQ, by dsimp only; omega⟩

theorem newIndexer_ok (hgenesis : 0 ≤ config.genesisHeight) :
    ∃ ix, newIndexer config = .ok ix ∧ Replays config [] ix := by
  have hnew : ∃ ix, CoveIndexer.new config = .ok ix := by
    simp [CoveIndexer.new, ensure, hgenesis, bind, Except.bind, pure, Except.pure]
  obtain ⟨ix, hix⟩ := hnew
  refine ⟨ix, ?_, .new hix⟩
  rw [newIndexer, hix]
  rfl

/-- A piece of the chain with as many of its blocks behind it. -/
theorem prefix_take (h : history <+: active config node) :
    (active config node).take history.length = history :=
  (List.prefix_iff_eq_take.mp h).symm

theorem fetchBlockWithRetry_ok {height : Nat} {block : ServedBlock}
    (h : node[height]? = some block) : fetchBlockWithRetry node height = .ok block :=
  (demand_eq_ok _ _ _).mpr h

/-- The scan over blocks that the node has. -/
theorem scanRange_ok (hfee : 0 ≤ config.primaryMintFeeBps) (h : Replays config history ix)
    (hpre : history <+: active config node)
    (hn : config.genesis + history.length + n ≤ node.length) : ∃ ix',
    scanRange config node ix (config.genesis + history.length) n = .ok ix' ∧
      Replays config ((active config node).take (history.length + n)) ix' := by
  induction n generalizing history ix with
  | zero =>
    refine ⟨ix, rfl, ?_⟩
    rw [Nat.add_zero, prefix_take hpre]
    exact h
  | succ n ih =>
    obtain ⟨block, hblock, hnext⟩ := next_served hpre hn
    obtain ⟨ix₁, hprocess, hreplays⟩ := h.next hfee block
    have hlen : (history ++ [block]).length = history.length + 1 := by simp
    obtain ⟨ix', hrun, htake⟩ := ih hreplays hnext (by rw [hlen]; omega)
    refine ⟨ix', ?_, ?_⟩
    · rw [scanRange, fetchBlockWithRetry_ok hblock]
      change (ix.processBlock config _ _ >>= _) = _
      rw [hprocess]
      rw [hlen, ← Nat.add_assoc] at hrun
      exact hrun
    · rw [hlen, Nat.add_assoc, Nat.add_comm 1 n] at htake
      exact htake

/-- A scan that ends has met no height above the tip. -/
theorem scanRange_reaches {height : Nat} (h : scanRange config node ix height n = .ok ix') :
    n = 0 ∨ height + n ≤ node.length := by
  induction n generalizing ix height with
  | zero => exact Or.inl rfl
  | succ n ih =>
    simp only [scanRange, bind_eq_ok] at h
    obtain ⟨block, hblock, ix₁, -, hrest⟩ := h
    have hlt := (List.getElem?_eq_some_iff.mp ((demand_eq_ok _ _ _).mp hblock)).1
    rcases ih hrest with hzero | hle
    · right
      omega
    · right
      omega

theorem Projects.onServed (h : Projects config history ix t) (hnode : node ∈ chains)
    (hpre : history <+: active config node) : OnServed config chains t :=
  ⟨history, ix, Or.inr ⟨node, hnode, hpre⟩, h⟩

/-- The same of tables that are a picture of what some chain had. -/
theorem commit_served {f : CoveTables → Except Fault CoveTables} {P Q : CoveTables → Prop}
    (h : ∀ t, P t → ∃ t', f t = .ok t' ∧ Q t') (hm : m < n)
    (hP : ∀ t, P t → OnServed config chains t) :
    Triple (Spent k m P) (commit f) (fun _ => Spent k (m + 1) Q)
      (Cut config chains k n) := by
  refine (commit_spec h).consequence (fun _ hw => hw) (fun _ _ hw => hw) ?_
  intro w hw
  exact ⟨by omega, hP w.db hw.2⟩

/-- Of the next blocks each is persisted, or the process was killed before one of them. -/
theorem scanAndPersist_spec (hfee : 0 ≤ config.primaryMintFeeBps)
    (hchains : BestChains config start chains) (hnode : node ∈ chains)
    (hpre : history <+: active config node)
    (hn : config.genesis + history.length + n ≤ node.length) :
    Triple (Spent k m (Projects config history ix))
      (scanAndPersist config node listing ix (config.genesis + history.length) n)
      (fun ix' => Spent k (m + n)
        (Projects config ((active config node).take (history.length + n)) ix'))
      (Cut config chains k (m + n)) := by
  induction n generalizing history ix m with
  | zero =>
    rw [Nat.add_zero, Nat.add_zero, prefix_take hpre]
    exact .pure fun _ hw => hw
  | succ n ih =>
    intro w hw
    obtain ⟨block, hblock, hnext⟩ := next_served hpre hn
    obtain ⟨ix₁, hprocess, -⟩ := hw.1.replays.next hfee block
    have hpersist : ∀ t, Projects config history ix t → ∃ t', persistBlock t
        (config.genesis + history.length) block.hash block.previousBlockHash
        (listing ix₁.state) ix₁.events (ix₁.getStateRoot config) = .ok t' ∧
          Projects config (history ++ [block]) ix₁ t' := by
      intro t ht
      have hunique := prefix_nodup_txids hnext (hchains.txids node hnode)
      exact ht.persist hfee hprocess hunique (listing ix₁.state)
    have hfirst : Triple (Spent k m (Projects config history ix)) _ _
        (Cut config chains k (m + (n + 1))) :=
      commit_served hpersist (by omega) fun t ht => ht.onServed hnode hpre
    have hlen : (history ++ [block]).length = history.length + 1 := by simp
    have hfits : config.genesis + (history ++ [block]).length + n ≤ node.length := by
      rw [hlen]
      omega
    have hrest := @ih (history ++ [block]) ix₁ (m + 1) hnext hfits
    rw [hlen, Nat.add_assoc m, Nat.add_assoc history.length, Nat.add_comm 1 n] at hrest
    rw [scanAndPersist, fetchBlockWithRetry_ok hblock, lifted_ok_bind, hprocess, lifted_ok_bind]
    exact Triple.bind hfirst (fun _ => hrest) w hw

theorem BestChains.length_eq (h : BestChains config start chains) (hnode : node ∈ chains) :
    node.length = config.genesis + (active config node).length := by
  have hreaches := h.reaches node hnode
  rw [active, List.length_drop]
  omega

theorem BestChains.bestHeight_succ (h : BestChains config start chains) (hnode : node ∈ chains) :
    bestHeight node + 1 = config.genesis + (active config node).length := by
  have hpos := List.length_pos_iff.mpr (h.nonempty node hnode)
  have hlen := h.length_eq hnode
  rw [bestHeight]
  omega

/-- The tables and the process after the last block of the node. -/
def UpToDate (config : CoveConfig) (node : List ServedBlock) (r : Running) (t : CoveTables) :
    Prop :=
  Projects config (active config node) r.indexer t ∧
    r.from' = config.genesis + (active config node).length

theorem OnServed.setRebuilding (h : OnServed config chains t) (rebuilding : Bool) :
    OnServed config chains (setRebuilding t rebuilding) := by
  obtain ⟨history, ix, hknown, hprojects⟩ := h
  exact ⟨history, ix, hknown, hprojects.setRebuilding rebuilding⟩

/-- The blocks up to the tip, all of them persisted. -/
theorem scanToTip_spec (hfee : 0 ≤ config.primaryMintFeeBps)
    (hchains : BestChains config start chains) (hnode : node ∈ chains)
    (hpre : history <+: active config node)
    (hn : history.length + n = (active config node).length) :
    Triple (Spent k m (Projects config history ix))
      (scanAndPersist config node listing ix (config.genesis + history.length)
        (bestHeight node + 1 - (config.genesis + history.length)))
      (fun ix' => Spent k (m + n) (Projects config (active config node) ix'))
      (Cut config chains k (m + n)) := by
  have hbest := hchains.bestHeight_succ hnode
  have hlen := hchains.length_eq hnode
  have hcount : bestHeight node + 1 - (config.genesis + history.length) = n := by omega
  have hwhole : (active config node).take (history.length + n) = active config node := by
    rw [hn, List.take_length]
  have hscan : Triple (Spent k m (Projects config history ix))
      (scanAndPersist config node listing ix (config.genesis + history.length) n) _ _ :=
    scanAndPersist_spec hfee hchains hnode hpre (by omega)
  rw [hwhole] at hscan
  rw [hcount]
  exact hscan

/-- A rebuild ends with the node's chain, whatever was there before it. -/
theorem rebuild_spec (hgenesis : 0 ≤ config.genesisHeight) (hfee : 0 ≤ config.primaryMintFeeBps)
    (hchains : BestChains config start chains) (hnode : node ∈ chains) :
    Triple (Spent k 0 (OnServed config chains)) (rebuild config node listing)
      (fun r w => UpToDate config node r w.db)
      (Cut config chains k ((active config node).length + 3)) := by
  obtain ⟨ix, hix, hreplays⟩ := newIndexer_ok hgenesis
  generalize hn : (active config node).length = n
  have hmark : Triple (Spent k 0 (OnServed config chains))
      (commit fun t => .ok (setRebuilding t true))
      (fun _ => Spent k 1 (OnServed config chains)) (Cut config chains k (n + 3)) :=
    commit_served (fun t ht => ⟨_, rfl, ht.setRebuilding true⟩) (by omega) fun t ht => ht
  have hclear : Triple (Spent k 1 (OnServed config chains))
      (commit fun t => .ok (clearCove t))
      (fun _ => Spent k 2 (Projects config [] ix)) (Cut config chains k (n + 3)) :=
    commit_served (fun t _ => ⟨_, rfl, Projects.empty hreplays⟩) (by omega) fun t ht => ht
  have hscan : Triple (Spent k 2 (Projects config [] ix))
      (scanAndPersist config node listing ix config.genesis
        (bestHeight node + 1 - config.genesis))
      (fun ix' => Spent k (2 + n) (Projects config (active config node) ix'))
      (Cut config chains k (2 + n)) :=
    scanToTip_spec hfee hchains hnode List.nil_prefix (by simpa using hn.symm)
  have hunmark : ∀ ix', Triple (Spent k (2 + n) (Projects config (active config node) ix'))
      (commit fun t => .ok (setRebuilding t false))
      (fun _ => Spent k (2 + n + 1) (Projects config (active config node) ix'))
      (Cut config chains k (n + 3)) := by
    intro ix'
    exact commit_served (fun t ht => ⟨_, rfl, ht.setRebuilding false⟩) (by omega)
      fun t ht => ht.onServed hnode List.prefix_rfl
  rw [rebuild]
  refine Triple.bind hmark fun _ => Triple.bind hclear fun _ => ?_
  rw [hix, lifted_ok_bind]
  refine Triple.bind (hscan.weaken fun w hw => hw.mono (by omega)) fun ix' => ?_
  refine Triple.bind (hunmark ix') fun _ => Triple.pure ?_
  intro w hw
  exact ⟨hw.1, hchains.bestHeight_succ hnode⟩

/-- What remains of the chain is read behind what the tables show. -/
theorem advance_spec (hfee : 0 ≤ config.primaryMintFeeBps)
    (hchains : BestChains config start chains) (hnode : node ∈ chains)
    (hpre : history <+: active config node) (hfrom : r.from' = config.genesis + history.length) :
    Triple (Spent k 0 (Projects config history r.indexer)) (advance config node listing r)
      (fun r w => UpToDate config node r w.db)
      (Cut config chains k ((active config node).length + 3)) := by
  have hbest := hchains.bestHeight_succ hnode
  rw [advance]
  refine Triple.ite ?_ ?_
  · intro hpast
    refine Triple.pure fun w hw => ?_
    have hall : history = active config node :=
      hpre.eq_of_length_le (by omega)
    rw [UpToDate, ← hall]
    exact ⟨hw.1, hfrom⟩
  · intro hahead
    have hle := hpre.length_le
    generalize hn : (active config node).length - history.length = n
    have hscan : Triple (Spent k 0 (Projects config history r.indexer))
        (scanAndPersist config node listing r.indexer (config.genesis + history.length)
          (bestHeight node + 1 - (config.genesis + history.length)))
        (fun ix' => Spent k (0 + n) (Projects config (active config node) ix'))
        (Cut config chains k (0 + n)) :=
      scanToTip_spec hfee hchains hnode hpre (by omega)
    rw [hfrom]
    refine Triple.bind (hscan.weaken fun w hw => hw.mono (by omega)) fun ix' => Triple.pure ?_
    intro w hw
    exact ⟨hw.1, hbest⟩

/-- Every turn of the loop ends with the node's chain, be the tables of this one or of another. -/
theorem poll_spec (hgenesis : 0 ≤ config.genesisHeight) (hfee : 0 ≤ config.primaryMintFeeBps)
    (hchains : BestChains config start chains) (hnode : node ∈ chains)
    (hknown : history = [] ∨ ∃ c ∈ chains, history <+: active config c)
    (hready : history <+: active config node →
      r.indexer = ix ∧ r.from' = config.genesis + history.length) :
    Triple (Spent k 0 (Projects config history ix)) (poll config node listing r)
      (fun r w => UpToDate config node r w.db)
      (Cut config chains k ((active config node).length + 3)) := by
  have hadvance : history <+: active config node →
      Triple (Spent k 0 (Projects config history ix)) (advance config node listing r)
        (fun r w => UpToDate config node r w.db)
        (Cut config chains k ((active config node).length + 3)) := by
    intro hpre
    obtain ⟨rfl, hfrom⟩ := hready hpre
    exact advance_spec hfee hchains hnode hpre hfrom
  have hrebuild : Triple (Spent k 0 (Projects config history ix))
      (rebuild config node listing) (fun r w => UpToDate config node r w.db)
      (Cut config chains k ((active config node).length + 3)) :=
    (rebuild_spec hgenesis hfee hchains hnode).strengthen
      fun w hw => ⟨⟨history, ix, hknown, hw.1⟩, hw.2⟩
  rw [poll]
  refine readTables_bind fun t ht => ?_
  cases history using List.reverseRecOn with
  | nil =>
    rw [ht.cursor_none]
    exact hadvance List.nil_prefix
  | append_singleton pre block =>
    obtain ⟨cursor, hcursor, hheight, hhash⟩ := ht.cursor_some
    rw [hcursor]
    refine Triple.ite (fun _ => hrebuild) fun hreached => ?_
    have hpos := List.length_pos_iff.mpr (hchains.nonempty node hnode)
    have hlt : cursor.height < node.length := by
      rw [bestHeight] at hreached
      omega
    obtain ⟨served, hserved⟩ : ∃ served, node[cursor.height]? = some served :=
      ⟨_, List.getElem?_eq_getElem hlt⟩
    rw [hserved]
    refine Triple.ite (fun _ => hrebuild) fun hsame => hadvance ?_
    rw [ne_eq, not_not, hhash] at hsame
    rw [hheight] at hserved
    obtain ⟨c, hc, hpre⟩ := hknown.resolve_left (by simp)
    exact hchains.prefix_of_hash hc hnode hpre hserved hsame

/-- The scan from the activation height on. -/
theorem scanFromGenesis_ok (hfee : 0 ≤ config.primaryMintFeeBps) (h : Replays config [] ix)
    (hn : config.genesis + n ≤ node.length) : ∃ ix',
    scanRange config node ix config.genesis n = .ok ix' ∧
      Replays config ((active config node).take n) ix' := by
  simpa using scanRange_ok (n := n) hfee h (List.nil_prefix : [] <+: active config node)
    (by simpa using hn)

/-- The node has as many blocks as the tables, and they come to the same root. -/
def Resumes (config : CoveConfig) (node history : List ServedBlock) (ix : CoveIndexer) : Prop :=
  history.length ≤ (active config node).length ∧ ∃ ix',
    Replays config ((active config node).take history.length) ix' ∧
      ix'.getStateRoot config = ix.getStateRoot config

theorem checkCheckpoint_eq_ok {block : ServedBlock} {cursor : CoveCursorRow}
    (ht : Projects config (history ++ [block]) ix t) (hcursor : t.cursor = some cursor) :
    checkCheckpoint config t cursor ix' = .ok () ↔
      ix'.getStateRoot config = ix.getStateRoot config := by
  obtain ⟨row, hrow, hheight, hhash⟩ := ht.cursor_some
  rw [hcursor, Option.some.injEq] at hrow
  subst hrow
  simp only [checkCheckpoint, bind_eq_ok, demand_eq_ok, ensure_eq_ok, ht.latest, Option.some.injEq,
    exists_eq_left', hheight, hhash, true_and, exists_const]
  exact eq_comm

/-- A start on a node with as many blocks, the cursor of the last of them. -/
theorem reconstruct_eq_ok (hfee : 0 ≤ config.primaryMintFeeBps)
    (hreaches : config.genesis ≤ node.length) (ht : Projects config history ix t) :
    reconstruct config node t = .ok r ↔ history.length ≤ (active config node).length ∧
      Replays config ((active config node).take history.length) r.indexer ∧
      r.indexer.getStateRoot config = ix.getStateRoot config ∧
      r.from' = config.genesis + history.length := by
  obtain ⟨ix₀, hnew, hreplays⟩ := newIndexer_ok ht.replays.genesis_nonneg
  rw [reconstruct, hnew]
  cases history using List.reverseRecOn with
  | nil =>
    rw [ht.cursor_none]
    change Except.ok (⟨ix₀, config.genesis⟩ : Running) = .ok r ↔ _
    rw [Except.ok.injEq]
    constructor
    · rintro rfl
      exact ⟨Nat.zero_le _, hreplays, by rw [Indexed.unique hreplays ht.replays], rfl⟩
    · intro h
      obtain ⟨-, hr, -, hfrom⟩ := h
      obtain ⟨rix, rfrom⟩ := r
      rw [Running.mk.injEq]
      exact ⟨Indexed.unique hreplays hr, hfrom.symm⟩
  | append_singleton pre block =>
    obtain ⟨cursor, hcursor, hheight, -⟩ := ht.cursor_some
    have hlen : (pre ++ [block]).length = pre.length + 1 := by simp
    have hcount : cursor.height + 1 - config.genesis = (pre ++ [block]).length := by omega
    have hnext : cursor.height + 1 = config.genesis + (pre ++ [block]).length := by omega
    have hactive : (active config node).length = node.length - config.genesis := List.length_drop
    rw [hcursor]
    change (scanRange config node ix₀ config.genesis _ >>= _) = _ ↔ _
    rw [hcount, hnext]
    simp only [bind_eq_ok, pure_eq_ok]
    constructor
    · intro h
      obtain ⟨ix', hscan, _, hchecked, rfl⟩ := h
      have hreached := scanRange_reaches hscan
      obtain ⟨ix'', hscan', htake⟩ := scanFromGenesis_ok hfee hreplays
        (by omega : config.genesis + (pre ++ [block]).length ≤ node.length)
      rw [hscan, Except.ok.injEq] at hscan'
      rw [← hscan'] at htake
      exact ⟨by omega, htake, (checkCheckpoint_eq_ok ht hcursor).mp hchecked, rfl⟩
    · intro h
      obtain ⟨hfits, hr, hroot, hfrom⟩ := h
      obtain ⟨ix', hscan, htake⟩ := scanFromGenesis_ok hfee hreplays
        (by omega : config.genesis + (pre ++ [block]).length ≤ node.length)
      refine ⟨ix', hscan, (), ?_, ?_⟩
      · rw [checkCheckpoint_eq_ok ht hcursor, Indexed.unique htake hr]
        exact hroot
      · rw [Indexed.unique htake hr, ← hfrom]

/-- A start goes on exactly where the node's blocks come to the root of the tables, and then ends
with the node's chain. -/
theorem cmdWorker_spec (hfee : 0 ≤ config.primaryMintFeeBps)
    (hchains : BestChains config start chains) (hnode : node ∈ chains)
    (hknown : history = [] ∨ ∃ c ∈ chains, history <+: active config c) :
    Triple (Spent k 0 (Projects config history ix)) (cmdWorker config node listing)
      (fun r w => Resumes config node history ix ∧ UpToDate config node r w.db)
      (fun w => (Resumes config node history ix → k < (active config node).length + 3) ∧
        OnServed config chains w.db) := by
  have hreaches := hchains.reaches node hnode
  rw [cmdWorker]
  refine readTables_bind fun t ht => ?_
  cases hstart : reconstruct config node t with
  | error e =>
    intro w hw
    refine ⟨fun hresumes => ?_, history, ix, hknown, hw.1⟩
    obtain ⟨hfits, ix', hix', hroot⟩ := hresumes
    have hok := (reconstruct_eq_ok (r := ⟨ix', config.genesis + history.length⟩) hfee hreaches
      ht).mpr ⟨hfits, hix', hroot, rfl⟩
    rw [hstart] at hok
    cases hok
  | ok r =>
    obtain ⟨hfits, hr, hroot, hfrom⟩ := (reconstruct_eq_ok hfee hreaches ht).mp hstart
    have hready : history <+: active config node →
        r.indexer = ix ∧ r.from' = config.genesis + history.length := by
      intro hpre
      rw [prefix_take hpre] at hr
      exact ⟨Indexed.unique hr ht.replays, hfrom⟩
    rw [lifted_ok_bind]
    refine (poll_spec ht.replays.genesis_nonneg hfee hchains hnode hknown hready).consequence
      (fun w hw => hw) (fun r w hw => ?_) fun w hw => ?_
    · exact ⟨⟨hfits, _, hr, hroot⟩, hw⟩
    · exact ⟨fun _ => hw.1, hw.2⟩

theorem Resumes.of_past (hpre : history <+: active config node)
    (h : Replays config history ix) : Resumes config node history ix := by
  refine ⟨hpre.length_le, ix, ?_, rfl⟩
  rw [prefix_take hpre]
  exact h

/-- What a start that goes no further has done. -/
theorem cmdWorker_stops {w : WorkerWorld} (hfee : 0 ≤ config.primaryMintFeeBps)
    (hreaches : config.genesis ≤ node.length) (ht : Projects config history ix w.db)
    (h : ¬ Resumes config node history ix) :
    ∃ e, cmdWorker config node listing w = .error e w := by
  have hrun : cmdWorker config node listing w =
      (lifted (reconstruct config node w.db) >>= poll config node listing) w := rfl
  cases hstart : reconstruct config node w.db with
  | error e =>
    refine ⟨e, ?_⟩
    rw [hrun, hstart]
    rfl
  | ok r =>
    obtain ⟨hfits, hr, hroot, -⟩ := (reconstruct_eq_ok hfee hreaches ht).mp hstart
    exact absurd ⟨hfits, _, hr, hroot⟩ h

end

/-! Runs of many processes on one database: the node's chain is another one at every start and
every turn, and each process is killed at some time. -/

/-- The tables, and the process that is up, if one is. -/
inductive WorkerRun (config : CoveConfig) (listing : (σ : CoveState) → σ.Listing)
    (chains : Set (List ServedBlock)) : CoveTables → Option Running → Prop
  | fresh : WorkerRun config listing chains .empty none
  | started {db r node left w} (before : WorkerRun config listing chains db none)
      (hnode : node ∈ chains) (hrun : cmdWorker config node listing ⟨db, left⟩ = .ok r w) :
      WorkerRun config listing chains w.db (some r)
  | notStarted {db e node left w} (before : WorkerRun config listing chains db none)
      (hnode : node ∈ chains) (hrun : cmdWorker config node listing ⟨db, left⟩ = .error e w) :
      WorkerRun config listing chains w.db none
  | polled {db r r' node left w} (before : WorkerRun config listing chains db (some r))
      (hnode : node ∈ chains) (hrun : poll config node listing r ⟨db, left⟩ = .ok r' w) :
      WorkerRun config listing chains w.db (some r')
  | died {db r e node left w} (before : WorkerRun config listing chains db (some r))
      (hnode : node ∈ chains) (hrun : poll config node listing r ⟨db, left⟩ = .error e w) :
      WorkerRun config listing chains w.db none
  | killed {db r} (before : WorkerRun config listing chains db (some r)) :
      WorkerRun config listing chains db none

/-- The tables show blocks that some chain had, and a process that is up has read just these. -/
def WorkerInv (config : CoveConfig) (chains : Set (List ServedBlock)) (db : CoveTables)
    (running : Option Running) : Prop :=
  ∃ history ix, (history = [] ∨ ∃ c ∈ chains, history <+: active config c) ∧
    Projects config history ix db ∧
      ∀ r, running = some r → r.indexer = ix ∧ r.from' = config.genesis + history.length

section

variable {config : CoveConfig} {start : Bytes} {chains : Set (List ServedBlock)}
  {node : List ServedBlock} {listing : (σ : CoveState) → σ.Listing} {db : CoveTables}
  {r : Running} {running : Option Running}

theorem UpToDate.inv (h : UpToDate config node r db) (hnode : node ∈ chains) :
    WorkerInv config chains db (some r) := by
  refine ⟨active config node, r.indexer, Or.inr ⟨node, hnode, List.prefix_rfl⟩, h.1, ?_⟩
  rintro _ ⟨⟩
  exact ⟨rfl, h.2⟩

theorem OnServed.inv (h : OnServed config chains db) : WorkerInv config chains db none := by
  obtain ⟨history, ix, hknown, hprojects⟩ := h
  exact ⟨history, ix, hknown, hprojects, by simp⟩

theorem WorkerRun.inv (hgenesis : 0 ≤ config.genesisHeight) (hfee : 0 ≤ config.primaryMintFeeBps)
    (hchains : BestChains config start chains) (h : WorkerRun config listing chains db running) :
    WorkerInv config chains db running := by
  induction h with
  | fresh =>
    obtain ⟨ix, -, hreplays⟩ := newIndexer_ok hgenesis
    exact ⟨[], ix, Or.inl rfl, Projects.empty hreplays, by simp⟩
  | started before hnode hrun ih =>
    obtain ⟨history, ix, hknown, hprojects, -⟩ := ih
    have hdone := (cmdWorker_spec hfee hchains hnode hknown).ok ⟨hprojects, rfl⟩ hrun
    exact hdone.2.inv hnode
  | notStarted before hnode hrun ih =>
    obtain ⟨history, ix, hknown, hprojects, -⟩ := ih
    have hcut := (cmdWorker_spec hfee hchains hnode hknown).error ⟨hprojects, rfl⟩ hrun
    exact hcut.2.inv
  | polled before hnode hrun ih =>
    obtain ⟨history, ix, hknown, hprojects, hready⟩ := ih
    have hdone := (poll_spec hgenesis hfee hchains hnode hknown fun _ => hready _ rfl).ok
      ⟨hprojects, rfl⟩ hrun
    exact hdone.inv hnode
  | died before hnode hrun ih =>
    obtain ⟨history, ix, hknown, hprojects, hready⟩ := ih
    have hcut := (poll_spec hgenesis hfee hchains hnode hknown fun _ => hready _ rfl).error
      ⟨hprojects, rfl⟩ hrun
    exact hcut.2.inv
  | killed before ih =>
    obtain ⟨history, ix, hknown, hprojects, -⟩ := ih
    exact ⟨history, ix, hknown, hprojects, by simp⟩

/-- A start on a node with the blocks of the tables, where the process lives long enough. -/
theorem cmdWorker_returns {history : List ServedBlock} {ix : CoveIndexer} {left : Nat}
    (hfee : 0 ≤ config.primaryMintFeeBps) (hchains : BestChains config start chains)
    (hnode : node ∈ chains) (hknown : history = [] ∨ ∃ c ∈ chains, history <+: active config c)
    (hprojects : Projects config history ix db) (hresumes : Resumes config node history ix)
    (hleft : (active config node).length + 3 ≤ left) :
    ∃ r w, cmdWorker config node listing ⟨db, left⟩ = .ok r w ∧ UpToDate config node r w.db := by
  have hspec : Triple (Spent left 0 (Projects config history ix)) (cmdWorker config node listing)
      (fun r w => Resumes config node history ix ∧ UpToDate config node r w.db) fun _ => False :=
    (cmdWorker_spec hfee hchains hnode hknown).weaken fun w hw => absurd (hw.1 hresumes) (by omega)
  obtain ⟨r, w, hrun, -, hdone⟩ := hspec.returns (s := ⟨db, left⟩) ⟨hprojects, rfl⟩
  exact ⟨r, w, hrun, hdone⟩

end

/-! A worker that has read a deploy and a mint, and then sees a fork without the mint. -/

def sampleGenesis : ServedBlock := ⟨List.replicate 32 10, List.replicate 32 0, []⟩

def sampleChain : List ServedBlock :=
  [sampleGenesis, ⟨List.replicate 32 11, sampleGenesis.hash, [sampleDeploy, sampleMint]⟩]

def sampleFork : List ServedBlock :=
  [sampleGenesis, ⟨List.replicate 32 12, sampleGenesis.hash, [sampleDeploy]⟩]

theorem sample_chains :
    BestChains coveV1RegtestConfig (List.replicate 32 0) {sampleChain, sampleFork} where
  linked := by
    rintro c (rfl | rfl)
    · exact ⟨rfl, rfl, trivial⟩
    · exact ⟨rfl, rfl, trivial⟩
  hash_inj := by
    have hall : ∀ b ∈ sampleChain ++ sampleFork, ∀ b' ∈ sampleChain ++ sampleFork,
        b.hash = b'.hash → b = b' := by decide
    have hmem : ∀ c, c = sampleChain ∨ c = sampleFork → ∀ b ∈ c, b ∈ sampleChain ++ sampleFork := by
      rintro c (rfl | rfl) b hb
      · exact List.mem_append_left _ hb
      · exact List.mem_append_right _ hb
    intro c hc c' hc' b hb b' hb'
    exact hall b (hmem c hc b hb) b' (hmem c' hc' b' hb')
  hash_ne := by
    rintro c (rfl | rfl)
    · decide
    · decide
  txids := by
    rintro c (rfl | rfl)
    · decide
    · decide
  nonempty := by
    rintro c (rfl | rfl)
    · decide
    · decide
  reaches := by
    rintro c (rfl | rfl)
    · decide
    · decide

theorem sample_started : ∃ (listing : (σ : CoveState) → σ.Listing) (db : CoveTables) (r : Running),
    WorkerRun coveV1RegtestConfig listing {sampleChain, sampleFork} db (some r) ∧
      UpToDate coveV1RegtestConfig sampleChain r db := by
  have hnode : sampleChain ∈ ({sampleChain, sampleFork} : Set (List ServedBlock)) := Or.inl rfl
  have hnew : ∃ ix, newIndexer coveV1RegtestConfig = .ok ix ∧
      Replays coveV1RegtestConfig [] ix := newIndexer_ok (by decide)
  obtain ⟨ix, -, hreplays⟩ := hnew
  let listing : (σ : CoveState) → σ.Listing := fun σ => Classical.choice σ.exists_listing
  have hreturns : ∃ r w, cmdWorker coveV1RegtestConfig sampleChain listing ⟨.empty, 4⟩ = .ok r w ∧
      UpToDate coveV1RegtestConfig sampleChain r w.db :=
    cmdWorker_returns (by decide) sample_chains hnode (Or.inl rfl) (Projects.empty hreplays)
      (Resumes.of_past List.nil_prefix hreplays) (by decide)
  obtain ⟨r, w, hrun, hdone⟩ := hreturns
  exact ⟨listing, w.db, r, .started .fresh hnode hrun, hdone⟩

end Protocol

end Cove
