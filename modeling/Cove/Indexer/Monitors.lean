import Cove.Indexer.Projection
import Cove.Indexer.Supply
import Cove.Lib.Totals

/-! The backing and supply monitors: `packages/cove-app/src/invariants.ts`. They read the tables
alone, so on the tables of an indexer neither may ever raise an alarm. -/

namespace Cove

open Checked

/-- The rows an answer of `SELECT … WHERE` may hold, in any order. -/
def Answers (db : Db) (p : UtxoRow → Bool) (rows : List (OutPoint × UtxoRow)) : Prop :=
  Table.Lists rows (db.tokenUtxos.filter fun _ r => p r)

/-- The rows `checkSupplyInvariant` sums for a token: unspent, or burned. -/
def countedOfToken (tokenId : Bytes) (r : UtxoRow) : Bool :=
  r.tokenId = tokenId && (r.spentByTxid.isNone || r.burned)

def burnedOfToken (tokenId : Bytes) (r : UtxoRow) : Bool := r.tokenId = tokenId && r.burned

/-- `sum(amount_atoms)` over the rows of a query. -/
def sumRows (rows : List (OutPoint × UtxoRow)) : Int := (rows.map fun e => e.2.amountAtoms).sum

structure InvariantResult where
  tokenId : Bytes
  ok : Bool
  reason : Option String
  deriving DecidableEq, Repr

/-- One turn of the loop of `checkBackingInvariant`. -/
def checkBacking (db : Db) (tokenId : Bytes) : Except Fault InvariantResult :=
  match db.backingStates.get tokenId with
  | none => .ok ⟨tokenId, false, some "missing backing"⟩
  | some b => do
    let supplyTokens := b.issuedSupplyAtoms.tdiv atomsPerToken
    let expected ← requiredBackingSats supplyTokens
    if b.backingSats ≠ expected then
      return ⟨tokenId, false,
        some s!"backing {b.backingSats} != R({supplyTokens}) {expected}"⟩
    if b.btcValue ≠ reserveAnchorSats + b.backingSats then
      return ⟨tokenId, false, some s!"btcValue {b.btcValue} != anchor+backing"⟩
    return ⟨tokenId, true, none⟩

/-- From the rows of the token table, in whatever order. -/
def checkBackingInvariant (db : Db) (tokens : List (Bytes × TokenRow)) :
    Except Fault (List InvariantResult) := tokens.mapM fun t => checkBacking db t.1

/-! The counted rows through a block. -/

section Counted

variable {C : Crypto} {cfg : V3IndexerConfig} {block : V3BlockInput} {σ staged : Ledger}
  {tx : Transaction} {seen : List Bytes} {db : Db} {e : Effect}

def countedRow (tokenId : Bytes) (_ : OutPoint) (r : UtxoRow) : Int :=
  if r.tokenId = tokenId ∧ (r.spentByTxid = none ∨ r.burned = true) then r.amountAtoms else 0

def Db.countedAtoms (db : Db) (tokenId : Bytes) : Int :=
  Dict.total (countedRow tokenId) db.tokenUtxos

theorem countedRow_live (t : Bytes) (k : OutPoint) (u : V3TokenUtxo) :
    countedRow t k (utxoRow u) = atomsOf t u := by
  simp [countedRow, utxoRow, atomsOf]

/-- A burned carrier still counts. -/
theorem counted_burnRows (hm : Mirrors staged seen db σ) (hk : Keyed σ.tokenUtxos)
    (hn : tx.spends.Nodup) (t : Bytes) :
    (db.burnRows C block σ tx).countedAtoms t = db.countedAtoms t := by
  have hrow : ∀ k ∈ (liveInputs σ.tokenUtxos tx.ins).map V3TokenUtxo.outpoint,
      ∃ r, db.tokenUtxos.get k = some r ∧
        countedRow t k (UtxoRow.burn (tx.getId C) block r) = countedRow t k r - (fun _ => 0) k := by
    intro k hmem
    obtain ⟨u, hu, rfl⟩ := List.mem_map.mp hmem
    refine ⟨utxoRow u, hm.carriers _ _ ((mem_liveInputs hk).mp hu).1, ?_⟩
    simp [countedRow, UtxoRow.burn, UtxoRow.spend, utxoRow]
  have htotal := Table.total_updateAll (countedRow t) (UtxoRow.burn (tx.getId C) block)
    (fun _ => 0) (liveInputs_nodup hk hn) hrow
  rw [List.map_const', List.sum_replicate, nsmul_zero, sub_zero] at htotal
  exact htotal

/-- An operation takes out the carriers it spends and brings in those it creates. -/
theorem counted_write (hm : Mirrors staged seen db σ) (hk : Keyed σ.tokenUtxos)
    (hs : e.Sound C cfg σ tx) (hf : tx.getId C ∉ seen) (t : Bytes) :
    (db.write staged block (tx.getId C) e).countedAtoms t =
      db.countedAtoms t - tokenAtoms t e.spent + tokenAtoms t e.created := by
  have hlive : ∀ u ∈ e.spent, σ.tokenUtxos.get u.outpoint = some u := fun u hu =>
    ((mem_liveInputs hk).mp (hs.spent_inputs u hu)).1
  -- What the spent row at a key counted for.
  let w : OutPoint → Int := fun k => ((σ.tokenUtxos.get k).map (atomsOf t)).getD 0
  have hw : ((e.spent.map V3TokenUtxo.outpoint).map w).sum = tokenAtoms t e.spent := by
    rw [List.map_map, tokenAtoms]
    congr 1
    apply List.map_congr_left
    intro u hu
    simp [w, hlive u hu]
  have hrow : ∀ k ∈ e.spent.map V3TokenUtxo.outpoint, ∃ r, db.tokenUtxos.get k = some r ∧
      countedRow t k (UtxoRow.spend (tx.getId C) block r) = countedRow t k r - w k := by
    intro k hmem
    obtain ⟨u, hu, rfl⟩ := List.mem_map.mp hmem
    refine ⟨utxoRow u, hm.carriers _ _ (hlive u hu), ?_⟩
    rw [countedRow_live]
    simp [countedRow, UtxoRow.spend, utxoRow, w, hlive u hu]
  have hspent := Table.total_updateAll (countedRow t) (UtxoRow.spend (tx.getId C) block) w
    hs.spent_nodup hrow
  have hfresh : ∀ x ∈ e.created.map utxoEntry, (Table.updateAll db.tokenUtxos
      (e.spent.map V3TokenUtxo.outpoint) (UtxoRow.spend (tx.getId C) block)).get x.1 = none := by
    intro x hx
    obtain ⟨u, hu, rfl⟩ := List.mem_map.mp hx
    have hnone : db.tokenUtxos.get u.outpoint = none :=
      hm.fresh_row (by rwa [hs.created_outpoint hu])
    rw [Table.get_updateAll _ _ hs.spent_nodup, utxoEntry, hnone]
    split <;> rfl
  have hnodup : ((e.created.map utxoEntry).map Prod.fst).Nodup := by
    rw [List.map_map]
    exact hs.created_nodup
  have hcreated : ((e.created.map utxoEntry).map fun x => countedRow t x.1 x.2).sum =
      tokenAtoms t e.created := by
    rw [List.map_map, tokenAtoms]
    congr 1
    apply List.map_congr_left
    intro u _
    exact countedRow_live t u.outpoint u
  have htotal := Dict.total_setAll (countedRow t) _ _ hfresh hnodup
  rw [hspent, hw, hcreated] at htotal
  exact htotal

/-- One transaction moves the counted rows and the issued supply alike. -/
theorem Outcome.forward_counted (hI : LedgerInv C cfg seen σ) (hn : tx.spends.Nodup)
    (hf : tx.getId C ∉ seen) (hm : Mirrors staged seen db σ) (o : Outcome C cfg block σ tx)
    (hext : o.ledger.Extends staged)
    (hkey : ∀ t b, staged.backing.get t = some b → b.tokenId = t) :
    ∃ db', applyForwardAll staged block (o.ops ++ burnOps C o.ledger tx) db = .ok db' ∧
      Mirrors staged (seen ++ [tx.getId C]) db' (o.ledger.spendAll tx) ∧
      ∀ t, db'.countedAtoms t - (o.ledger.spendAll tx).issued t =
        db.countedAtoms t - σ.issued t := by
  have hinv := o.ledger_inv hI hn hf
  have hmono : Mirrors staged (seen ++ [tx.getId C]) db σ :=
    { hm with seen := fun k r hr => List.mem_append_left _ (hm.seen k r hr) }
  cases o with
  | nonCove _ =>
    refine ⟨_, applyForwardAll_burn, burnRows_mirrors hmono hI.keyed hn, ?_⟩
    intro t
    show (db.burnRows C block σ tx).countedAtoms t - σ.issued t = _
    rw [counted_burnRows hm hI.keyed hn]
  | refused _ _ _ _ =>
    refine ⟨_, applyForwardAll_burn, burnRows_mirrors hmono hI.keyed hn, ?_⟩
    intro t
    show (db.burnRows C block σ tx).countedAtoms t - σ.issued t = _
    rw [counted_burnRows hm hI.keyed hn]
  | accepted envelope hp a =>
    have hw := parseCoveTx_wellFormed hp
    have hs := a.sound hI hn hw
    have hmid := write_mirrors block hm hs hf hext
    have hburn : Forward staged block (burnOps C (σ.perform a.effect) tx) _ _ :=
      burn_forward hmid hinv.keyed hn
    have hfwd := (accepted_forward hI hn hf hm hw a hext hkey).append hburn
    refine ⟨_, hfwd.written, burnRows_mirrors hmid hinv.keyed hn, ?_⟩
    intro t
    have hissued := supply_perform hI hs hf t
    have hlive := liveAtoms_perform hI hs hf t
    have hcount : (db.write staged block (tx.getId C) a.effect).countedAtoms t = _ :=
      counted_write hm hI.keyed hs hf t
    rw [counted_burnRows hmid hinv.keyed hn]
    show _ - (σ.perform a.effect).issued t = _
    omega

theorem applyTxs_counted (db : Db) {base txs : List Transaction} {txIndex : Nat}
    {run final : BlockRun} (hc : ConsensusValid C (base ++ txs))
    (hI : LedgerInv C cfg (txidsOf C base) run.ledger)
    (hm : Mirrors final.ledger (txidsOf C base) db run.ledger)
    (hkey : ∀ t b, final.ledger.backing.get t = some b → b.tokenId = t)
    (h : applyTxs C cfg block txIndex txs run = .ok final) :
    ∃ ops db', final.ops = run.ops ++ ops ∧
      applyForwardAll final.ledger block ops db = .ok db' ∧
      ∀ t, db'.countedAtoms t - final.ledger.issued t =
        db.countedAtoms t - run.ledger.issued t := by
  induction txs generalizing base txIndex run db with
  | nil =>
    simp only [applyTxs, Except.ok.injEq] at h
    subst h
    exact ⟨[], db, by simp, rfl, fun _ => rfl⟩
  | cons tx txs ih =>
    rw [applyTxs, bind_eq_ok] at h
    obtain ⟨mid, hmid, h⟩ := h
    have hinv := applyTx_inv hI hc.inputs hc.fresh hmid
    have hbase : txidsOf C base ++ [tx.getId C] = txidsOf C (base ++ [tx]) := by simp [txidsOf]
    rw [hbase] at hinv
    have hn : tx.spends.Nodup := hc.inputs_nodup tx (by simp)
    have hf : tx.getId C ∉ txidsOf C base := hc.fresh
    rw [List.append_cons] at hc
    have hext := applyTxs_extends hc hinv h
    obtain ⟨o, rfl⟩ := applyTx_cases hn hmid
    obtain ⟨db₁, hfwd, hm₁, hcount⟩ :=
      o.forward_counted hI hn hf hm (spendAll_extends.trans hext) hkey
    rw [hbase] at hm₁
    obtain ⟨ops, db₂, hops, hfwd', hcount'⟩ := ih db₁ hc hinv hm₁ h
    refine ⟨(o.ops ++ burnOps C o.ledger tx) ++ ops, db₂, ?_, ?_, ?_⟩
    · rw [hops, Outcome.after]
      simp
    · rw [applyForwardAll_append hfwd, hfwd']
    · intro t
      exact (hcount' t).trans (hcount t)

end Counted

/-! The monitors over whole runs. -/

section

variable {C : Crypto} {cfg : V3IndexerConfig} {chain : List V3BlockInput} {σ : V3IndexerState}
  {db : Db}

theorem Indexed.counted (h : Indexed C cfg chain σ db) (t : Bytes) :
    db.countedAtoms t = σ.issued t := by
  induction h with
  | new => rfl
  | @persist chain σ σ' db db' block rebuilding hi hb h ih =>
    obtain ⟨events, ha⟩ := h.applied
    obtain ⟨undo, hu, hp⟩ := h.persisted
    have hI := hi.replays.inv
    have hc := hb.consensus
    rw [chainTxs_append] at hc
    obtain ⟨run, hrun, -, rfl⟩ := (applyBlock_eq_ok hb.active).mp ha
    have hfacts := applyTxs_facts hc hI.ledger hrun
    have hundo : undo = ⟨block.height, block.hash, run.ops⟩ := by
      have hself := Dict.get_set_self σ.undoByHeight block.height
        (⟨block.height, block.hash, run.ops⟩ : BlockUndo)
      exact Option.some.inj (hu.symm.trans hself)
    simp only [persistBlock, bind_eq_ok, pure_eq_ok] at hp
    obtain ⟨blocks, -, rows, -, undos, -, dbF, hF, rfl⟩ := hp
    have hm := hi.synced.ledger.restage run.ledger
    obtain ⟨ops, dbF', hops, hfwd, hcount⟩ := applyTxs_counted
      { db with blocks := blocks, events := rows, undo := undos } hc hI.ledger
      ⟨hm.tokens, hm.backing, hm.carriers, hm.spent, hm.seen⟩
      (fun t b hbk => (hfacts.inv.backing_sound t b hbk).tokenId_eq) hrun
    rw [List.nil_append] at hops
    rw [hundo, hops] at hF
    have hdb : dbF' = dbF := Except.ok.inj (hfwd.symm.trans hF)
    have hbal := hcount t
    rw [hdb] at hbal
    show dbF.countedAtoms t = run.ledger.issued t
    have hstart : ({ db with blocks := blocks, events := rows, undo := undos } : Db).countedAtoms t =
      σ.issued t := ih
    rw [hstart] at hbal
    dsimp only at hbal
    omega

/-- The counted rows of a token make up its issued supply, after rollbacks as well. -/
theorem Lockstep.counted (h : Lockstep C cfg chain σ db) (t : Bytes) :
    db.countedAtoms t = σ.issued t := by
  obtain ⟨db₀, hi, hsame⟩ := h.indexed
  rw [Db.countedAtoms, hsame.tokenUtxos]
  exact hi.counted t

theorem sumRows_answers {p : UtxoRow → Bool} {rows : List (OutPoint × UtxoRow)}
    (h : Answers db p rows) :
    sumRows rows = Dict.total (fun _ r => if p r then r.amountAtoms else 0) db.tokenUtxos := by
  have htotal := Dict.total_filter (fun (_ : OutPoint) (r : UtxoRow) => r.amountAtoms) (fun _ r => p r)
    db.tokenUtxos
  rw [← htotal, Dict.total, ← h, Multiset.map_coe, Multiset.sum_coe]
  rfl

theorem checkBacking_ok (hS : Synced C cfg chain σ db) (hI : StateInv C cfg chain σ) {t : Bytes}
    (ht : σ.tokens.has t = true) : checkBacking db t = .ok ⟨t, true, none⟩ := by
  have hhas : σ.backing.has t = true := by rwa [← hI.ledger.same_keys]
  obtain ⟨b, hb⟩ := Dict.has_iff.mp hhas
  have hs := hI.ledger.backing_sound t b hb
  have hrow : db.backingStates.get t = some (backingRow b) := by
    rw [hS.ledger.rowsOf.backing, hb]
    rfl
  have hdiv : b.state.issuedPublicSupplyAtoms.tdiv atomsPerToken =
      b.state.issuedPublicSupplyAtoms / atomsPerToken :=
    Int.tdiv_eq_ediv_of_nonneg hs.state_valid.supply_nonneg
  have hreq : requiredBackingSats ((backingRow b).issuedSupplyAtoms.tdiv atomsPerToken) =
      .ok b.state.backingSats := by
    rw [← hs.state_valid.backing, ← hdiv]
    rfl
  have hvalue : (backingRow b).btcValue = reserveAnchorSats + (backingRow b).backingSats :=
    hs.btcValue
  simp only [checkBacking, hrow, hreq, bind, Except.bind]
  rw [if_neg (by simp [backingRow]), if_neg (by simp [hvalue])]
  rfl

end

end Cove
