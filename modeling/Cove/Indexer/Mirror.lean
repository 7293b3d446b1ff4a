import Cove.Indexer.Chain
import Cove.Indexer.Store

/-! The tables follow the ledger through a block. Token and backing rows are written from the
state after the block, so inside it they run ahead of the ledger. -/

namespace Cove

open Checked

/-- A later ledger of the same block: token records stay, backings are at most replaced. -/
structure Ledger.Extends (σ σ' : Ledger) : Prop where
  tokens : ∀ t m, σ.tokens.get t = some m → σ'.tokens.get t = some m
  backing : ∀ t, σ.backing.has t = true → σ'.backing.has t = true

/-- The tables hold the ledger. A backing row may already be the one of the staged ledger;
a carrier row outlives its carrier, marked as spent. -/
structure Mirrors (staged : Ledger) (seen : List Bytes) (db : Db) (σ : Ledger) : Prop where
  tokens : ∀ t, db.tokens.get t = (σ.tokens.get t).map tokenRow
  backing : ∀ t, db.backingStates.get t = (σ.backing.get t).map backingRow ∨
    σ.backing.has t = true ∧ db.backingStates.get t = (staged.backing.get t).map backingRow
  carriers : ∀ k u, σ.tokenUtxos.get k = some u → db.tokenUtxos.get k = some (utxoRow u)
  spent : ∀ k r, db.tokenUtxos.get k = some r → σ.tokenUtxos.get k = none → r.spentByTxid ≠ none
  seen : ∀ k r, db.tokenUtxos.get k = some r → k.txid ∈ seen

/-- The rows an accepted operation writes. -/
def Db.write (staged : Ledger) (block : V3BlockInput) (txid : Bytes) (db : Db) (e : Effect) : Db :=
  { db with
    tokens := e.newMeta.elim db.tokens fun m => db.tokens.set e.tokenId (tokenRow m)
    backingStates := match e.newBacking, staged.backing.get e.tokenId with
      | some _, some b => db.backingStates.set e.tokenId (backingRow b)
      | _, _ => db.backingStates
    tokenUtxos := (Table.updateAll db.tokenUtxos (e.spent.map V3TokenUtxo.outpoint)
      (UtxoRow.spend txid block)).setAll (e.created.map utxoEntry) }

/-- The rows of the tables an operation never touches are the same. -/
structure Db.SameLog (db db' : Db) : Prop where
  blocks : db.blocks = db'.blocks
  events : db.events = db'.events
  undo : db.undo = db'.undo
  cursor : db.cursor = db'.cursor

theorem Db.SameLog.trans {db db' db'' : Db} (h : db.SameLog db') (h' : db'.SameLog db'') :
    db.SameLog db'' :=
  ⟨h.blocks.trans h'.blocks, h.events.trans h'.events, h.undo.trans h'.undo,
    h.cursor.trans h'.cursor⟩

/-- An entry restores a backing under the token it names. -/
def UndoOp.BackingKeyed : UndoOp → Prop
  | .mint tokenId priorBacking _ => priorBacking.tokenId = tokenId
  | .redeem tokenId _ priorBacking _ _ => priorBacking.tokenId = tokenId
  | _ => True

section Extends

variable {C : Crypto} {cfg : V3IndexerConfig} {block : V3BlockInput} {σ : Ledger}
  {tx : Transaction} {seen : List Bytes}

theorem Ledger.Extends.refl (σ : Ledger) : σ.Extends σ := ⟨fun _ _ h => h, fun _ h => h⟩

theorem Ledger.Extends.trans {σ σ' σ'' : Ledger} (h : σ.Extends σ') (h' : σ'.Extends σ'') :
    σ.Extends σ'' :=
  ⟨fun t m hm => h'.tokens t m (h.tokens t m hm), fun t ht => h'.backing t (h.backing t ht)⟩

theorem perform_extends {e : Effect} (hs : e.Sound C cfg σ tx) : σ.Extends (σ.perform e) := by
  constructor
  · intro t m hm
    cases he : e.newMeta with
    | none => simpa [Ledger.perform, he] using hm
    | some m' =>
      have hne : t ≠ e.tokenId := by
        rintro rfl
        have hfresh := (hs.fresh m' he).1
        rw [Dict.has, hm] at hfresh
        cases hfresh
      simpa [Ledger.perform, he, Dict.get_set, hne] using hm
  · intro t ht
    rw [perform_backing_has, ht, Bool.true_or]

theorem Outcome.extends (hI : LedgerInv C cfg seen σ) (hn : tx.spends.Nodup)
    (o : Outcome C cfg block σ tx) : σ.Extends o.ledger := by
  cases o with
  | nonCove _ => exact .refl σ
  | refused _ _ _ _ => exact .refl σ
  | accepted _ hp a => exact perform_extends (a.sound hI hn (parseCoveTx_wellFormed hp))

theorem spendAll_extends : σ.Extends (σ.spendAll tx) := ⟨fun _ _ h => h, fun _ h => h⟩

theorem applyTxs_extends {base txs : List Transaction} {txIndex : Nat} {run final : BlockRun}
    (hc : ConsensusValid C (base ++ txs)) (hI : LedgerInv C cfg (txidsOf C base) run.ledger)
    (h : applyTxs C cfg block txIndex txs run = .ok final) : run.ledger.Extends final.ledger := by
  refine (applyTxs_rule (fun done run' => LedgerInv C cfg (txidsOf C (base ++ done)) run'.ledger ∧
    run.ledger.Extends run'.ledger) ?_ hc ⟨by simpa using hI, .refl _⟩ h).2
  intro done tx post txIndex run₁ run₂ hc hparts h
  obtain ⟨hI, hext⟩ := hparts
  have hinv := applyTx_inv hI hc.inputs hc.fresh h
  obtain ⟨o, rfl⟩ := applyTx_cases hc.inputs h
  refine ⟨by simpa [txidsOf] using hinv, ?_⟩
  exact hext.trans ((o.extends hI hc.inputs).trans spendAll_extends)

end Extends

/-! One accepted operation. -/

section Write

variable {C : Crypto} {cfg : V3IndexerConfig} {block : V3BlockInput} {σ staged : Ledger}
  {tx : Transaction} {seen : List Bytes} {db : Db} {e : Effect}

theorem Mirrors.fresh_row (hm : Mirrors staged seen db σ) {k : OutPoint} (hk : k.txid ∉ seen) :
    db.tokenUtxos.get k = none := by
  by_contra hne
  obtain ⟨r, hr⟩ := Option.ne_none_iff_exists'.mp hne
  exact hk (hm.seen k r hr)

theorem Mirrors.fresh_backing (hm : Mirrors staged seen db σ) {t : Bytes}
    (ht : σ.backing.has t = false) : db.backingStates.get t = none := by
  rcases hm.backing t with h | ⟨h, -⟩
  · have hnone : σ.backing.get t = none := by simpa [Dict.has] using ht
    rw [h, hnone]
    rfl
  · rw [ht] at h
    cases h

/-- The rows of new carriers can be inserted. -/
theorem insert_created (hm : Mirrors staged seen db σ) (hs : e.Sound C cfg σ tx)
    (hf : tx.getId C ∉ seen) (f : UtxoRow → UtxoRow) :
    Table.insertAll (Table.updateAll db.tokenUtxos (e.spent.map V3TokenUtxo.outpoint) f)
      (e.created.map utxoEntry) =
    .ok ((Table.updateAll db.tokenUtxos (e.spent.map V3TokenUtxo.outpoint) f).setAll
      (e.created.map utxoEntry)) := by
  apply Table.insertAll_of_fresh
  · intro x hx
    obtain ⟨u, hu, rfl⟩ := List.mem_map.mp hx
    have hnone : db.tokenUtxos.get u.outpoint = none :=
      hm.fresh_row (by rwa [hs.created_outpoint hu])
    rw [Table.get_updateAll _ _ hs.spent_nodup, utxoEntry, hnone]
    split <;> rfl
  · rw [List.map_map]
    exact hs.created_nodup

theorem applyForward_eq_write (hI : LedgerInv C cfg seen σ) (hn : tx.spends.Nodup)
    (hf : tx.getId C ∉ seen) (hm : Mirrors staged seen db σ) {envelope : ParsedEnvelopeV2}
    (hw : envelope.WellFormed) (a : Acceptance C cfg block σ tx envelope)
    (hext : (σ.perform a.effect).Extends staged)
    (hkey : ∀ t b, staged.backing.get t = some b → b.tokenId = t) :
    applyForward staged block db a.undo = .ok (db.write staged block (tx.getId C) a.effect) := by
  have hs := a.sound hI hn hw
  have hins := insert_created hm hs hf (UtxoRow.spend (tx.getId C) block)
  -- A token whose backing the operation writes has a backing after the block.
  have hstaged : ∀ b, a.effect.newBacking = some b →
      ∃ b', staged.backing.get a.effect.tokenId = some b' ∧ b'.tokenId = a.effect.tokenId := by
    intro b hb
    obtain ⟨b', hb'⟩ := Dict.has_iff.mp (hext.backing a.effect.tokenId (by
      rw [perform_backing_has, hb]
      simp))
    exact ⟨b', hb', hkey _ _ hb'⟩
  cases a with
  | deploy a =>
    have hfresh : σ.backing.has a.tokenId = false := by rw [← hI.same_keys, a.fresh]
    have hmeta : staged.tokens.get a.tokenId = some (a.tokenMeta block) :=
      hext.tokens _ _ (Dict.get_set_self _ _ _)
    have htok : db.tokens.get a.tokenId = none := by
      have hnone : σ.tokens.get a.tokenId = none := by simpa [Dict.has] using a.fresh
      rw [hm.tokens, hnone]
      rfl
    obtain ⟨b, hb, hbt⟩ := hstaged _ rfl
    change staged.backing.get a.tokenId = some b at hb
    change b.tokenId = a.tokenId at hbt
    have hrow := hm.fresh_backing hfresh
    simp [applyForward, Acceptance.undo, DeployAccepted.undo, hmeta, hb, hbt, demand,
      Table.insert_of_fresh _ htok, Table.insert_of_fresh _ hrow, Db.write, Acceptance.effect,
      DeployAccepted.effect, Table.updateAll]
  | @mint tokenId _ _ a =>
    obtain ⟨b, hb, hbt⟩ := hstaged _ rfl
    change staged.backing.get tokenId = some b at hb
    change b.tokenId = tokenId at hbt
    have hrow : db.tokenUtxos.get (a.createdUtxo block).outpoint = none := hm.fresh_row hf
    simp [applyForward, Acceptance.undo, MintAccepted.undo, hb, hbt, demand,
      Table.insert_of_fresh _ hrow, Db.upsertBacking, Table.upsert_const, Db.write,
      Acceptance.effect, MintAccepted.effect, Table.updateAll, utxoEntry]
  | transfer a =>
    simp only [Acceptance.effect, TransferAccepted.effect] at hins
    simp only [applyForward, Acceptance.undo, TransferAccepted.undo]
    rw [hins]
    rfl
  | @redeem tokenId _ _ a =>
    obtain ⟨b, hb, hbt⟩ := hstaged _ rfl
    change staged.backing.get tokenId = some b at hb
    change b.tokenId = tokenId at hbt
    simp only [Acceptance.effect, RedeemAccepted.effect] at hins
    simp only [applyForward, Acceptance.undo, RedeemAccepted.undo, hb, demand, Db.upsertBacking,
      Table.upsert_const]
    rw [hins]
    simp [Db.write, Acceptance.effect, RedeemAccepted.effect, hb, hbt]

/-- A carrier row after the write is one of a created carrier or an older one, marked when
its carrier is spent. -/
theorem write_row_get (block : V3BlockInput) (hm : Mirrors staged seen db σ) (hs : e.Sound C cfg σ tx)
    (hf : tx.getId C ∉ seen) (k : OutPoint) :
    (∃ u ∈ e.created, u.outpoint = k ∧
      (db.write staged block (tx.getId C) e).tokenUtxos.get k = some (utxoRow u) ∧
      db.tokenUtxos.get k = none) ∨
    ((∀ u ∈ e.created, u.outpoint ≠ k) ∧
      (db.write staged block (tx.getId C) e).tokenUtxos.get k =
        if k ∈ e.spent.map V3TokenUtxo.outpoint then
          (db.tokenUtxos.get k).map (UtxoRow.spend (tx.getId C) block)
        else db.tokenUtxos.get k) := by
  by_cases hk : ∃ u ∈ e.created, u.outpoint = k
  · obtain ⟨u, hu, rfl⟩ := hk
    refine Or.inl ⟨u, hu, rfl, ?_, hm.fresh_row (by rwa [hs.created_outpoint hu])⟩
    apply Dict.get_setAll_of_mem
    · intro x hx hxk
      obtain ⟨v, hv, rfl⟩ := List.mem_map.mp hx
      rw [List.inj_on_of_nodup_map hs.created_nodup hv hu hxk]
      rfl
    · exact List.mem_map.mpr ⟨u, hu, rfl⟩
  · have hne : ∀ u ∈ e.created, u.outpoint ≠ k := fun u hu h => hk ⟨u, hu, h⟩
    refine Or.inr ⟨hne, ?_⟩
    have hnot : k ∉ (e.created.map utxoEntry).map Prod.fst := by
      rw [List.map_map]
      intro hmem
      obtain ⟨u, hu, heq⟩ := List.mem_map.mp hmem
      exact hne u hu heq
    exact (Dict.get_setAll_of_notMem _ _ _ hnot).trans (Table.get_updateAll _ _ hs.spent_nodup _)

/-- The ledger's carriers in the same terms. -/
theorem perform_get_other {k : OutPoint}
    (hk : ∀ u ∈ e.created, u.outpoint ≠ k) : (σ.perform e).tokenUtxos.get k =
      if k ∈ e.spent.map V3TokenUtxo.outpoint then none else σ.tokenUtxos.get k := by
  have hnot : k ∉ (e.created.map V3TokenUtxo.entry).map Prod.fst := by
    rw [List.map_map]
    intro hmem
    obtain ⟨u, hu, heq⟩ := List.mem_map.mp hmem
    exact hk u hu heq
  exact (Dict.get_setAll_of_notMem _ _ _ hnot).trans (Dict.get_deleteAll _ _ _)

theorem perform_get_created (hs : e.Sound C cfg σ tx) {u : V3TokenUtxo} (hu : u ∈ e.created) :
    (σ.perform e).tokenUtxos.get u.outpoint = some u := by
  apply Dict.get_setAll_of_mem
  · intro x hx hxk
    obtain ⟨v, hv, rfl⟩ := List.mem_map.mp hx
    exact List.inj_on_of_nodup_map hs.created_nodup hv hu hxk
  · exact List.mem_map.mpr ⟨u, hu, rfl⟩

theorem write_mirrors (block : V3BlockInput) (hm : Mirrors staged seen db σ) (hs : e.Sound C cfg σ tx)
    (hf : tx.getId C ∉ seen) (hext : (σ.perform e).Extends staged) :
    Mirrors staged (seen ++ [tx.getId C]) (db.write staged block (tx.getId C) e) (σ.perform e) := by
  constructor
  case tokens =>
    intro t
    cases he : e.newMeta with
    | none => simpa [Db.write, Ledger.perform, he] using hm.tokens t
    | some m =>
      simp only [Db.write, Ledger.perform, he, Option.elim_some, Dict.get_set, hm.tokens]
      split <;> rfl
  case backing =>
    intro t
    cases he : e.newBacking with
    | none =>
      simpa [Db.write, Ledger.perform, he] using hm.backing t
    | some b =>
      have hhas : (σ.perform e).backing.has e.tokenId = true := by
        rw [perform_backing_has, he]
        simp
      obtain ⟨b', hb'⟩ := Dict.has_iff.mp (hext.backing _ hhas)
      by_cases ht : t = e.tokenId
      · subst ht
        exact Or.inr ⟨hhas, by simp [Db.write, he, hb']⟩
      · have hold := hm.backing t
        simpa [Db.write, Ledger.perform, he, hb', Dict.get_set, Dict.has, ht] using hold
  case carriers =>
    intro k u hu
    rcases write_row_get block hm hs hf k with ⟨v, hv, rfl, hrow, -⟩ | ⟨hne, hrow⟩
    · rw [perform_get_created hs hv] at hu
      rw [hrow, Option.some.inj hu]
    · rw [perform_get_other hne] at hu
      split at hu
      · cases hu
      · rename_i hnot
        rw [hrow, if_neg hnot]
        exact hm.carriers k u hu
  case spent =>
    intro k r hr hnone
    rcases write_row_get block hm hs hf k with ⟨v, hv, rfl, -, -⟩ | ⟨hne, hrow⟩
    · rw [perform_get_created hs hv] at hnone
      cases hnone
    · rw [perform_get_other hne] at hnone
      rw [hrow] at hr
      by_cases hk : k ∈ e.spent.map V3TokenUtxo.outpoint
      · rw [if_pos hk] at hr
        obtain ⟨r', -, rfl⟩ := Option.map_eq_some_iff.mp hr
        simp [UtxoRow.spend]
      · rw [if_neg hk] at hr hnone
        exact hm.spent k r hr hnone
  case seen =>
    intro k r hr
    rcases write_row_get block hm hs hf k with ⟨v, hv, rfl, -, -⟩ | ⟨-, hrow⟩
    · simp [hs.created_outpoint hv]
    · rw [hrow] at hr
      apply List.mem_append_left
      split at hr
      · obtain ⟨r', hr', -⟩ := Option.map_eq_some_iff.mp hr
        exact hm.seen k r' hr'
      · exact hm.seen k r hr

/-- The rows of the carriers go back as they were. -/
theorem rows_back (block : V3BlockInput) (hI : LedgerInv C cfg seen σ) (hm : Mirrors staged seen db σ)
    (hs : e.Sound C cfg σ tx) (hf : tx.getId C ∉ seen) :
    Table.upsertAll ((db.write staged block (tx.getId C) e).tokenUtxos.deleteAll
      (e.created.map V3TokenUtxo.outpoint)) (e.spent.map utxoEntry) UtxoRow.unspend =
    db.tokenUtxos := by
  have hlive : ∀ u ∈ e.spent, db.tokenUtxos.get u.outpoint = some (utxoRow u) := fun u hu =>
    hm.carriers _ _ ((mem_liveInputs hI.keyed).mp (hs.spent_inputs u hu)).1
  have hdel : ∀ k, ((db.write staged block (tx.getId C) e).tokenUtxos.deleteAll
      (e.created.map V3TokenUtxo.outpoint)).get k =
      if k ∈ e.spent.map V3TokenUtxo.outpoint then
        (db.tokenUtxos.get k).map (UtxoRow.spend (tx.getId C) block)
      else db.tokenUtxos.get k := by
    intro k
    rw [Dict.get_deleteAll]
    rcases write_row_get block hm hs hf k with ⟨u, hu, rfl, -, hnone⟩ | ⟨hne, hrow⟩
    · rw [if_pos (List.mem_map_of_mem hu), hnone]
      split <;> rfl
    · rw [if_neg, hrow]
      intro hmem
      obtain ⟨u, hu, heq⟩ := List.mem_map.mp hmem
      exact hne u hu heq
  have hthere : ∀ x ∈ e.spent.map utxoEntry, ((db.write staged block (tx.getId C) e).tokenUtxos.deleteAll
      (e.created.map V3TokenUtxo.outpoint)).get x.1 ≠ none := by
    intro x hx
    obtain ⟨u, hu, rfl⟩ := List.mem_map.mp hx
    rw [hdel, utxoEntry, if_pos (List.mem_map_of_mem hu), hlive u hu]
    simp
  have hkeys : (e.spent.map utxoEntry).map Prod.fst = e.spent.map V3TokenUtxo.outpoint := by
    rw [List.map_map]
    rfl
  rw [Table.upsertAll_eq_updateAll _ hthere, hkeys]
  apply Dict.ext_get
  intro k
  rw [Table.get_updateAll _ _ hs.spent_nodup, hdel]
  by_cases hk : k ∈ e.spent.map V3TokenUtxo.outpoint
  · obtain ⟨u, hu, rfl⟩ := List.mem_map.mp hk
    rw [if_pos hk, if_pos hk, hlive u hu]
    rfl
  · rw [if_neg hk, if_neg hk]

theorem rollbackOp_rows (hI : LedgerInv C cfg seen σ) (hm : Mirrors staged seen db σ)
    (hn : tx.spends.Nodup) (hf : tx.getId C ∉ seen) {envelope : ParsedEnvelopeV2}
    (hw : envelope.WellFormed) (a : Acceptance C cfg block σ tx envelope) :
    (rollbackOp (db.write staged block (tx.getId C) a.effect) a.undo).tokenUtxos =
      db.tokenUtxos := by
  have hback := rows_back block hI hm (a.sound hI hn hw) hf
  cases a with
  | deploy a => exact hback
  | mint a => exact hback
  | transfer a => exact hback
  | redeem a => exact hback

theorem Acceptance.undo_backingKeyed (hI : LedgerInv C cfg seen σ) {envelope : ParsedEnvelopeV2}
    (a : Acceptance C cfg block σ tx envelope) : a.undo.BackingKeyed := by
  cases a with
  | deploy a => exact trivial
  | mint a => exact (hI.backing_sound _ _ a.backing_get).tokenId_eq
  | transfer a => exact trivial
  | redeem a => exact (hI.backing_sound _ _ a.backing_get).tokenId_eq

end Write

/-! The burn of stray carriers. -/

section Burn

variable {C : Crypto} {cfg : V3IndexerConfig} {block : V3BlockInput} {σ staged : Ledger}
  {tx : Transaction} {seen : List Bytes} {db : Db}

def Db.burnRows (C : Crypto) (block : V3BlockInput) (σ : Ledger) (tx : Transaction) (db : Db) : Db :=
  { db with
    tokenUtxos := Table.updateAll db.tokenUtxos
      ((liveInputs σ.tokenUtxos tx.ins).map V3TokenUtxo.outpoint)
      (UtxoRow.burn (tx.getId C) block) }

theorem applyForwardAll_burn :
    applyForwardAll staged block (burnOps C σ tx) db = .ok (db.burnRows C block σ tx) := by
  unfold burnOps
  split
  · rename_i hnil
    rw [Db.burnRows, hnil]
    rfl
  · rfl

/-- An outpoint that is spent while live is one of a burned carrier. -/
theorem mem_burned (hk : Keyed σ.tokenUtxos) {k : OutPoint} {u : V3TokenUtxo}
    (hu : σ.tokenUtxos.get k = some u) :
    k ∈ (liveInputs σ.tokenUtxos tx.ins).map V3TokenUtxo.outpoint ↔ k ∈ tx.spends := by
  have ho := hk _ _ hu
  subst ho
  constructor
  · intro hmem
    obtain ⟨v, hv, heq⟩ := List.mem_map.mp hmem
    rw [← heq]
    exact ((mem_liveInputs hk).mp hv).2
  · intro hmem
    exact List.mem_map_of_mem ((mem_liveInputs hk).mpr ⟨hu, hmem⟩)

theorem burnRows_mirrors (hm : Mirrors staged seen db σ) (hk : Keyed σ.tokenUtxos)
    (hn : tx.spends.Nodup) :
    Mirrors staged seen (db.burnRows C block σ tx) (σ.spendAll tx) := by
  have hget := Table.get_updateAll db.tokenUtxos (UtxoRow.burn (tx.getId C) block)
    (liveInputs_nodup hk hn)
  constructor
  case tokens => exact hm.tokens
  case backing => exact hm.backing
  case carriers =>
    intro k u hu
    obtain ⟨hlive, hns⟩ := spendAll_get_some hu
    refine (hget k).trans ?_
    rw [if_neg (by rwa [mem_burned hk hlive])]
    exact hm.carriers k u hlive
  case spent =>
    intro k r hr hnone
    replace hr := (hget k).symm.trans hr
    rw [spendAll_get] at hnone
    split at hr
    · obtain ⟨r', -, rfl⟩ := Option.map_eq_some_iff.mp hr
      simp [UtxoRow.burn, UtxoRow.spend]
    · rename_i hnot
      apply hm.spent k r hr
      by_contra hne
      obtain ⟨u, hu⟩ := Option.ne_none_iff_exists'.mp hne
      rw [mem_burned hk hu] at hnot
      rw [if_neg hnot] at hnone
      exact hne hnone
  case seen =>
    intro k r hr
    replace hr := (hget k).symm.trans hr
    split at hr
    · obtain ⟨r', hr', -⟩ := Option.map_eq_some_iff.mp hr
      exact hm.seen k r' hr'
    · exact hm.seen k r hr

theorem rollback_burn_rows (hm : Mirrors staged seen db σ) (hk : Keyed σ.tokenUtxos)
    (hn : tx.spends.Nodup) :
    ((burnOps C σ tx).reverse.foldl rollbackOp (db.burnRows C block σ tx)).tokenUtxos =
      db.tokenUtxos := by
  have hnd := liveInputs_nodup hk hn
  have hget := Table.get_updateAll db.tokenUtxos (UtxoRow.burn (tx.getId C) block) hnd
  have hlive : ∀ u ∈ liveInputs σ.tokenUtxos tx.ins,
      db.tokenUtxos.get u.outpoint = some (utxoRow u) := fun u hu =>
    hm.carriers _ _ ((mem_liveInputs hk).mp hu).1
  have hthere : ∀ x ∈ (liveInputs σ.tokenUtxos tx.ins).map utxoEntry,
      (db.burnRows C block σ tx).tokenUtxos.get x.1 ≠ none := by
    intro x hx
    obtain ⟨u, hu, rfl⟩ := List.mem_map.mp hx
    rw [utxoEntry, Db.burnRows, hget, if_pos (List.mem_map_of_mem hu), hlive u hu]
    simp
  have hkeys : ((liveInputs σ.tokenUtxos tx.ins).map utxoEntry).map Prod.fst =
      (liveInputs σ.tokenUtxos tx.ins).map V3TokenUtxo.outpoint := by
    rw [List.map_map]
    rfl
  have hback : Table.upsertAll (db.burnRows C block σ tx).tokenUtxos
      ((liveInputs σ.tokenUtxos tx.ins).map utxoEntry) UtxoRow.unburn = db.tokenUtxos := by
    rw [Table.upsertAll_eq_updateAll _ hthere, hkeys]
    apply Dict.ext_get
    intro k
    rw [Table.get_updateAll _ _ hnd, Db.burnRows, hget]
    by_cases hkm : k ∈ (liveInputs σ.tokenUtxos tx.ins).map V3TokenUtxo.outpoint
    · obtain ⟨u, hu, rfl⟩ := List.mem_map.mp hkm
      rw [if_pos hkm, if_pos hkm, hlive u hu]
      rfl
    · rw [if_neg hkm, if_neg hkm]
  unfold burnOps
  split
  · rename_i hnil
    rw [hnil] at hback
    exact hback
  · exact hback

end Burn

/-! A whole block. -/

section Block

variable {C : Crypto} {cfg : V3IndexerConfig} {block : V3BlockInput}

theorem applyForwardAll_append {staged : Ledger} {ops ops' : List UndoOp} {db db' : Db}
    (h : applyForwardAll staged block ops db = .ok db') :
    applyForwardAll staged block (ops ++ ops') db = applyForwardAll staged block ops' db' := by
  induction ops generalizing db with
  | nil =>
    rw [Except.ok.inj h]
    rfl
  | cons op ops ih =>
    rw [applyForwardAll, bind_eq_ok] at h
    obtain ⟨mid, hmid, h⟩ := h
    rw [List.cons_append, applyForwardAll, hmid]
    exact ih h

/-- The carrier rows after a rollback depend on the carrier rows alone. -/
theorem rollbackOps_rows_congr (ops : List UndoOp) {db db' : Db}
    (h : db.tokenUtxos = db'.tokenUtxos) :
    (ops.foldl rollbackOp db).tokenUtxos = (ops.foldl rollbackOp db').tokenUtxos := by
  induction ops generalizing db db' with
  | nil => exact h
  | cons op ops ih =>
    apply ih
    cases op <;> simp [rollbackOp, Db.upsertBacking, h]

/-- What writing some operations of a block does to the tables. -/
structure Forward (staged : Ledger) (block : V3BlockInput) (ops : List UndoOp) (db db' : Db) :
    Prop where
  written : applyForwardAll staged block ops db = .ok db'
  log : db'.SameLog db
  rows_back : (ops.reverse.foldl rollbackOp db').tokenUtxos = db.tokenUtxos
  keyed : ∀ op ∈ ops, op.BackingKeyed

theorem Forward.nil (staged : Ledger) (block : V3BlockInput) (db : Db) :
    Forward staged block [] db db :=
  ⟨rfl, ⟨rfl, rfl, rfl, rfl⟩, rfl, by simp⟩

theorem Forward.append {staged : Ledger} {ops ops' : List UndoOp} {db mid db' : Db}
    (h : Forward staged block ops db mid) (h' : Forward staged block ops' mid db') :
    Forward staged block (ops ++ ops') db db' := by
  constructor
  case written => rw [applyForwardAll_append h.written, h'.written]
  case log => exact h'.log.trans h.log
  case rows_back =>
    rw [List.reverse_append, List.foldl_append, rollbackOps_rows_congr _ h'.rows_back, h.rows_back]
  case keyed =>
    intro op hop
    rcases List.mem_append.mp hop with hop | hop
    · exact h.keyed op hop
    · exact h'.keyed op hop

variable {σ staged : Ledger} {tx : Transaction} {seen : List Bytes} {db : Db}

theorem burn_forward (hm : Mirrors staged seen db σ) (hk : Keyed σ.tokenUtxos)
    (hn : tx.spends.Nodup) :
    Forward staged block (burnOps C σ tx) db (db.burnRows C block σ tx) := by
  refine ⟨applyForwardAll_burn, ⟨rfl, rfl, rfl, rfl⟩, rollback_burn_rows hm hk hn, ?_⟩
  intro op hop
  unfold burnOps at hop
  split at hop
  · cases hop
  · rw [List.mem_singleton.mp hop]
    exact trivial

theorem accepted_forward (hI : LedgerInv C cfg seen σ) (hn : tx.spends.Nodup)
    (hf : tx.getId C ∉ seen) (hm : Mirrors staged seen db σ) {envelope : ParsedEnvelopeV2}
    (hw : envelope.WellFormed) (a : Acceptance C cfg block σ tx envelope)
    (hext : (σ.perform a.effect).Extends staged)
    (hkey : ∀ t b, staged.backing.get t = some b → b.tokenId = t) :
    Forward staged block [a.undo] db (db.write staged block (tx.getId C) a.effect) := by
  refine ⟨?_, ⟨rfl, rfl, rfl, rfl⟩, rollbackOp_rows hI hm hn hf hw a, ?_⟩
  · rw [applyForwardAll, applyForward_eq_write hI hn hf hm hw a hext hkey]
    rfl
  · intro op hop
    rw [List.mem_singleton.mp hop]
    exact a.undo_backingKeyed hI

/-- One transaction's operations, written. -/
theorem Outcome.forward (hI : LedgerInv C cfg seen σ) (hn : tx.spends.Nodup)
    (hf : tx.getId C ∉ seen) (hm : Mirrors staged seen db σ) (o : Outcome C cfg block σ tx)
    (hext : o.ledger.Extends staged)
    (hkey : ∀ t b, staged.backing.get t = some b → b.tokenId = t) :
    ∃ db', Forward staged block (o.ops ++ burnOps C o.ledger tx) db db' ∧
      Mirrors staged (seen ++ [tx.getId C]) db' (o.ledger.spendAll tx) := by
  have hinv := o.ledger_inv hI hn hf
  have hmono : Mirrors staged (seen ++ [tx.getId C]) db σ :=
    { hm with seen := fun k r hr => List.mem_append_left _ (hm.seen k r hr) }
  cases o with
  | nonCove _ =>
    exact ⟨_, (burn_forward hm hI.keyed hn), burnRows_mirrors hmono hI.keyed hn⟩
  | refused _ _ _ _ =>
    exact ⟨_, (burn_forward hm hI.keyed hn), burnRows_mirrors hmono hI.keyed hn⟩
  | accepted envelope hp a =>
    have hw := parseCoveTx_wellFormed hp
    have hmid := write_mirrors block hm (a.sound hI hn hw) hf hext
    exact ⟨_, (accepted_forward hI hn hf hm hw a hext hkey).append
      (burn_forward hmid hinv.keyed hn), burnRows_mirrors hmid hinv.keyed hn⟩

/-- All transactions of a block, written with the state after the block. -/
theorem applyTxs_forward (db : Db) {base txs : List Transaction} {txIndex : Nat} {run final : BlockRun}
    (hc : ConsensusValid C (base ++ txs)) (hI : LedgerInv C cfg (txidsOf C base) run.ledger)
    (hm : Mirrors final.ledger (txidsOf C base) db run.ledger)
    (hkey : ∀ t b, final.ledger.backing.get t = some b → b.tokenId = t)
    (h : applyTxs C cfg block txIndex txs run = .ok final) :
    ∃ ops db', final.ops = run.ops ++ ops ∧ Forward final.ledger block ops db db' ∧
      Mirrors final.ledger (txidsOf C (base ++ txs)) db' final.ledger := by
  induction txs generalizing base txIndex run db with
  | nil =>
    simp only [applyTxs, Except.ok.injEq] at h
    subst h
    exact ⟨[], db, by simp, .nil _ _ _, by simpa using hm⟩
  | cons tx txs ih =>
    rw [applyTxs, bind_eq_ok] at h
    obtain ⟨mid, hmid, h⟩ := h
    have hinv := applyTx_inv hI hc.inputs hc.fresh hmid
    have hbase : txidsOf C base ++ [tx.getId C] = txidsOf C (base ++ [tx]) := by simp [txidsOf]
    rw [hbase] at hinv
    rw [List.append_cons] at hc ⊢
    have hext := applyTxs_extends hc hinv h
    have hn : tx.spends.Nodup := hc.inputs_nodup tx (by simp)
    have hf : tx.getId C ∉ txidsOf C base := by
      rw [← List.append_cons] at hc
      exact hc.fresh
    obtain ⟨o, rfl⟩ := applyTx_cases hn hmid
    obtain ⟨db₁, hfwd, hm₁⟩ := o.forward hI hn hf hm (spendAll_extends.trans hext) hkey
    rw [hbase] at hm₁
    obtain ⟨ops, db₂, hops, hfwd', hm₂⟩ := ih db₁ hc hinv hm₁ h
    refine ⟨(o.ops ++ burnOps C o.ledger tx) ++ ops, db₂, ?_, hfwd.append hfwd', hm₂⟩
    rw [hops, Outcome.after]
    simp

end Block

end Cove
