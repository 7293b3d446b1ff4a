import Cove.Indexer.Admit
import Cove.Indexer.Monitors
import Cove.Lib.Tally

/-! The derived read models: `packages/cove-indexer/src/v3/read-models.ts` and the queries of
`read-models-db.ts`. -/

namespace Cove

open Checked

/-! Over carriers in memory. -/

def balanceByScript (tokenUtxos : List V3TokenUtxo) (tokenId scriptPubKey : Bytes) : Int :=
  tokenUtxos.foldl (fun sum u =>
    if u.tokenId = tokenId ∧ u.scriptPubKey = scriptPubKey then sum + u.amountAtoms else sum) 0

def tokenUtxosByScript (tokenUtxos : List V3TokenUtxo) (scriptPubKey : Bytes) : List V3TokenUtxo :=
  tokenUtxos.filter fun u => u.scriptPubKey = scriptPubKey

def tokenHolders (tokenUtxos : List V3TokenUtxo) (tokenId : Bytes) : List (Bytes × Int) :=
  tokenUtxos.foldl (fun m u =>
    if u.tokenId ≠ tokenId then m else Tally.add u.scriptPubKey u.amountAtoms m) []

structure TokenDetail where
  tokenId : Bytes
  ticker : Bytes
  deployTxid : Bytes
  policyVersion : Nat
  issuedSupplyAtoms : Int
  publicCapAtoms : Int
  backingSats : Int
  backingOutpoint : OutPoint
  backingStateHash : Bytes
  curveStage : Nat
  holderCount : Nat
  tokenUtxoCount : Nat
  deployHeight : Nat
  deriving DecidableEq, Repr

def currentBacking (token : V3TokenMeta) (backing : V3Backing) (tokenUtxos : List V3TokenUtxo)
    (publicCapAtoms : Int) : TokenDetail where
  tokenId := token.tokenId
  ticker := token.ticker
  deployTxid := token.deployTxid
  policyVersion := token.policyVersion
  issuedSupplyAtoms := backing.state.issuedPublicSupplyAtoms
  publicCapAtoms := publicCapAtoms
  backingSats := backing.state.backingSats
  backingOutpoint := backing.outpoint
  backingStateHash := backing.stateHash
  curveStage := backing.state.curveStage
  holderCount := (tokenHolders tokenUtxos token.tokenId).length
  tokenUtxoCount := (tokenUtxos.filter fun u => u.tokenId = token.tokenId).length
  deployHeight := token.deployHeight

/-! Over the rows of a query, in whatever order the database returns them. -/

def rowCarriers (rows : List (OutPoint × UtxoRow)) : List V3TokenUtxo :=
  rows.map fun e => e.2.toUtxo e.1

def liveOfToken (tokenId : Bytes) (r : UtxoRow) : Bool :=
  r.tokenId = tokenId && r.spentByTxid.isNone

def liveOfScript (tokenId scriptPubKey : Bytes) (r : UtxoRow) : Bool :=
  r.tokenId = tokenId && r.scriptPubKey = scriptPubKey && r.spentByTxid.isNone

/-- From the rows `liveOfScript` selects. -/
def getBalanceByScriptDb (rows : List (OutPoint × UtxoRow)) : Int :=
  rows.foldl (fun s r => s + r.2.amountAtoms) 0

/-- From the rows `liveOfToken` selects. -/
def getTokenHoldersDb (rows : List (OutPoint × UtxoRow)) (tokenId : Bytes) : List (Bytes × Int) :=
  tokenHolders (rowCarriers rows) tokenId

/-- From the token's row, its backing row and the rows `liveOfToken` selects. -/
def getTokenDetailDb (db : Db) (rows : List (OutPoint × UtxoRow)) (tokenId : Bytes)
    (publicCapAtoms : Int) : Option TokenDetail :=
  match db.tokens.get tokenId, db.backingStates.get tokenId with
  | some t, some b =>
    some (currentBacking (t.toMeta tokenId) (b.toBacking tokenId) (rowCarriers rows) publicCapAtoms)
  | _, _ => none

/-! The folds as sums. -/

def holdings (tokenUtxos : List V3TokenUtxo) : List (Bytes × Int) :=
  tokenUtxos.map fun u => (u.scriptPubKey, u.amountAtoms)

theorem tokenHolders_eq_tally (tokenUtxos : List V3TokenUtxo) (t : Bytes) :
    tokenHolders tokenUtxos t =
      Tally.tally (holdings (tokenUtxos.filter fun u => u.tokenId = t)) := by
  rw [tokenHolders, Tally.tally, holdings, List.foldl_map, List.foldl_filter]
  congr 1
  funext m u
  by_cases ht : u.tokenId = t
  · simp [ht]
  · simp [ht]

theorem balanceByScript_eq_sum (tokenUtxos : List V3TokenUtxo) (t script : Bytes) :
    balanceByScript tokenUtxos t script =
      sumAtoms (tokenUtxos.filter fun u => u.tokenId = t ∧ u.scriptPubKey = script) := by
  have hfold : ∀ s : Int, tokenUtxos.foldl (fun sum u =>
      if u.tokenId = t ∧ u.scriptPubKey = script then sum + u.amountAtoms else sum) s =
      s + sumAtoms (tokenUtxos.filter fun u => u.tokenId = t ∧ u.scriptPubKey = script) := by
    induction tokenUtxos with
    | nil => simp [sumAtoms]
    | cons u l ih =>
      intro s
      rw [List.foldl_cons, ih]
      by_cases hu : u.tokenId = t ∧ u.scriptPubKey = script
      · rw [if_pos hu, List.filter_cons_of_pos (by simpa using hu)]
        simp [sumAtoms, add_assoc]
      · rw [if_neg hu, List.filter_cons_of_neg (by simpa using hu)]
  rw [balanceByScript, hfold, zero_add]

theorem getBalanceByScriptDb_eq_sum (rows : List (OutPoint × UtxoRow)) :
    getBalanceByScriptDb rows = sumAtoms (rowCarriers rows) := by
  have hfold : ∀ s : Int, rows.foldl (fun s r => s + r.2.amountAtoms) s =
      s + sumAtoms (rowCarriers rows) := by
    induction rows with
    | nil => simp [sumAtoms, rowCarriers]
    | cons e rows ih =>
      intro s
      rw [List.foldl_cons, ih]
      simp [sumAtoms, rowCarriers, UtxoRow.toUtxo, add_assoc]
  rw [getBalanceByScriptDb, hfold, zero_add]

theorem amount_holdings (l : List V3TokenUtxo) (script : Bytes) :
    Tally.amount script (holdings l) = sumAtoms (l.filter fun u => u.scriptPubKey = script) := by
  induction l with
  | nil => rfl
  | cons u l ih =>
    have hcons : holdings (u :: l) = (u.scriptPubKey, u.amountAtoms) :: holdings l := rfl
    rw [hcons, Tally.amount_cons, ih]
    by_cases hu : u.scriptPubKey = script
    · simp [hu, sumAtoms]
    · simp [hu, sumAtoms]

theorem sum_holdings (l : List V3TokenUtxo) :
    ((holdings l).map Prod.snd).sum = sumAtoms l := by
  rw [holdings, List.map_map]
  rfl

theorem sumAtoms_perm {l l' : List V3TokenUtxo} (h : l.Perm l') : sumAtoms l = sumAtoms l' :=
  (h.map _).sum_eq

/-- With positive carriers, the holders are exactly the scripts with a balance. -/
theorem mem_tokenHolders {l : List V3TokenUtxo} (hpos : ∀ u ∈ l, 0 < u.amountAtoms)
    (t script : Bytes) (amount : Int) :
    (script, amount) ∈ tokenHolders l t ↔ amount = balanceByScript l t script ∧ 0 < amount := by
  have hbalance : Tally.amount script (tokenHolders l t) = balanceByScript l t script := by
    rw [tokenHolders_eq_tally, Tally.amount_tally, amount_holdings, balanceByScript_eq_sum,
      List.filter_filter]
    congr 1
    apply List.filter_congr
    intro u _
    simp [Bool.decide_and, Bool.and_comm]
  have hn : ((tokenHolders l t).map Prod.fst).Nodup := by
    rw [tokenHolders_eq_tally]
    exact Tally.nodup_tally _
  have hamount : script ∈ (tokenHolders l t).map Prod.fst →
      0 < Tally.amount script (tokenHolders l t) := by
    rw [tokenHolders_eq_tally, Tally.mem_keys_tally, Tally.amount_tally]
    apply Tally.amount_pos
    intro e he
    obtain ⟨u, hu, rfl⟩ := List.mem_map.mp he
    exact hpos u (List.mem_filter.mp hu).1
  rw [← hbalance]
  constructor
  · intro h
    have heq := Tally.eq_amount hn h
    have hkey : script ∈ (tokenHolders l t).map Prod.fst := List.mem_map_of_mem h
    exact ⟨heq, heq ▸ hamount hkey⟩
  · intro h
    obtain ⟨rfl, hp⟩ := h
    have hkey : script ∈ (tokenHolders l t).map Prod.fst := by
      by_contra hnot
      rw [Tally.amount_eq_zero hnot] at hp
      exact absurd hp (lt_irrefl 0)
    obtain ⟨e, he, rfl⟩ := List.mem_map.mp hkey
    rw [← Tally.eq_amount hn he]
    exact he

theorem nodup_tokenHolders (l : List V3TokenUtxo) (t : Bytes) :
    ((tokenHolders l t).map Prod.fst).Nodup := by
  rw [tokenHolders_eq_tally]
  exact Tally.nodup_tally _

theorem sum_tokenHolders (l : List V3TokenUtxo) (t : Bytes) :
    ((tokenHolders l t).map Prod.snd).sum = sumAtoms (l.filter fun u => u.tokenId = t) := by
  rw [tokenHolders_eq_tally, Tally.sum_tally, sum_holdings]

/-- The order of the carriers moves holders around and changes none. -/
theorem tokenHolders_perm {l l' : List V3TokenUtxo} (hpos : ∀ u ∈ l, 0 < u.amountAtoms)
    (h : l.Perm l') (t : Bytes) : (tokenHolders l t).Perm (tokenHolders l' t) := by
  have hpos' : ∀ u ∈ l', 0 < u.amountAtoms := fun u hu => hpos u (h.mem_iff.mpr hu)
  have hbalance : ∀ script, balanceByScript l t script = balanceByScript l' t script := by
    intro script
    rw [balanceByScript_eq_sum, balanceByScript_eq_sum]
    exact sumAtoms_perm (h.filter _)
  apply (List.perm_ext_iff_of_nodup (nodup_tokenHolders l t).of_map
    (nodup_tokenHolders l' t).of_map).mpr
  intro e
  rw [mem_tokenHolders hpos t e.1 e.2, mem_tokenHolders hpos' t e.1 e.2, hbalance]

/-! The queries against the carriers in memory. -/

section

variable {C : Crypto} {cfg : V3IndexerConfig} {chain : List V3BlockInput} {σ : V3IndexerState}
  {db : Db} {rows : List (OutPoint × UtxoRow)} {entries : List (OutPoint × V3TokenUtxo)}

/-- The rows of a query for unspent carriers are the carriers in memory that pass. -/
theorem answers_perm (hS : Synced C cfg chain σ db) (hI : StateInv C cfg chain σ)
    {p : V3TokenUtxo → Bool} {q : UtxoRow → Bool}
    (hpq : ∀ k r, q r = (p (r.toUtxo k) && r.spentByTxid.isNone)) (hrows : Answers db q rows)
    (hlive : Table.Lists entries σ.tokenUtxos) :
    (rowCarriers rows).Perm ((entries.map Prod.snd).filter p) := by
  have hback : ∀ (k : OutPoint) (u : V3TokenUtxo), u.outpoint = k → (utxoRow u).toUtxo k = u := by
    rintro _ u rfl
    rfl
  have hget : ∀ k r, (k, r) ∈ rows ↔ ∃ u, σ.tokenUtxos.get k = some u ∧ p u = true ∧
      r = utxoRow u := by
    intro k r
    have hunspent := unspent_get hS k
    rw [Dict.get_filter] at hunspent
    rw [hrows.mem_iff, Dict.get_filter, Option.filter_eq_some_iff, hpq k r, Bool.and_eq_true]
    constructor
    · intro h
      rw [h.1, Option.filter_some, if_pos h.2.2] at hunspent
      obtain ⟨u, hu, hr⟩ := Option.map_eq_some_iff.mp hunspent.symm
      refine ⟨u, hu, ?_, hr.symm⟩
      have hp := h.2.1
      rwa [← hr, hback k u (hI.ledger.keyed k u hu)] at hp
    · intro h
      obtain ⟨u, hu, hp, rfl⟩ := h
      have hk := hback k u (hI.ledger.keyed k u hu)
      exact ⟨hS.ledger.carriers k u hu, by rwa [hk], rfl⟩
  -- Both lists are free of repetitions: rows by their keys, carriers by their outpoints.
  have hn : (rowCarriers rows).Nodup := by
    apply List.Nodup.of_map V3TokenUtxo.outpoint
    rw [rowCarriers, List.map_map]
    exact hrows.nodup
  have hn' : ((entries.map Prod.snd).filter p).Nodup := by
    apply List.Nodup.filter
    apply List.Nodup.of_map V3TokenUtxo.outpoint
    have hkeys : (entries.map Prod.snd).map V3TokenUtxo.outpoint = entries.map Prod.fst := by
      rw [List.map_map]
      apply List.map_congr_left
      intro e he
      exact hI.ledger.keyed e.1 e.2 (hlive.mem_iff.mp he)
    rw [hkeys]
    exact hlive.nodup
  apply (List.perm_ext_iff_of_nodup hn hn').mpr
  intro u
  rw [rowCarriers, List.mem_map, List.mem_filter, List.mem_map]
  constructor
  · intro h
    obtain ⟨e, he, rfl⟩ := h
    obtain ⟨u, hu, hp, hr⟩ := (hget e.1 e.2).mp he
    rw [hr, hback e.1 u (hI.ledger.keyed e.1 u hu)]
    exact ⟨⟨(e.1, u), hlive.mem_iff.mpr hu, rfl⟩, hp⟩
  · intro h
    obtain ⟨⟨e, he, rfl⟩, hp⟩ := h
    have hu := hlive.mem_iff.mp he
    exact ⟨(e.1, utxoRow e.2), (hget _ _).mpr ⟨e.2, hu, hp, rfl⟩,
      hback e.1 e.2 (hI.ledger.keyed e.1 e.2 hu)⟩

theorem liveOfToken_perm (hl : Lockstep C cfg chain σ db) {t : Bytes}
    (hrows : Answers db (liveOfToken t) rows) (hlive : Table.Lists entries σ.tokenUtxos) :
    (rowCarriers rows).Perm ((entries.map Prod.snd).filter fun u => u.tokenId = t) := by
  apply answers_perm hl.synced hl.inv _ hrows hlive
  intro k r
  rfl

theorem rowCarriers_filter (hl : Lockstep C cfg chain σ db) {t : Bytes}
    (hrows : Answers db (liveOfToken t) rows) (hlive : Table.Lists entries σ.tokenUtxos) :
    (rowCarriers rows).filter (fun u => u.tokenId = t) = rowCarriers rows := by
  apply List.filter_eq_self.mpr
  intro u hu
  exact (List.mem_filter.mp ((liveOfToken_perm hl hrows hlive).mem_iff.mp hu)).2

theorem liveOfScript_perm (hl : Lockstep C cfg chain σ db) {t script : Bytes}
    (hrows : Answers db (liveOfScript t script) rows)
    (hlive : Table.Lists entries σ.tokenUtxos) : (rowCarriers rows).Perm
      ((entries.map Prod.snd).filter fun u => u.tokenId = t ∧ u.scriptPubKey = script) := by
  apply answers_perm hl.synced hl.inv _ hrows hlive
  intro k r
  rw [liveOfScript, Bool.decide_and]
  rfl

/-- A filter the carriers have already passed. -/
theorem tokenHolders_filter (l : List V3TokenUtxo) (t : Bytes) :
    tokenHolders (l.filter fun u => u.tokenId = t) t = tokenHolders l t := by
  rw [tokenHolders_eq_tally, tokenHolders_eq_tally, List.filter_filter]
  simp

theorem entries_pos (hl : Lockstep C cfg chain σ db) (hlive : Table.Lists entries σ.tokenUtxos) :
    ∀ u ∈ entries.map Prod.snd, 0 < u.amountAtoms := by
  intro u hu
  obtain ⟨e, he, rfl⟩ := List.mem_map.mp hu
  exact hl.replays.carriersPos e.1 e.2 (hlive.mem_iff.mp he)

/-- The holders read from the tables are those of the carriers in memory. -/
theorem getTokenHoldersDb_perm (hl : Lockstep C cfg chain σ db) {t : Bytes}
    (hrows : Answers db (liveOfToken t) rows) (hlive : Table.Lists entries σ.tokenUtxos) :
    (getTokenHoldersDb rows t).Perm (tokenHolders (entries.map Prod.snd) t) := by
  have hperm := liveOfToken_perm hl hrows hlive
  have hpos : ∀ u ∈ rowCarriers rows, 0 < u.amountAtoms := fun u hu =>
    entries_pos hl hlive u (List.mem_filter.mp (hperm.mem_iff.mp hu)).1
  rw [← tokenHolders_filter (entries.map Prod.snd)]
  exact tokenHolders_perm hpos hperm t

theorem getTokenDetailDb_eq (hl : Lockstep C cfg chain σ db) {t : Bytes}
    (hrows : Answers db (liveOfToken t) rows) (hlive : Table.Lists entries σ.tokenUtxos)
    {m : V3TokenMeta} {b : V3Backing} (hm : σ.tokens.get t = some m)
    (hb : σ.backing.get t = some b) (cap : Int) :
    getTokenDetailDb db rows t cap = some (currentBacking m b (entries.map Prod.snd) cap) := by
  have hrowsOf := hl.synced.ledger.rowsOf
  have hI := hl.inv.ledger
  have hkey := hI.meta_key t m hm
  have hmeta : (tokenRow m).toMeta t = m := by
    rw [← hkey]
    rfl
  have hcount : ((rowCarriers rows).filter fun u => u.tokenId = t).length =
      ((entries.map Prod.snd).filter fun u => u.tokenId = t).length := by
    rw [rowCarriers_filter hl hrows hlive]
    exact (liveOfToken_perm hl hrows hlive).length_eq
  have hholders : (tokenHolders (rowCarriers rows) t).length =
      (tokenHolders (entries.map Prod.snd) t).length :=
    (getTokenHoldersDb_perm hl hrows hlive).length_eq
  rw [getTokenDetailDb, hrowsOf.tokens, hrowsOf.backing, hm, hb]
  simp only [Option.map_some, hmeta, toBacking_backingRow (hI.backing_sound t b hb), currentBacking,
    hkey, hholders, hcount]

/-- The read models show the ledger: in whatever order the rows come back, a token has one
holder for each script with a balance, a balance is the one over the carriers in memory, the
detail is that of the records in memory, and what is held and what was burned make up the
issued supply. -/
theorem read_models_exact (hl : Lockstep C cfg chain σ db)
    (hlive : Table.Lists entries σ.tokenUtxos) (t : Bytes)
    (hrows : Answers db (liveOfToken t) rows) {burned : List (OutPoint × UtxoRow)}
    (hburned : Answers db (burnedOfToken t) burned) :
    ((getTokenHoldersDb rows t).map Prod.fst).Nodup ∧
    (∀ script own, Answers db (liveOfScript t script) own →
      getBalanceByScriptDb own = balanceByScript (entries.map Prod.snd) t script ∧
      ∀ amount, (script, amount) ∈ getTokenHoldersDb rows t ↔
        amount = getBalanceByScriptDb own ∧ 0 < amount) ∧
    (∀ m b cap, σ.tokens.get t = some m → σ.backing.get t = some b →
      getTokenDetailDb db rows t cap = some (currentBacking m b (entries.map Prod.snd) cap)) ∧
    ((getTokenHoldersDb rows t).map Prod.snd).sum + sumRows burned = σ.issued t := by
  have hholders := getTokenHoldersDb_perm hl hrows hlive
  refine ⟨nodup_tokenHolders _ _, ?_, ?_, ?_⟩
  · intro script own hown
    have hbalance : getBalanceByScriptDb own = balanceByScript (entries.map Prod.snd) t script := by
      rw [getBalanceByScriptDb_eq_sum, balanceByScript_eq_sum]
      exact sumAtoms_perm (liveOfScript_perm hl hown hlive)
    refine ⟨hbalance, ?_⟩
    intro amount
    rw [hbalance, hholders.mem_iff]
    exact mem_tokenHolders (entries_pos hl hlive) t script amount
  · intro m b cap hm hb
    exact getTokenDetailDb_eq hl hrows hlive hm hb cap
  · have hheld : ((getTokenHoldersDb rows t).map Prod.snd).sum = sumRows rows := by
      rw [getTokenHoldersDb, sum_tokenHolders, rowCarriers_filter hl hrows hlive, sumAtoms,
        rowCarriers, List.map_map]
      rfl
    rw [hheld, sumRows_answers hrows, sumRows_answers hburned, ← Dict.total_add, ← hl.counted t]
    apply Dict.total_congr
    intro k r hr
    have hunburned : r.spentByTxid = none → r.burned = false := by
      intro hnone
      have hu := unspent_get hl.synced k
      rw [Dict.get_filter, hr, Option.filter_some, if_pos (by simp [hnone])] at hu
      obtain ⟨u, -, hrow⟩ := Option.map_eq_some_iff.mp hu.symm
      rw [← hrow]
      rfl
    cases hs : r.spentByTxid with
    | none => simp [countedRow, liveOfToken, burnedOfToken, hs, hunburned hs]
    | some _ => simp [countedRow, liveOfToken, burnedOfToken, hs]

end

theorem read_models_exact_sample : ∃ σ db rows burned,
    Lockstep sampleCrypto sampleConfig [deployBlock, mintBlock] σ db ∧
      Answers db (liveOfToken alphaId) rows ∧ Answers db (burnedOfToken alphaId) burned ∧
      ((getTokenHoldersDb rows alphaId).map Prod.snd).sum + sumRows burned = σ.issued alphaId := by
  obtain ⟨σ, _, hσ, -⟩ := sample_reachable
  obtain ⟨db, hl⟩ := hσ.lockstep
  obtain ⟨entries, hlive⟩ := Table.exists_lists σ.tokenUtxos
  obtain ⟨rows, hrows⟩ := Table.exists_lists (db.tokenUtxos.filter fun _ r => liveOfToken alphaId r)
  obtain ⟨burned, hburned⟩ :=
    Table.exists_lists (db.tokenUtxos.filter fun _ r => burnedOfToken alphaId r)
  obtain ⟨-, -, -, hsum⟩ := read_models_exact hl hlive alphaId hrows hburned
  exact ⟨σ, db, rows, burned, hl, hrows, hburned, hsum⟩

end Cove
