import Cove.App.Pending

/-! The pending backing is the indexer's: what the walk returns over a chain of accepted
transactions, and what is left of them once they are mined. -/

namespace Cove

open Checked

/-! One pending transaction. -/

section

variable {C : Crypto} {cfg : V3IndexerConfig} {X : SimplicityExecutor} {rules : FinalizeParams}
  {chain : List V3BlockInput} {σ : V3IndexerState} {db : Db} {tokenId : Bytes}
  {tip next : AppBacking} {tx : Transaction} {block : V3BlockInput} {ledger : Ledger}

theorem loadConfirmedBacking_eq (hl : Lockstep C cfg chain σ db) (tokenId : Bytes) :
    loadConfirmedBacking db tokenId = (σ.backing.get tokenId).map V3Backing.toAppBacking := by
  have hrow : db.backingStates.get tokenId = (σ.backing.get tokenId).map backingRow := by
    rcases hl.synced.ledger.backing tokenId with h | h
    · exact h
    · exact h.2
  rw [loadConfirmedBacking, hrow, Option.map_map]
  cases hb : σ.backing.get tokenId with
  | none => rfl
  | some b =>
    have hid := (hl.inv.ledger.backing_sound tokenId b hb).state_tokenId
    have hstate : (backingRow b).toState tokenId = b.state := by
      rw [BackingRow.toState, ← hid]
      rfl
    rw [Option.map_some, Option.map_some, Option.some.injEq, V3Backing.toAppBacking, ← hstate]
    rfl

/-- Over a tip that is the ledger's backing, the submitted view reads the ledger. -/
theorem overlay_reads (hl : Lockstep C cfg chain σ db) (htokens : ledger.tokens = σ.tokens)
    (hback : BackedBy ledger tokenId tip) (relevant : List OutPoint) :
    ReadsToken (overlayPendingBacking (loadCanonicalViewSnapshotFromDb db tokenId relevant) tokenId
      tip.toBackingTip) ledger tokenId := by
  obtain ⟨b, hb, rfl⟩ := Option.map_eq_some_iff.mp hback
  constructor
  case state =>
    rw [hb]
    exact if_pos rfl
  case outpoint =>
    rw [hb]
    exact if_pos rfl
  case creator =>
    intro script h
    rw [htokens]
    have hrow := hl.synced.ledger.tokens tokenId
    rw [overlayPendingBacking, loadCanonicalViewSnapshotFromDb] at h
    dsimp only at h
    rw [if_pos rfl, hrow, Option.map_map] at h
    obtain ⟨hmap, -⟩ := Option.filter_eq_some_iff.mp h
    exact Option.map_eq_some_iff.mp hmap

theorem BackedBy.outpoint {b : V3Backing} (h : BackedBy ledger tokenId tip)
    (hb : ledger.backing.get tokenId = some b) : b.outpoint = tip.outpoint := by
  rw [BackedBy, hb, Option.map_some, Option.some.injEq] at h
  rw [← h]
  rfl

theorem BackedBy.get (h : BackedBy ledger tokenId tip) :
    ∃ b, ledger.backing.get tokenId = some b ∧ b.toAppBacking = tip :=
  Option.map_eq_some_iff.mp h

/-- What a submission accepted is a mint or a redeem of the session's token. -/
theorem AcceptedAt.finalized (h : AcceptedAt C X rules db tokenId tip tx) :
    (∃ amount canonical, MintFinalized C X (rules.submitted db tokenId [] tip.toBackingTip tx)
      tokenId amount tip.state canonical) ∨
    ∃ amount changes total canonical,
      RedeemFinalized C X (rules.submitted db tokenId tx.spends tip.toBackingTip tx) tokenId amount
        changes total tip.state canonical := by
  have hown : ∀ relevant t s, finalBackingInput C
      (rules.submitted db tokenId relevant tip.toBackingTip tx) t = .ok s →
      t = tokenId ∧ s = tip.state := by
    intro relevant t s hs
    obtain ⟨hstate, -⟩ := finalBackingInput_ok hs
    rw [FinalizeParams.submitted, overlayPendingBacking] at hstate
    dsimp only at hstate
    split at hstate
    · exact ⟨‹_›, (Option.some.inj hstate).symm⟩
    · rw [loadCanonicalViewSnapshotFromDb] at hstate
      dsimp only at hstate
      rw [if_neg ‹_›] at hstate
      cases hstate
  rcases h with ⟨r, hr⟩ | ⟨r, hr⟩
  · obtain ⟨t, amount, s, canonical, hv, -⟩ := validateFinalizedMint_eq_ok.mp hr
    obtain ⟨rfl, rfl⟩ := hown _ _ _ hv.backing
    exact Or.inl ⟨amount, canonical, hv⟩
  · obtain ⟨t, amount, changes, total, s, canonical, hv, -⟩ := validateFinalizedRedeem_eq_ok.mp hr
    obtain ⟨rfl, rfl⟩ := hown _ _ _ hv.backing
    exact Or.inr ⟨amount, changes, total, canonical, hv⟩

theorem pendingVault_paid {keys : VaultKeys} {s : CoveStateV2} (hvalid : ValidStateV2 s)
    (h : PaysVault C keys tx.outs s) : ∃ next, pendingVault C tx s = .ok (some next) := by
  obtain ⟨vault, out, -, ho, -, hvalue⟩ := h
  obtain ⟨stateHash, hhash⟩ := stateHashV2_of_valid (C := C) hvalid
  rw [pendingVault, ho]
  dsimp only
  rw [if_pos hvalue, hhash]
  exact ⟨_, rfl⟩

/-- The walk goes on from every accepted submission. -/
theorem AcceptedAt.successor (h : AcceptedAt C X rules db tokenId tip tx) :
    ∃ next, pendingSuccessor C tip tx = .ok (some next) := by
  rcases h.finalized with ⟨amount, canonical, hv⟩ | ⟨amount, changes, total, canonical, hv⟩
  · have hwire : decodeCoveOpReturnTx tx = .ok (.mint tokenId amount 2) := hv.wire
    obtain ⟨next, hnext⟩ := pendingVault_paid (applyMintV2_spec hv.canonical_eq).2.1
      (finalSuccessor_ok hv.successor)
    refine ⟨next, ?_⟩
    rw [pendingSuccessor, hwire]
    simp only [bind_eq_ok]
    exact ⟨canonical, hv.canonical_eq, hnext⟩
  · have hwire : decodeCoveOpReturnTx tx = .ok (.redeem tokenId amount changes) := hv.wire
    obtain ⟨next, hnext⟩ := pendingVault_paid (applyRedeemV2_spec hv.canonical_eq).2.1
      (finalSuccessor_ok hv.successor)
    refine ⟨next, ?_⟩
    rw [pendingSuccessor, hwire]
    simp only [bind_eq_ok]
    exact ⟨canonical, hv.canonical_eq, hnext⟩

/-- An accepted operation of the token leads the ledger's backing to the tip's successor. -/
theorem Acceptance.successor {envelope : ParsedEnvelopeV2}
    (a : Acceptance C cfg block ledger tx envelope) (hp : parseCoveTx tx = .cove envelope)
    (hwire : decodeCoveOpReturnTx tx = .ok envelope) (hback : BackedBy ledger tokenId tip)
    (htoken : a.effect.tokenId = tokenId) (hnext : pendingSuccessor C tip tx = .ok (some next)) :
    BackedBy (Outcome.accepted envelope hp a).next tokenId next := by
  obtain ⟨b, hb, rfl⟩ := hback.get
  subst htoken
  rw [pendingSuccessor, hwire] at hnext
  cases a with
  | deploy a => cases hnext
  | transfer a => cases hnext
  | @mint t amount vout a =>
    have hbacking : a.backing = b := Option.some.inj (a.backing_get.symm.trans hb)
    have hcanonical := a.canonical_eq
    rw [hbacking] at hcanonical
    have hsucc : pendingVault C tx a.canonical.nextState =
        .ok (some (a.nextBacking block).toAppBacking) := by
      rw [pendingVault, a.successor_get]
      dsimp only
      rw [if_pos a.successor_value, a.stateHash_eq, a.successor_script]
      rfl
    simp only [bind_eq_ok] at hnext
    obtain ⟨canonical, hc, hvault⟩ := hnext
    obtain rfl := Except.ok.inj (hcanonical.symm.trans hc)
    obtain rfl := Option.some.inj (Except.ok.inj (hsucc.symm.trans hvault))
    exact congrArg (Option.map V3Backing.toAppBacking) (Dict.get_set_self _ _ _)
  | @redeem t amount changes a =>
    have hbacking : a.backing = b := Option.some.inj (a.backing_get.symm.trans hb)
    have hcanonical := a.canonical_eq
    rw [hbacking] at hcanonical
    have hsucc : pendingVault C tx a.canonical.nextState =
        .ok (some a.nextBacking.toAppBacking) := by
      rw [pendingVault, a.successor_get]
      dsimp only
      rw [if_pos a.successor_value, a.stateHash_eq, a.successor_script]
      rfl
    simp only [bind_eq_ok] at hnext
    obtain ⟨canonical, hc, hvault⟩ := hnext
    obtain rfl := Except.ok.inj (hcanonical.symm.trans hc)
    obtain rfl := Option.some.inj (Except.ok.inj (hsucc.symm.trans hvault))
    exact congrArg (Option.map V3Backing.toAppBacking) (Dict.get_set_self _ _ _)

/-- Where an acceptance exists, the outcome is one. -/
theorem Outcome.accepted_of {envelope : ParsedEnvelopeV2} (o : Outcome C cfg block ledger tx)
    (hp : parseCoveTx tx = .cove envelope) (a : Acceptance C cfg block ledger tx envelope) :
    ∃ a', o = .accepted envelope hp a' := by
  cases o with
  | nonCove h =>
    rw [hp] at h
    cases h
  | refused r hv _ hr =>
    have happly : applyEnvelope C cfg block ledger tx envelope =
        .ok (ledger.perform a.effect, a.result) := applyEnvelope_eq_ok.mpr ⟨a, rfl⟩
    rw [hp, applyParsed, applyCove, happly] at hr
    have hr' : a.result = r := congrArg Prod.snd (Except.ok.inj hr)
    rw [← hr', a.result_valid] at hv
    cases hv
  | accepted envelope' hp' a' =>
    obtain rfl : envelope' = envelope := by
      rw [hp] at hp'
      exact (ParsedCoveTx.cove.inj hp').symm
    exact ⟨a', rfl⟩

end

/-! The ledger after a clean part of the chain. -/

/-- The ledger after accepted transactions of the chain: the confirmed carriers they do not
spend, and the carriers they make. -/
structure MinedPrefix (C : Crypto) (cfg : V3IndexerConfig) (σ : Ledger)
    (base done : List Transaction) (ledger : Ledger) : Prop where
  inv : LedgerInv C cfg (txidsOf C (base ++ done)) ledger
  pos : CarriersPos ledger
  tokens : ledger.tokens = σ.tokens
  kept : ∀ o u, σ.tokenUtxos.get o = some u → o ∉ done.flatMap Transaction.spends →
    ledger.tokenUtxos.get o = some u
  origin : ∀ o u, ledger.tokenUtxos.get o = some u →
    σ.tokenUtxos.get o = some u ∨ o ∈ done.flatMap (carriersOf C)
  created : ∀ o ∈ done.flatMap (carriersOf C), o ∉ done.flatMap Transaction.spends →
    ∃ u, ledger.tokenUtxos.get o = some u

/-- What one transaction spends no other one does. -/
theorem ConsensusValid.spent_once {C : Crypto} {base done post : List Transaction}
    {tx : Transaction} (hc : ConsensusValid C (base ++ done ++ tx :: post)) {o : OutPoint}
    (ho : o ∈ tx.spends) (hne : o ≠ nullOutPoint) :
    o ∉ done.flatMap Transaction.spends ∧ o ∉ post.flatMap Transaction.spends := by
  have hn := hc.spends_nodup
  simp only [List.flatMap_append, List.flatMap_cons, List.filter_append] at hn
  have hmem : ∀ {l : List OutPoint}, o ∈ l → o ∈ l.filter (· ≠ nullOutPoint) :=
    fun h => List.mem_filter.mpr ⟨h, decide_eq_true hne⟩
  obtain ⟨-, hright, hcross⟩ := List.nodup_append.mp hn
  obtain ⟨-, -, hpost⟩ := List.nodup_append.mp hright
  constructor
  · intro hin
    exact hcross o (List.mem_append_right _ (hmem hin)) o (List.mem_append_left _ (hmem ho)) rfl
  · intro hin
    exact hpost o (hmem ho) o (hmem hin) rfl

section

variable {C : Crypto} {cfg : V3IndexerConfig} {X : SimplicityExecutor} {rules : FinalizeParams}
  {chain : List V3BlockInput} {σ : V3IndexerState} {db : Db} {tokenId : Bytes}
  {tip next : AppBacking} {tx : Transaction} {block : V3BlockInput} {ledger : Ledger}
  {base done post : List Transaction}

theorem MinedPrefix.start {σ : V3IndexerState} (hr : Replays C cfg chain σ) :
    MinedPrefix C cfg σ.toLedger (chainTxs chain) [] σ.toLedger := by
  refine ⟨by simpa using hr.inv.ledger, hr.carriersPos, rfl, fun _ _ h _ => h,
    fun _ _ h => Or.inl h, ?_⟩
  intro o ho
  cases ho

/-- An accepted mint or redeem goes on with the part. -/
theorem MinedPrefix.step {σ : Ledger} {envelope : ParsedEnvelopeV2}
    (h : MinedPrefix C cfg σ base done ledger)
    (hc : ConsensusValid C (base ++ done ++ tx :: post)) (hp : parseCoveTx tx = .cove envelope)
    (a : Acceptance C cfg block ledger tx envelope) (hmeta : a.effect.newMeta = none) :
    MinedPrefix C cfg σ base (done ++ [tx]) (Outcome.accepted envelope hp a).next := by
  have hinv := (Outcome.accepted envelope hp a).next_inv h.inv hc.inputs hc.fresh
  constructor
  case inv =>
    rw [← List.append_assoc]
    simpa [txidsOf] using hinv
  case pos => exact Outcome.next_carriersPos _ h.pos
  case tokens =>
    show a.effect.newMeta.elim ledger.tokens _ = σ.tokens
    rw [hmeta]
    exact h.tokens
  case kept =>
    intro o u hu hs
    rw [List.flatMap_append, List.flatMap_singleton, List.mem_append, not_or] at hs
    exact Outcome.next_keeps _ h.inv hc.inputs hc.fresh (h.kept o u hu hs.1) hs.2
  case origin =>
    intro o u hu
    rw [List.flatMap_append, List.flatMap_singleton, List.mem_append]
    rcases Outcome.next_origin _ hu with hold | hnew
    · exact (h.origin o u hold).imp_right Or.inl
    · exact Or.inr (Or.inr hnew)
  case created =>
    intro o ho hs
    rw [List.flatMap_append, List.flatMap_singleton, List.mem_append, not_or] at hs
    rw [List.flatMap_append, List.flatMap_singleton, List.mem_append] at ho
    rcases ho with hold | hnew
    · obtain ⟨u, hu⟩ := h.created o hold hs.1
      exact ⟨u, Outcome.next_keeps _ h.inv hc.inputs hc.fresh hu hs.2⟩
    · exact Outcome.accepted_creates hp a h.inv hc.inputs hc.fresh hnew hs.2

/-- A submission changes the transaction and the view only. -/
theorem FinalSharesRules.submitted (hrules : FinalSharesRules cfg rules) {relevant : List OutPoint}
    {tip : BackingTip} : FinalSharesRules cfg (rules.submitted db tokenId relevant tip tx) :=
  ⟨hrules.keys, hrules.feeScript, hrules.buyFeeBps, hrules.buyFeeFlatSats, hrules.creatorFeeBps,
    hrules.redeemFeeBps, hrules.redeemFeeFlatSats⟩

/-- A mint accepted at the tip is accepted by the indexer. -/
theorem MintFinalized.mined {amount : Int} {canonical : TransitionV2Result}
    {relevant : List OutPoint}
    (hv : MintFinalized C X (rules.submitted db tokenId relevant tip.toBackingTip tx) tokenId amount
      tip.state canonical)
    (hl : Lockstep C cfg chain σ db) (hrules : FinalSharesRules cfg rules)
    (h : MinedPrefix C cfg σ.toLedger base done ledger) (hback : BackedBy ledger tokenId tip) :
    Nonempty (MintAccepted C cfg ledger tx tokenId amount 2) := by
  obtain ⟨a, -⟩ := hv.accepts (overlay_reads hl h.tokens hback relevant) hrules.submitted
  exact ⟨a⟩

/-- What a redeem's snapshot knows of its inputs is live in the ledger, unless an earlier
transaction spent it. -/
theorem MinedPrefix.known (hl : Lockstep C cfg chain σ db)
    (h : MinedPrefix C cfg σ.toLedger (chainTxs chain) done ledger)
    (hc : ConsensusValid C (chainTxs chain ++ done ++ tx :: post)) (hnull : nullOutPoint ∉ tx.spends)
    {o : OutPoint} (ho : o ∈ tx.spends) {tok : TokenUtxo}
    (htok : (loadCanonicalViewSnapshotFromDb db tokenId tx.spends).getTokenUtxo o = some tok) :
    ∃ u, σ.tokenUtxos.get o = some u ∧ ledger.tokenUtxos.get o = some u ∧
      tok = u.toTokenUtxo := by
  obtain ⟨u, hu, -, -, rfl⟩ := (snapshot_getTokenUtxo hl.synced hl.inv _ _ o tok).mp htok
  have hne : o ≠ nullOutPoint := fun heq => hnull (heq ▸ ho)
  exact ⟨u, hu, h.kept o u hu (hc.spent_once ho hne).1, rfl⟩

theorem sum_filterMap {α β : Type} (f : α → Option β) (g : β → Int) (l : List α) :
    ((l.filterMap f).map g).sum = (l.map fun a => (f a).elim 0 g).sum := by
  induction l with
  | nil => rfl
  | cons a l ih =>
    rw [List.map_cons, List.sum_cons, ← ih, List.filterMap_cons]
    cases f a with
    | none => simp
    | some b => simp

/-- What a redeem's view counts is the total over all its inputs: the vault is no carrier. -/
theorem RedeemFinalized.total_seen {amount total : Int} {changes : List TokenAllocation}
    {canonical : TransitionV2Result}
    (hv : RedeemFinalized C X (rules.submitted db tokenId tx.spends tip.toBackingTip tx) tokenId
      amount changes total tip.state canonical)
    (hl : Lockstep C cfg chain σ db)
    (h : MinedPrefix C cfg σ.toLedger (chainTxs chain) done ledger)
    (hback : BackedBy ledger tokenId tip)
    (hc : ConsensusValid C (chainTxs chain ++ done ++ tx :: post))
    (hnull : nullOutPoint ∉ tx.spends) :
    total = (((loadCanonicalViewSnapshotFromDb db tokenId tx.spends).knownInputs tx.spends).map
      TokenUtxo.amountAtoms).sum := by
  obtain ⟨b, ins0, hb, -, hins, hout⟩ :=
    (overlay_reads hl h.tokens hback tx.spends).backing hv.backing
  have hspends : tx.spends = ins0.outpoint :: (tx.ins.drop 1).map TxIn.outpoint := by
    change tx.ins[0]? = some ins0 at hins
    rw [Transaction.spends]
    cases hcase : tx.ins with
    | nil => simp [hcase] at hins
    | cons i is =>
      obtain rfl : i = ins0 := by simpa [hcase] using hins
      rfl
  have hvault : (loadCanonicalViewSnapshotFromDb db tokenId tx.spends).getTokenUtxo ins0.outpoint =
      none := by
    by_contra hne
    obtain ⟨tok, htok⟩ := Option.ne_none_iff_exists'.mp hne
    obtain ⟨u, -, hu, -⟩ := h.known hl hc hnull (by rw [hspends]; exact List.mem_cons_self) htok
    rw [hout, h.inv.apart _ b hb] at hu
    cases hu
  obtain ⟨-, ht⟩ := tokenInputTotal_eq_ok.mp hv.total_eq
  rw [CoveCanonicalView.knownInputs]
  conv => rhs; rw [hspends, List.filterMap_cons]
  rw [← hspends, hvault]
  exact ht

/-- A carrier an earlier transaction of the chain makes is in no snapshot. -/
theorem MinedPrefix.created_unseen (hl : Lockstep C cfg chain σ db)
    (h : MinedPrefix C cfg σ.toLedger (chainTxs chain) done ledger)
    (hc : ConsensusValid C (chainTxs chain ++ done ++ tx :: post)) (hnull : nullOutPoint ∉ tx.spends)
    {o : OutPoint} (ho : o ∈ tx.spends) (hcreated : o ∈ done.flatMap (carriersOf C)) :
    (loadCanonicalViewSnapshotFromDb db tokenId tx.spends).getTokenUtxo o = none := by
  by_contra hne
  obtain ⟨tok, htok⟩ := Option.ne_none_iff_exists'.mp hne
  obtain ⟨u, hu, -, -⟩ := h.known hl hc hnull ho htok
  have hseen := hl.inv.ledger.carrier_seen o u hu
  obtain ⟨t, ht, hcarrier⟩ := List.mem_flatMap.mp hcreated
  obtain ⟨l, r, rfl⟩ := List.append_of_mem ht
  have hsplit : chainTxs chain ++ (l ++ t :: r) ++ tx :: post =
      (chainTxs chain ++ l) ++ t :: (r ++ tx :: post) := by simp
  apply ConsensusValid.fresh (hsplit ▸ hc)
  rw [← carriersOf_txid hcarrier, txidsOf, List.map_append]
  exact List.mem_append_left _ hseen

/-- A carrier of the chain counts for the indexer and not for the snapshot. -/
theorem MinedPrefix.seen_lt_live (hl : Lockstep C cfg chain σ db)
    (h : MinedPrefix C cfg σ.toLedger (chainTxs chain) done ledger)
    (hc : ConsensusValid C (chainTxs chain ++ done ++ tx :: post)) (hnull : nullOutPoint ∉ tx.spends)
    {o : OutPoint} (ho : o ∈ tx.spends) (hcreated : o ∈ done.flatMap (carriersOf C)) :
    (((loadCanonicalViewSnapshotFromDb db tokenId tx.spends).knownInputs tx.spends).map
      TokenUtxo.amountAtoms).sum < sumAtoms (liveInputs ledger.tokenUtxos tx.ins) := by
  have hlive : sumAtoms (liveInputs ledger.tokenUtxos tx.ins) =
      (tx.spends.map fun o => (ledger.tokenUtxos.get o).elim 0 V3TokenUtxo.amountAtoms).sum := by
    rw [sumAtoms, liveInputs, Transaction.spends, sum_filterMap, List.map_map]
    rfl
  rw [hlive, CoveCanonicalView.knownInputs, sum_filterMap]
  refine List.sum_lt_sum _ _ ?_ ⟨o, ho, ?_⟩
  · intro k hk
    cases htok : (loadCanonicalViewSnapshotFromDb db tokenId tx.spends).getTokenUtxo k with
    | some tok =>
      obtain ⟨u, -, hu, rfl⟩ := h.known hl hc hnull hk htok
      rw [hu]
      exact le_refl _
    | none =>
      cases hu : ledger.tokenUtxos.get k with
      | none => exact le_refl _
      | some u => exact (h.pos k u hu).le
  · have hne : o ≠ nullOutPoint := fun heq => hnull (heq ▸ ho)
    obtain ⟨u, hu⟩ := h.created o hcreated (hc.spent_once ho hne).1
    rw [h.created_unseen hl hc hnull ho hcreated, hu]
    exact h.pos o u hu

/-- The indexer accepts a redeem of the chain exactly when every live carrier it spends is one
its snapshot knew. -/
theorem RedeemFinalized.mined_iff {amount total : Int} {changes : List TokenAllocation}
    {canonical : TransitionV2Result}
    (hv : RedeemFinalized C X (rules.submitted db tokenId tx.spends tip.toBackingTip tx) tokenId
      amount changes total tip.state canonical)
    (hl : Lockstep C cfg chain σ db) (hrules : FinalSharesRules cfg rules)
    (h : MinedPrefix C cfg σ.toLedger (chainTxs chain) done ledger)
    (hback : BackedBy ledger tokenId tip)
    (hc : ConsensusValid C (chainTxs chain ++ done ++ tx :: post))
    (hnull : nullOutPoint ∉ tx.spends) (block : V3BlockInput) :
    RedeemsConfirmed C σ.toLedger tokenId done tx ↔
      Nonempty (RedeemAccepted C cfg block ledger tx tokenId amount changes) := by
  have hunspent : ∀ o ∈ tx.spends, o ∉ done.flatMap Transaction.spends := fun o ho =>
    (hc.spent_once ho fun heq => hnull (heq ▸ ho)).1
  have htotal := hv.total_seen hl h hback hc hnull
  constructor
  · intro hclean
    have hconf := hclean amount changes hv.wire
    have hsame : ∀ o ∈ tx.spends, ledger.tokenUtxos.get o = σ.tokenUtxos.get o := by
      intro o ho
      cases hu : σ.tokenUtxos.get o with
      | some u => exact h.kept o u hu (hunspent o ho)
      | none =>
        by_contra hne
        obtain ⟨u, hlive⟩ := Option.ne_none_iff_exists'.mp hne
        rcases h.origin o u hlive with hold | hnew
        · rw [hu] at hold
          cases hold
        · exact (hconf o ho).2 hnew
    have hsees : SeesInputs (loadCanonicalViewSnapshotFromDb db tokenId tx.spends) ledger tx := by
      intro o ho
      rw [hsame o ho]
      exact snapshot_seesInputs hl.synced hl.inv
        (fun o ho u hu => ⟨(hconf o ho).1 u hu, Or.inr ho⟩) o ho
    have hown : OnlySpends ledger tx tokenId := by
      intro o ho u hu
      rw [hsame o ho] at hu
      exact (hconf o ho).1 u hu
    have hsum : sumAtoms (liveInputs ledger.tokenUtxos tx.ins) = total := by
      rw [htotal, hsees.knownInputs, List.map_map]
      rfl
    obtain ⟨a, -⟩ := hv.accepts block h.inv (overlay_reads hl h.tokens hback tx.spends)
      hrules.submitted hown.liveInputs hsum
    exact ⟨a⟩
  · intro haccepted amount' changes' _ o ho
    obtain ⟨a⟩ := haccepted
    obtain ⟨htokens, hsum⟩ := hv.inputs_of_accepted a
    constructor
    · intro u hu
      apply htokens
      obtain ⟨i, hi, rfl⟩ := List.mem_map.mp ho
      exact List.mem_filterMap.mpr ⟨i, hi, h.kept _ u hu (hunspent _ ho)⟩
    · intro hcreated
      apply absurd hsum
      rw [htotal]
      exact (h.seen_lt_live hl hc hnull ho hcreated).ne'

/-- A pending transaction the chain's confirmed carriers back is accepted, and its successor
is the next tip. -/
theorem PendingStep.mined {sessions : TxSessions} {raw : Bytes → Option Transaction}
    (hs : PendingStep C X rules db sessions raw tokenId tip tx next)
    (hl : Lockstep C cfg chain σ db) (hrules : FinalSharesRules cfg rules)
    (h : MinedPrefix C cfg σ.toLedger (chainTxs chain) done ledger)
    (hback : BackedBy ledger tokenId tip)
    (hc : ConsensusValid C (chainTxs chain ++ done ++ tx :: post))
    (hclean : RedeemsConfirmed C σ.toLedger tokenId done tx) (o : Outcome C cfg block ledger tx) :
    BackedBy o.next tokenId next ∧
      MinedPrefix C cfg σ.toLedger (chainTxs chain) (done ++ [tx]) o.next := by
  rcases hs.accepted.finalized with ⟨amount, canonical, hv⟩ | ⟨amount, changes, total, canonical, hv⟩
  · obtain ⟨a⟩ := hv.mined hl hrules h hback
    have hparse := decodeCoveOpReturnTx_parses hv.wire
    obtain ⟨a', rfl⟩ := o.accepted_of hparse (.mint a)
    have hshape : a'.effect.tokenId = tokenId ∧ a'.effect.newMeta = none := by
      cases a'
      exact ⟨rfl, rfl⟩
    exact ⟨a'.successor hparse hv.wire hback hshape.1 hs.next, h.step hc hparse a' hshape.2⟩
  · obtain ⟨a⟩ := (hv.mined_iff hl hrules h hback hc hs.no_coinbase block).mp hclean
    have hparse := decodeCoveOpReturnTx_parses hv.wire
    obtain ⟨a', rfl⟩ := o.accepted_of hparse (.redeem a)
    have hshape : a'.effect.tokenId = tokenId ∧ a'.effect.newMeta = none := by
      cases a'
      exact ⟨rfl, rfl⟩
    exact ⟨a'.successor hparse hv.wire hback hshape.1 hs.next, h.step hc hparse a' hshape.2⟩

/-- A redeem that spends an unknown carrier is refused and leaves the backing alone. -/
theorem PendingStep.refused {sessions : TxSessions} {raw : Bytes → Option Transaction}
    (hs : PendingStep C X rules db sessions raw tokenId tip tx next)
    (hl : Lockstep C cfg chain σ db) (hrules : FinalSharesRules cfg rules)
    (h : MinedPrefix C cfg σ.toLedger (chainTxs chain) done ledger)
    (hback : BackedBy ledger tokenId tip)
    (hc : ConsensusValid C (chainTxs chain ++ done ++ tx :: post))
    (hunclean : ¬ RedeemsConfirmed C σ.toLedger tokenId done tx) (o : Outcome C cfg block ledger tx) :
    o.next.backing = ledger.backing := by
  rcases hs.accepted.finalized with ⟨amount, canonical, hv⟩ | ⟨amount, changes, total, canonical, hv⟩
  · exfalso
    apply hunclean
    intro amount' changes' hwire
    have hmint : decodeCoveOpReturnTx tx = .ok (.mint tokenId amount 2) := hv.wire
    rw [hmint] at hwire
    cases hwire
  · cases o with
    | nonCove _ => rfl
    | refused _ _ _ _ => rfl
    | accepted envelope hp a =>
      exfalso
      have hparse : parseCoveTx tx = _ := decodeCoveOpReturnTx_parses hv.wire
      rw [hparse] at hp
      obtain rfl := ParsedCoveTx.cove.inj hp
      cases a with
      | redeem a =>
        exact hunclean ((hv.mined_iff hl hrules h hback hc hs.no_coinbase block).mpr ⟨a⟩)

/-- The first input of a pending transaction is its tip. -/
theorem PendingStep.spends_tip {sessions : TxSessions} {raw : Bytes → Option Transaction}
    (hs : PendingStep C X rules db sessions raw tokenId tip tx next) :
    ∃ ins0, tx.ins[0]? = some ins0 ∧ ins0.outpoint = tip.outpoint := by
  have hspend : ∀ relevant s, finalBackingInput C
      (rules.submitted db tokenId relevant tip.toBackingTip tx) tokenId = .ok s →
      ∃ ins0, tx.ins[0]? = some ins0 ∧ ins0.outpoint = tip.outpoint := by
    intro relevant s h
    obtain ⟨-, o, ins0, ho, hins, hout⟩ := finalBackingInput_ok h
    rw [FinalizeParams.submitted, overlayPendingBacking] at ho
    dsimp only at ho
    rw [if_pos rfl] at ho
    exact ⟨ins0, hins, by rw [hout, ← Option.some.inj ho]⟩
  rcases hs.accepted.finalized with ⟨amount, canonical, hv⟩ | ⟨amount, changes, total, canonical, hv⟩
  · exact hspend _ _ hv.backing
  · exact hspend _ _ hv.backing

end

/-! The walk beside the indexer. -/

section

variable {C : Crypto} {cfg : V3IndexerConfig} {X : SimplicityExecutor} {rules : FinalizeParams}
  {chain blocks : List V3BlockInput} {σ σ' : V3IndexerState} {db : Db} {sessions : TxSessions}
  {order : List Nat} {raw : Bytes → Option Transaction} {tokenId : Bytes}
  {tip confirmed last : AppBacking} {txs done : List Transaction} {ledger ledger' : Ledger}
  {depth : Nat}

/-- The walk ends at the tip it starts from or at an output of the chain. -/
theorem PendingChain.follow_tip (h : PendingChain C X rules db sessions raw tokenId tip txs last)
    (hnode : NodeConsistent C raw) (hrows : SessionsTrue sessions raw tokenId)
    (hlen : txs.length ≤ depth)
    (hends : txs.length = depth ∨ WalkEnds sessions order raw tokenId last) :
    ∃ t, followPendingBacking C sessions order raw tokenId none depth tip = .ok t ∧
      (t = tip ∨ t.outpoint.txid ∈ txidsOf C txs) := by
  induction h generalizing depth with
  | nil tip =>
    refine ⟨tip, ?_, Or.inl rfl⟩
    rcases hends with hzero | hends
    · obtain rfl : depth = 0 := hzero.symm
      rfl
    · exact follow_ends hends
  | @cons tip next last tx txs hs rest ih =>
    obtain ⟨ins0, hins, hout⟩ := hs.spends_tip
    cases depth with
    | zero => simp at hlen
    | succ depth =>
      have hlen' : txs.length ≤ depth := Nat.le_of_succ_le_succ hlen
      have hends' := hends.imp_left Nat.succ.inj
      by_cases hf : Followed C sessions order tokenId tx
      · obtain ⟨t, ht, htip⟩ := ih hlen' hends'
        refine ⟨t, (follow_found hins hout hs hf).trans ht, Or.inr ?_⟩
        rcases htip with rfl | hlater
        · rw [pendingSuccessor_outpoint hs.next]
          exact List.mem_cons_self
        · exact List.mem_cons_of_mem _ hlater
      · exact ⟨tip, follow_lost hnode hrows hins hout hs hf, Or.inl rfl⟩

theorem BackedBy.unique {t : AppBacking} (h : BackedBy ledger tokenId tip)
    (h' : BackedBy ledger tokenId t) : t = tip := by
  obtain ⟨b, hb, rfl⟩ := h.get
  rw [BackedBy, hb, Option.map_some, Option.some.injEq] at h'
  exact h'.symm

/-- A ledger's tip lies on no later transaction. -/
theorem MinedPrefix.tip_old {σ : Ledger} {base : List Transaction}
    (h : MinedPrefix C cfg σ base done ledger) (hback : BackedBy ledger tokenId tip)
    (hc : ConsensusValid C (base ++ done ++ txs)) : tip.outpoint.txid ∉ txidsOf C txs := by
  obtain ⟨b, hb, rfl⟩ := hback.get
  have hseen := h.inv.backing_seen _ b hb
  have hn := hc.txids_nodup
  rw [List.map_append] at hn
  intro hmem
  exact (List.nodup_append.mp hn).2.2 _ hseen _ hmem rfl

/-- The walk from a tip the ledger holds ends at the backing of the ledger after the chain
exactly when it follows what the confirmed carriers back. -/
theorem PendingChain.follows_iff
    (h : PendingChain C X rules db sessions raw tokenId tip txs last)
    (hl : Lockstep C cfg chain σ db) (hrules : FinalSharesRules cfg rules)
    (hnode : NodeConsistent C raw) (hrows : SessionsTrue sessions raw tokenId)
    (hlen : txs.length ≤ depth)
    (hends : txs.length = depth ∨ WalkEnds sessions order raw tokenId last)
    (hmined : MinedPrefix C cfg σ.toLedger (chainTxs chain) done ledger)
    (hback : BackedBy ledger tokenId tip)
    (hc : ConsensusValid C (chainTxs chain ++ done ++ txs)) (hrun : LedgerRun C cfg ledger txs ledger') :
    (∃ t, followPendingBacking C sessions order raw tokenId none depth tip = .ok t ∧
      BackedBy ledger' tokenId t) ↔
      FollowsConfirmed C σ.toLedger sessions order tokenId done txs := by
  induction h generalizing done ledger depth with
  | nil tip =>
    cases hrun
    constructor
    · intro _
      trivial
    · intro _
      rcases hends with hzero | hends
      · obtain rfl : depth = 0 := hzero.symm
        exact ⟨tip, rfl, hback⟩
      · exact ⟨tip, follow_ends hends, hback⟩
  | @cons tip next last tx txs hs rest ih =>
    cases hrun with
    | cons o hrun =>
    obtain ⟨ins0, hins, hout⟩ := hs.spends_tip
    have hold := hmined.tip_old hback hc
    have hinv := o.next_inv hmined.inv hc.inputs hc.fresh
    have hc' : ConsensusValid C (chainTxs chain ++ (done ++ [tx]) ++ txs) := by simpa using hc
    cases depth with
    | zero => simp at hlen
    | succ depth =>
    have hlen' : txs.length ≤ depth := Nat.le_of_succ_le_succ hlen
    have hends' := hends.imp_left Nat.succ.inj
    rw [FollowsConfirmed]
    by_cases hclean : RedeemsConfirmed C σ.toLedger tokenId done tx
    · obtain ⟨hback', hmined'⟩ := hs.mined hl hrules hmined hback hc hclean o
      by_cases hf : Followed C sessions order tokenId tx
      · rw [follow_found hins hout hs hf,
          ih hlen' hends' hmined' hback' hc' hrun]
        simp [hf, hclean]
      · -- The walk stays behind, and the vault has moved on.
        rw [follow_lost hnode hrows hins hout hs hf]
        constructor
        · intro hsame
          obtain ⟨t, ht, hb⟩ := hsame
          obtain rfl := Except.ok.inj ht
          exfalso
          obtain ⟨b, hget, rfl⟩ := hb.get
          apply hold
          rcases hrun.backing_origin hc' hmined'.inv hget with hmid | hlater
          · have hnext : b.outpoint = next.outpoint := hback'.outpoint hmid
            rw [show b.toAppBacking.outpoint = b.outpoint from rfl, hnext,
              pendingSuccessor_outpoint hs.next]
            exact List.mem_cons_self
          · exact List.mem_cons_of_mem _ hlater
        · intro hagree
          exact absurd (hagree.1.mpr hclean) hf
    · -- The redeem is refused, and nothing later spends the vault it spent.
      have hstays : BackedBy ledger' tokenId tip := by
        obtain ⟨b, hget, rfl⟩ := hback.get
        have hsame := hs.refused hl hrules hmined hback hc hclean o
        have hspent : b.outpoint ∈ tx.spends := by
          rw [show b.outpoint = ins0.outpoint from hout.symm]
          exact List.mem_map.mpr ⟨ins0, List.mem_of_getElem? hins, rfl⟩
        have honce := (hc.spent_once hspent fun heq => hs.no_coinbase (heq ▸ hspent)).2
        have hfinal := hrun.backing_stays hc' (by simpa [txidsOf] using hinv)
          (by rw [hsame]; exact hget)
          fun t ht hin => honce (List.mem_flatMap.mpr ⟨t, ht, hin⟩)
        rw [BackedBy, hfinal]
        rfl
      by_cases hf : Followed C sessions order tokenId tx
      · constructor
        · intro hsame
          obtain ⟨t, ht, hb⟩ := hsame
          exfalso
          rw [follow_found hins hout hs hf] at ht
          obtain ⟨t', ht', htip⟩ := rest.follow_tip hnode hrows hlen' hends'
          obtain rfl := Except.ok.inj (ht'.symm.trans ht)
          obtain rfl := hstays.unique hb
          apply hold
          rcases htip with rfl | hlater
          · rw [pendingSuccessor_outpoint hs.next]
            exact List.mem_cons_self
          · exact List.mem_cons_of_mem _ hlater
        · intro hagree
          exact absurd (hagree.1.mp hf) hclean
      · rw [follow_lost hnode hrows hins hout hs hf]
        constructor
        · intro _
          exact ⟨⟨fun h => absurd h hf, fun h => absurd h hclean⟩, fun h => absurd h hclean⟩
        · intro _
          exact ⟨tip, rfl, hstays⟩

/-- For a whole pending chain within the depth limit, the tip the walk returns is the backing
the indexer holds after the chain is mined, if and only if the walk finds every transaction up to
the first redeem that spends a live carrier unknown to the token's snapshot, and not that one. -/
theorem pending_tip_iff (hl : Lockstep C cfg chain σ db) (hrules : FinalSharesRules cfg rules)
    (hconfirmed : loadConfirmedBacking db tokenId = some confirmed)
    (h : PendingChain C X rules db sessions raw tokenId confirmed txs last)
    (hnode : NodeConsistent C raw) (hrows : SessionsTrue sessions raw tokenId)
    (hlen : txs.length ≤ maxPendingBackingChain)
    (hends : txs.length = maxPendingBackingChain ∨ WalkEnds sessions order raw tokenId last)
    (hmined : Replays C cfg (chain ++ blocks) σ') (htxs : chainTxs blocks = txs) :
    (∃ t, followPendingBacking C sessions order raw tokenId none maxPendingBackingChain
        confirmed = .ok t ∧ BackedBy σ'.toLedger tokenId t) ↔
      FollowsConfirmed C σ.toLedger sessions order tokenId [] txs := by
  have hc := hmined.consensus
  rw [chainTxs, List.flatMap_append] at hc
  subst htxs
  exact h.follows_iff hl hrules hnode hrows hlen hends (.start hl.replays)
    ((loadConfirmedBacking_eq hl tokenId).symm.trans hconfirmed) (by simpa [chainTxs] using hc)
    (hl.replays.ledgerRun hmined)

end

/-! A chain of one pending transaction. -/

/-- The one session there is: broadcast with the transaction, built on the outpoint. -/
def soleSession (C : Crypto) (operation : AppTxOperation) (tokenId : Bytes) (o : OutPoint)
    (tx : Transaction) : TxSessions :=
  Dict.set ∅ 1 {
    operation
    tokenId := some tokenId
    walletScript := sampleOwner
    backing := some o
    unsignedTxDigest := []
    idempotencyKey := []
    txid := some (tx.getId C)
    status := .broadcast }

def soleRaw (C : Crypto) (tx : Transaction) (txid : Bytes) : Option Transaction :=
  if txid = tx.getId C then some tx else none

section

variable {C : Crypto} {X : SimplicityExecutor} {rules : FinalizeParams} {db : Db}
  {tokenId : Bytes} {tip : AppBacking} {tx : Transaction} {operation : AppTxOperation}
  {o : OutPoint}

theorem soleSession_get {id : Nat} {r : TxSessionRow}
    (h : (soleSession C operation tokenId o tx).get id = some r) :
    id = 1 ∧ r.tokenId = some tokenId ∧ r.backing = some o ∧ r.status = .broadcast ∧
      r.txid = some (tx.getId C) := by
  rw [soleSession, Dict.get_set] at h
  split at h
  · obtain rfl := Option.some.inj h
    exact ⟨‹_›, rfl, rfl, rfl, rfl⟩
  · cases h

theorem soleRaw_some {txid : Bytes} {tx' : Transaction} (h : soleRaw C tx txid = some tx') :
    txid = tx.getId C ∧ tx' = tx := by
  unfold soleRaw at h
  split at h
  · exact ⟨‹_›, (Option.some.inj h).symm⟩
  · cases h

theorem soleRaw_consistent : NodeConsistent C (soleRaw C tx) := by
  constructor
  · intro txid tx' h
    obtain ⟨rfl, rfl⟩ := soleRaw_some h
    rfl
  · intro txid txid' tx₁ tx₂ _ h h' _ _ _
    rw [(soleRaw_some h).1, (soleRaw_some h').1]

theorem soleSession_true {ins0 : TxIn} (hins : tx.ins[0]? = some ins0) (hout : ins0.outpoint = o) :
    SessionsTrue (soleSession C operation tokenId o tx) (soleRaw C tx) tokenId := by
  intro id r o' txid tx' hr hspends _ hraw
  obtain ⟨-, -, hback, -, -⟩ := soleSession_get hr
  obtain ⟨-, rfl⟩ := soleRaw_some hraw
  obtain ⟨-, hback', -⟩ := hspends
  rw [hback, Option.some.injEq] at hback'
  exact ⟨ins0, hins, by rw [hout, hback']⟩

theorem soleSession_found :
    (findBroadcastSpendOfBacking (soleSession C operation tokenId o tx) [1] tokenId o).bind
      TxSessionRow.txid = some (tx.getId C) := by
  simp [findBroadcastSpendOfBacking, soleSession, TxSessionRow.Spends, Dict.get_set_self]

theorem soleSession_ends {last : AppBacking} (h : last.outpoint ≠ o) :
    WalkEnds (soleSession C operation tokenId o tx) [1] (soleRaw C tx) tokenId last := by
  intro txid hfind
  obtain ⟨r, hr, -⟩ := Option.bind_eq_some_iff.mp hfind
  obtain ⟨⟨id, hid⟩, hspends⟩ := findBroadcastSpendOfBacking_some hr
  obtain ⟨-, -, hback, -, -⟩ := soleSession_get hid
  obtain ⟨-, hback', -⟩ := hspends
  rw [hback, Option.some.injEq] at hback'
  exact absurd hback'.symm h

/-- An accepted transaction is a pending chain of its own. -/
theorem AcceptedAt.chain (h : AcceptedAt C X rules db tokenId tip tx)
    (hnull : nullOutPoint ∉ tx.spends) (operation : AppTxOperation) :
    ∃ last, PendingChain C X rules db (soleSession C operation tokenId tip.outpoint tx)
        (soleRaw C tx) tokenId tip [tx] last ∧ last.outpoint = ⟨tx.getId C, 1⟩ := by
  obtain ⟨last, hlast⟩ := h.successor
  refine ⟨last, .cons ⟨h, ?_, if_pos rfl, hnull, hlast⟩ (.nil last), pendingSuccessor_outpoint hlast⟩
  exact ⟨1, _, Dict.get_set_self _ _ _, ⟨rfl, rfl, rfl⟩, rfl⟩

/-- A mint accepted on any view that answers as the submitted one does. -/
theorem AcceptedAt.of_mint {view : CoveCanonicalView} {r : ValidatedCoveTransaction}
    (h : validateFinalizedMintTransaction C X { rules with tx, view } = .ok r)
    (htoken : r.tokenId = tokenId) (hstate : view.getCurrentBackingState tokenId = some tip.state)
    (houtpoint : view.getBackingOutpoint tokenId = some tip.outpoint)
    (hcreator : (loadCanonicalViewSnapshotFromDb db tokenId []).getTokenCreatorScript tokenId =
      view.getTokenCreatorScript tokenId) : AcceptedAt C X rules db tokenId tip tx := by
  obtain ⟨t, amount, s, canonical, hv, rfl⟩ := validateFinalizedMint_eq_ok.mp h
  obtain rfl : t = tokenId := htoken
  left
  refine ⟨_, validateFinalizedMint_eq_ok.mpr ⟨t, amount, s, canonical, ?_, rfl⟩⟩
  exact hv.of_view ((if_pos rfl).trans hstate.symm) ((if_pos rfl).trans houtpoint.symm) hcreator

/-- A redeem accepted on any view that answers as the submitted one does. -/
theorem AcceptedAt.of_redeem {view : CoveCanonicalView} {r : ValidatedCoveTransaction}
    (h : validateFinalizedRedeemTransaction C X { rules with tx, view } = .ok r)
    (htoken : r.tokenId = tokenId) (hstate : view.getCurrentBackingState tokenId = some tip.state)
    (houtpoint : view.getBackingOutpoint tokenId = some tip.outpoint)
    (hcarriers : ∀ o ∈ (tx.ins.drop 1).map TxIn.outpoint,
      (loadCanonicalViewSnapshotFromDb db tokenId tx.spends).getTokenUtxo o =
        view.getTokenUtxo o) : AcceptedAt C X rules db tokenId tip tx := by
  obtain ⟨t, amount, changes, total, s, canonical, hv, rfl⟩ := validateFinalizedRedeem_eq_ok.mp h
  obtain rfl : t = tokenId := htoken
  right
  refine ⟨_, validateFinalizedRedeem_eq_ok.mpr ⟨t, amount, changes, total, s, canonical, ?_, rfl⟩⟩
  exact hv.of_view ((if_pos rfl).trans hstate.symm) ((if_pos rfl).trans houtpoint.symm) hcarriers

end

/-! The sample mint is mined as the walk foretold. -/

/-- The final validator takes the sample mint at the vault of the deploy. -/
theorem alphaMint_accepted : ∃ σ events db b rules,
    applyBlock sampleCrypto sampleConfig (.new sampleCrypto sampleConfig) deployBlock =
      .ok (σ, events) ∧
    Lockstep sampleCrypto sampleConfig [deployBlock] σ db ∧
    σ.backing.get alphaId = some b ∧ FinalSharesRules sampleConfig rules ∧
    AcceptedAt sampleCrypto passingExecutor rules db alphaId b.toAppBacking alphaMint := by
  obtain ⟨σ, events, v, happly, hvalid⟩ := sampleMint_validates
  have hreach : Reachable sampleCrypto sampleConfig [deployBlock] σ :=
    .apply .new deployBlock_active happly
  obtain ⟨db, hl⟩ := hreach.lockstep
  obtain ⟨r, hr⟩ := validateFinalizedMint_extracts (validateMint_ok hvalid) sampleMintPsbt_extracts
    (prevoutsTrue_none _ _) passingExecutor.passesToo_self
  let rules : FinalizeParams := (sampleMintParams σ.toLedger).finalize alphaMint none
  have hfinal : validateFinalizedMintTransaction sampleCrypto passingExecutor
      { rules with tx := alphaMint, view := loadCanonicalViewSnapshot σ.toLedger [] } = .ok r := hr
  obtain ⟨t, amount, s, canonical, hv, hrt⟩ := validateFinalizedMint_eq_ok.mp hr
  have hwire : decodeCoveOpReturnTx alphaMint = .ok (.mint alphaId 100000000000 2) := by
    decide +kernel
  have ht : t = alphaId :=
    (ParsedEnvelopeV2.mint.inj (Except.ok.inj (hv.wire.symm.trans hwire))).1
  have hrid : r.tokenId = alphaId := by rw [hrt, ht]
  obtain ⟨hstate, -⟩ := finalBackingInput_ok hv.backing
  rw [ht] at hstate
  obtain ⟨b, hb, -⟩ := Option.map_eq_some_iff.mp hstate
  refine ⟨σ, events, db, b, rules, happly, hl, hb, ⟨rfl, rfl, rfl, rfl, rfl, rfl, rfl⟩, ?_⟩
  apply AcceptedAt.of_mint hfinal hrid
  · exact congrArg (Option.map V3Backing.state) hb
  · exact congrArg (Option.map V3Backing.outpoint) hb
  · show (if alphaId = alphaId then
      ((db.tokens.get alphaId).map TokenRow.creatorScript).filter (· ≠ []) else none) = _
    rw [if_pos rfl, hl.synced.ledger.tokens alphaId, Option.map_map]
    rfl

theorem pending_tip_sample : ∃ σ σ' db confirmed t,
    Lockstep sampleCrypto sampleConfig [deployBlock] σ db ∧
    loadConfirmedBacking db alphaId = some confirmed ∧
    followPendingBacking sampleCrypto
      (soleSession sampleCrypto .backingBuy alphaId confirmed.outpoint alphaMint) [1]
      (soleRaw sampleCrypto alphaMint) alphaId none maxPendingBackingChain confirmed = .ok t ∧
    Replays sampleCrypto sampleConfig [deployBlock, mintBlock] σ' ∧
    BackedBy σ'.toLedger alphaId t := by
  obtain ⟨σ, events, db, b, rules, happly, hl, hb, hshared, haccepted⟩ := alphaMint_accepted
  obtain ⟨σ₁, σ₂, _, events₂, -, h₁, h₂, -⟩ := sample_applies
  obtain rfl : σ₁ = σ := congrArg Prod.fst (Except.ok.inj (h₁.symm.trans happly))
  have hmined : Replays sampleCrypto sampleConfig ([deployBlock] ++ [mintBlock]) σ₂ :=
    hl.replays.step mintBlock_active h₂
  have hconfirmed : loadConfirmedBacking db alphaId = some b.toAppBacking := by
    rw [loadConfirmedBacking_eq hl, hb]
    rfl
  have hnull : nullOutPoint ∉ alphaMint.spends := by decide +kernel
  obtain ⟨last, hchain, hlast⟩ := haccepted.chain hnull .backingBuy
  obtain ⟨ins0, hins, hinsout⟩ : ∃ ins0, alphaMint.ins[0]? = some ins0 ∧
      ins0.outpoint = b.toAppBacking.outpoint := by
    cases hchain with
    | cons hs _ => exact hs.spends_tip
  have hends : last.outpoint ≠ b.toAppBacking.outpoint := by
    -- No transaction spends an output of its own.
    have hc := hmined.consensus
    rw [chainTxs_append] at hc
    intro heq
    apply ConsensusValid.spends_own hc ins0.outpoint
      (List.mem_map.mpr ⟨ins0, List.mem_of_getElem? hins, rfl⟩)
    rw [hinsout, ← heq, hlast]
  have hfollows : FollowsConfirmed sampleCrypto σ₁.toLedger
      (soleSession sampleCrypto .backingBuy alphaId b.toAppBacking.outpoint alphaMint) [1] alphaId []
      [alphaMint] := by
    have hclean : RedeemsConfirmed sampleCrypto σ₁.toLedger alphaId [] alphaMint := by
      intro amount changes hwire
      have hmint : decodeCoveOpReturnTx alphaMint = .ok (.mint alphaId 100000000000 2) := by
        decide +kernel
      rw [hmint] at hwire
      cases hwire
    refine ⟨⟨fun _ => hclean, fun _ => ⟨ins0, hins, ?_⟩⟩, fun _ => trivial⟩
    rw [hinsout]
    exact soleSession_found
  obtain ⟨t, ht, hback⟩ := (pending_tip_iff hl hshared hconfirmed hchain soleRaw_consistent
    (soleSession_true hins hinsout) (by decide) (Or.inr (soleSession_ends hends)) hmined
    (by simp [chainTxs, mintBlock])).mpr hfollows
  exact ⟨σ₁, σ₂, db, _, t, hl, hconfirmed, ht, hmined, hback⟩

/-! Forty lots of ALPHA are minted beside a lot of BETA; the pending redeem of the forty spends
the lot of BETA too. -/

def alphaDeployId : Bytes :=
  Bytes.ofNatBE 32 0x0ad0c87f6384947086ec680cc1ecc86039bd43e170efa1a13254c789f03600a4

def lotsMintId : Bytes :=
  Bytes.ofNatBE 32 0x45cbfe83b7fd2ce8745b39a8e662815449811c2fde0a44523f6da7603c505f59

def betaMintId : Bytes :=
  Bytes.ofNatBE 32 0xfdac40cc1d5056c5df703e74668b76166f4ca5fb6281221620f70bc441dd6809

/-- A mint of forty lots of ALPHA after its deploy. -/
def lotsMint : Transaction where
  ins := [
    { hash := alphaDeployId.reverse, index := 1 },
    { hash := List.replicate 32 5, index := 0 }]
  outs := [
    ⟨opReturnScript (Bytes.ofHex "43560203" ++ alphaId ++ Bytes.ofNatBE 8 4000000000000 ++ [2]), 0⟩,
    ⟨0x51 :: 0x20 ::
      Bytes.ofNatBE 32 0x2dc171b85aa1262c1aac0c211d12a83dc29a14a10f0846837ce7254a5cebf4a0, 11080⟩,
    ⟨sampleOwner, 1000⟩,
    ⟨sampleConfig.feeScript, 5481⟩,
    ⟨sampleCreator, 546⟩]

def lotsMinted : V3BlockInput :=
  ⟨2, List.replicate 32 0xb2, List.replicate 32 0xb1, [lotsMint, betaMint]⟩

def lotsVault : OutPoint := ⟨lotsMintId, 1⟩

def lotsCarrier : OutPoint := ⟨lotsMintId, 2⟩

def betaLot : OutPoint := ⟨betaMintId, 2⟩

def lotsRedeem : Transaction where
  ins := [lotsVault, lotsCarrier, betaLot].map fun o => { hash := o.txid.reverse, index := o.vout }
  outs := (sampleRedeemPsbt []).txOutputs

def lotsRedeemed : V3BlockInput :=
  ⟨3, List.replicate 32 0xb3, List.replicate 32 0xb2, [lotsRedeem]⟩

def sampleRules : FinalizeParams := (sampleRedeemParams []).finalize lotsRedeem none

theorem sampleRules_shared : FinalSharesRules sampleConfig sampleRules :=
  ⟨rfl, rfl, rfl, rfl, rfl, rfl, rfl⟩

def lotsToken : TokenUtxo := ⟨lotsCarrier, alphaId, 40 * lotAtoms, sampleOwner⟩

/-- The view of ALPHA with its forty lots and nothing else. -/
def lotsView : CoveCanonicalView where
  getCurrentBackingState t := if t = alphaId then some (alphaState 40 1080) else none
  getBackingOutpoint t := if t = alphaId then some lotsVault else none
  getTokenUtxo k := if k = lotsCarrier then some lotsToken else none
  getTokenCreatorScript _ := none

/-- One evaluation of the chain and of the final validator for all that is used of them. -/
theorem lots_run : (ActiveBlock lotsCrypto sampleConfig [] bothDeployed ∧
      ActiveBlock lotsCrypto sampleConfig [bothDeployed] lotsMinted ∧
      ActiveBlock lotsCrypto sampleConfig [bothDeployed, lotsMinted] lotsRedeemed) ∧
    ((replay lotsCrypto sampleConfig [bothDeployed, lotsMinted]
      (.new lotsCrypto sampleConfig)).toOption.any fun σ =>
        (applyBlock lotsCrypto sampleConfig σ lotsRedeemed).toOption.isSome ∧
        (σ.backing.get alphaId).any (fun b => b.state = alphaState 40 1080 ∧ b.outpoint = lotsVault) ∧
        (σ.tokenUtxos.get lotsCarrier).any (fun u =>
          u.toTokenUtxo = ⟨lotsCarrier, alphaId, 40 * lotAtoms, sampleOwner⟩) ∧
        (σ.tokenUtxos.get betaLot).any fun w => w.tokenId = betaId) = true ∧
    ((validateFinalizedRedeemTransaction lotsCrypto passingExecutor
      { sampleRules with tx := lotsRedeem, view := lotsView }).toOption.any fun r =>
        r.tokenId = alphaId) = true := by
  decide +kernel

/-- The forty lots and the lot of BETA are live, and the redeem's block is applied. -/
theorem lotsMinted_live : ∃ σ σ' events b u w,
    Reachable lotsCrypto sampleConfig [bothDeployed, lotsMinted] σ ∧
    applyBlock lotsCrypto sampleConfig σ lotsRedeemed = .ok (σ', events) ∧
    (σ.backing.get alphaId = some b ∧ b.state = alphaState 40 1080 ∧ b.outpoint = lotsVault) ∧
    (σ.tokenUtxos.get lotsCarrier = some u ∧
      u.toTokenUtxo = ⟨lotsCarrier, alphaId, 40 * lotAtoms, sampleOwner⟩) ∧
    σ.tokenUtxos.get betaLot = some w ∧ w.tokenId = betaId := by
  obtain ⟨⟨hdeployed, hminted, -⟩, hrun, -⟩ := lots_run
  obtain ⟨σ₂, hσ₂, hfacts⟩ := (Option.any_eq_true _ _).mp hrun
  rw [toOption_eq_some] at hσ₂
  simp only [replay, bind_eq_ok, Prod.exists, Except.ok.injEq] at hσ₂
  obtain ⟨σ₁, events₁, h₁, σ, events₂, h₂, rfl⟩ := hσ₂
  obtain ⟨happly, hback, hlots, hbeta⟩ := of_decide_eq_true hfacts
  obtain ⟨⟨σ', events⟩, hσ'⟩ := Option.isSome_iff_exists.mp happly
  obtain ⟨b, hb, hdb⟩ := (Option.any_eq_true _ _).mp hback
  obtain ⟨u, hu, hdu⟩ := (Option.any_eq_true _ _).mp hlots
  obtain ⟨w, hw, hdw⟩ := (Option.any_eq_true _ _).mp hbeta
  exact ⟨σ, σ', events, b, u, w, .apply (.apply .new hdeployed h₁) hminted h₂,
    toOption_eq_some.mp hσ', ⟨hb, of_decide_eq_true hdb⟩, ⟨hu, of_decide_eq_true hdu⟩, hw,
    of_decide_eq_true hdw⟩

theorem lotsRedeem_final : ∃ r, validateFinalizedRedeemTransaction lotsCrypto passingExecutor
    { sampleRules with tx := lotsRedeem, view := lotsView } = .ok r ∧
    r.tokenId = alphaId := by
  obtain ⟨r, hr, htoken⟩ := (Option.any_eq_true _ _).mp lots_run.2.2
  exact ⟨r, toOption_eq_some.mp hr, of_decide_eq_true htoken⟩

theorem lotsRedeem_spends : lotsRedeem.spends = [lotsVault, lotsCarrier, betaLot] := by
  simp [lotsRedeem, Transaction.spends, TxIn.outpoint]

theorem lotsRedeem_carriers :
    (lotsRedeem.ins.drop 1).map TxIn.outpoint = [lotsCarrier, betaLot] := by
  rw [List.map_drop]
  exact congrArg (List.drop 1) lotsRedeem_spends

/-- The final validator takes the redeem at the confirmed backing and the walk moves past it; the
indexer refuses it for the lot of BETA and keeps the vault. -/
theorem mixed_redeem_followed : ∃ σ σ' db confirmed last,
    Lockstep lotsCrypto sampleConfig [bothDeployed, lotsMinted] σ db ∧
    loadConfirmedBacking db alphaId = some confirmed ∧
    PendingChain lotsCrypto passingExecutor sampleRules db
      (soleSession lotsCrypto .redeem alphaId confirmed.outpoint lotsRedeem)
      (soleRaw lotsCrypto lotsRedeem) alphaId confirmed [lotsRedeem] last ∧
    Replays lotsCrypto sampleConfig ([bothDeployed, lotsMinted] ++ [lotsRedeemed]) σ' ∧
    ¬ ∃ t, followPendingBacking lotsCrypto
        (soleSession lotsCrypto .redeem alphaId confirmed.outpoint lotsRedeem) [1]
        (soleRaw lotsCrypto lotsRedeem) alphaId none maxPendingBackingChain confirmed = .ok t ∧
      BackedBy σ'.toLedger alphaId t := by
  obtain ⟨σ, σ', events, b, u, w, hreach, happly, ⟨hb, hstate, hout⟩, ⟨hu, htok⟩, hw, hbeta⟩ :=
    lotsMinted_live
  have hmined : Replays lotsCrypto sampleConfig ([bothDeployed, lotsMinted] ++ [lotsRedeemed]) σ' :=
    hreach.replays.step lots_run.1.2.2 happly
  obtain ⟨db, hl⟩ := hreach.lockstep
  have hconfirmed : loadConfirmedBacking db alphaId = some b.toAppBacking := by
    rw [loadConfirmedBacking_eq hl, hb]
    rfl
  have hknown := snapshot_getTokenUtxo hl.synced hl.inv alphaId lotsRedeem.spends
  have halpha : u.tokenId = alphaId := congrArg TokenUtxo.tokenId htok
  have hne : betaId ≠ alphaId := by decide
  have hbetaMem : betaLot ∈ lotsRedeem.spends := by simp [lotsRedeem_spends]
  obtain ⟨r, hr, htoken⟩ := lotsRedeem_final
  have haccepted : AcceptedAt lotsCrypto passingExecutor sampleRules db alphaId b.toAppBacking
      lotsRedeem := by
    apply AcceptedAt.of_redeem hr htoken
    · exact congrArg some hstate.symm
    · exact congrArg some hout.symm
    · intro o ho
      rw [lotsRedeem_carriers, List.mem_cons, List.mem_singleton] at ho
      rcases ho with rfl | rfl
      · have hlots : lotsCarrier ∈ lotsRedeem.spends := by simp [lotsRedeem_spends]
        rw [(hknown _ _).mpr ⟨u, hu, halpha, Or.inr hlots, rfl⟩, htok]
        rfl
      · rw [show lotsView.getTokenUtxo betaLot = none by decide]
        by_contra hsome
        obtain ⟨tok, htok'⟩ := Option.ne_none_iff_exists'.mp hsome
        obtain ⟨v, hv, hvtok, -⟩ := (hknown _ _).mp htok'
        rw [hw, Option.some.injEq] at hv
        exact hne (by rw [← hbeta, hv, hvtok])
  obtain ⟨last, hchain, hlast⟩ := haccepted.chain (by decide +kernel) .redeem
  have hvault : b.toAppBacking.outpoint = lotsVault := hout
  obtain ⟨ins0, hins, hinsout⟩ : ∃ ins0, lotsRedeem.ins[0]? = some ins0 ∧
      ins0.outpoint = b.toAppBacking.outpoint := by
    rw [hvault]
    exact ⟨_, rfl, by decide +kernel⟩
  have hends : last.outpoint ≠ b.toAppBacking.outpoint := by
    rw [hlast, hvault]
    decide +kernel
  refine ⟨σ, σ', db, b.toAppBacking, last, hl, hconfirmed, hchain, hmined, ?_⟩
  intro hagrees
  have hback := (loadConfirmedBacking_eq hl alphaId).symm.trans hconfirmed
  have hc := hmined.consensus
  have hrun := hl.replays.ledgerRun hmined
  rw [show chainTxs [lotsRedeemed] = [lotsRedeem] from rfl] at hrun
  have hfollows := (hchain.follows_iff hl sampleRules_shared soleRaw_consistent
    (soleSession_true hins hinsout) (by decide) (Or.inr (soleSession_ends hends))
    (.start hl.replays) hback hc hrun).mp hagrees
  -- The walk finds the redeem, and it spends a live carrier of BETA.
  have hclean := hfollows.1.mp ⟨ins0, hins, by rw [hinsout]; exact soleSession_found⟩
  have hwire : decodeCoveOpReturnTx lotsRedeem = .ok (.redeem alphaId 4000000000000 []) := by
    decide +kernel
  have htokens := (hclean _ _ hwire betaLot hbetaMem).1 w hw
  exact hne (hbeta.symm.trans htokens)

end Cove
