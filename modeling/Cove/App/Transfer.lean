import Cove.Guardian.Admission
import Cove.Guardian.Finalize
import Cove.Indexer.Snapshot

/-! The admission of a transfer: `submitTransfer` of `packages/cove-app/src/service.ts`. -/

namespace Cove

open Checked

/-- The tip of a token's backing the session was built on. -/
structure BackingTip where
  state : CoveStateV2
  outpoint : OutPoint
  deriving DecidableEq, Repr

/-- The pending backing over the confirmed view; every other lookup is the view's own. -/
def overlayPendingBacking (view : CoveCanonicalView) (tokenId : Bytes) (tip : BackingTip) :
    CoveCanonicalView where
  getBackingOutpoint t := if t = tokenId then some tip.outpoint else view.getBackingOutpoint t
  getCurrentBackingState t := if t = tokenId then some tip.state else view.getCurrentBackingState t
  getTokenUtxo := view.getTokenUtxo
  getTokenCreatorScript := view.getTokenCreatorScript

/-- What `submitTransfer` asks before it broadcasts the extracted transaction: the view is the
claimed token's alone, and no prevouts are handed over. -/
def admitTransfer (C : Crypto) (db : Db) (tokenId : Bytes) (tip : BackingTip)
    (maxMinerFeeSats : Option Int) (tx : Transaction) :
    Except FinalRefusal ValidatedCoveTransaction :=
  let view := overlayPendingBacking (loadCanonicalViewSnapshotFromDb db tokenId []) tokenId tip
  validateFinalizedTransferTransaction C tx view none maxMinerFeeSats

/-- What the final validator has checked of a transfer it accepts. -/
structure TransferValidated (view : CoveCanonicalView) (tx : Transaction) (tokenId : Bytes)
    (allocations : List TokenAllocation) : Prop where
  wire : decodeCoveOpReturnTx tx = .ok (.transfer tokenId allocations)
  tokens : ∀ tok ∈ view.knownInputs tx.spends, tok.tokenId = tokenId
  nonzero : ((view.knownInputs tx.spends).map TokenUtxo.amountAtoms).sum ≠ 0
  conserved : sumAllocations allocations =
    ((view.knownInputs tx.spends).map TokenUtxo.amountAtoms).sum
  carriers : ∀ a ∈ allocations, CarriesTokens tx.outs a.vout

theorem validateFinalizedTransfer_eq_ok {C : Crypto} {tx : Transaction} {view : CoveCanonicalView}
    {prevouts : Option (Dict OutPoint ResolvedPrevout)} {maxMinerFeeSats : Option Int}
    {r : ValidatedCoveTransaction} :
    validateFinalizedTransferTransaction C tx view prevouts maxMinerFeeSats = .ok r ↔
      ∃ tokenId allocations, TransferValidated view tx tokenId allocations ∧
        checkMinerFee tx prevouts (maxMinerFeeSats.getD finalMaxMinerFee) = .ok () ∧
        r = ⟨tx.getId C, .transfer, tokenId⟩ := by
  simp only [validateFinalizedTransferTransaction, decodeWire, bind_eq_ok, demand_eq_ok, ensure_eq_ok,
    mapError_eq_ok, pure_eq_ok, Prod.exists, asTransfer_eq_some, tokenInputTotal_eq_ok,
    finalAllocations_eq_ok]
  constructor
  · intro h
    obtain ⟨_, hwire, tokenId, allocations, rfl, _, ⟨htokens, rfl⟩, _, hne, _, hsum, _, hall, _,
      hfee, rfl⟩ := h
    exact ⟨tokenId, allocations, ⟨hwire, htokens, hne, hsum, hall⟩, hfee, rfl⟩
  · intro h
    obtain ⟨tokenId, allocations, hv, hfee, rfl⟩ := h
    exact ⟨_, hv.wire, tokenId, allocations, rfl, _, ⟨hv.tokens, rfl⟩, (), hv.nonzero, (), hv.conserved,
      (), hv.carriers, (), hfee, rfl⟩

theorem decodeCoveOpReturnTx_parses {tx : Transaction} {e : ParsedEnvelopeV2}
    (h : decodeCoveOpReturnTx tx = .ok e) : parseCoveTx tx = .cove e := by
  simp only [decodeCoveOpReturnTx, bind_eq_ok, demand_eq_ok] at h
  obtain ⟨out0, hget, hdecode⟩ := h
  exact parseCoveTx_of_opReturn hget hdecode

section

variable {C : Crypto} {cfg : V3IndexerConfig} {chain : List V3BlockInput} {σ : V3IndexerState}
  {db : Db} {block : V3BlockInput} {tx : Transaction} {tokenId : Bytes}
  {allocations : List TokenAllocation} {view : CoveCanonicalView}

/-- The view knows exactly the live carriers among the inputs. -/
def SeesInputs (view : CoveCanonicalView) (σ : Ledger) (tx : Transaction) : Prop :=
  ∀ o ∈ tx.spends, view.getTokenUtxo o = (σ.tokenUtxos.get o).map V3TokenUtxo.toTokenUtxo

theorem SeesInputs.knownInputs {σ : Ledger} (h : SeesInputs view σ tx) :
    view.knownInputs tx.spends =
      (liveInputs σ.tokenUtxos tx.ins).map V3TokenUtxo.toTokenUtxo := by
  have hlive : liveInputs σ.tokenUtxos tx.ins =
      tx.spends.filterMap fun o => σ.tokenUtxos.get o := by
    rw [liveInputs, Transaction.spends, List.filterMap_map]
    rfl
  rw [hlive, List.map_filterMap, CoveCanonicalView.knownInputs]
  exact List.filterMap_congr h

/-- A transfer the final validator accepts settles when the view sees every carrier spent. -/
theorem TransferValidated.settles (hv : TransferValidated view tx tokenId allocations)
    (hsees : SeesInputs view σ.toLedger tx) (hI : StateInv C cfg chain σ)
    (hb : ActiveBlock C cfg chain block) (htxs : block.txs = [tx]) :
    ∃ σ', TransferSettles C cfg σ block tx tokenId allocations σ' := by
  have hknown := hsees.knownInputs
  have hsum : ((view.knownInputs tx.spends).map TokenUtxo.amountAtoms).sum =
      sumAtoms (liveInputs σ.tokenUtxos tx.ins) := by
    rw [hknown, List.map_map]
    rfl
  have hown : OnlySpends σ.toLedger tx tokenId := by
    intro o ho u hu
    have hmem : u.toTokenUtxo ∈ view.knownInputs tx.spends := by
      refine List.mem_filterMap.mpr ⟨o, ho, ?_⟩
      rw [hsees o ho, hu]
      rfl
    exact hv.tokens _ hmem
  have hne : liveInputs σ.tokenUtxos tx.ins ≠ [] := by
    intro hnil
    apply hv.nonzero
    rw [hsum, hnil]
    rfl
  exact transfer_settles hI hb htxs (decodeCoveOpReturnTx_parses hv.wire) hown hne
    (by rw [hv.conserved, hsum]) hv.carriers

/-- Where no carrier of another token is spent, the token's own snapshot sees every input. -/
theorem snapshot_seesInputs (hS : Synced C cfg chain σ db) (hI : StateInv C cfg chain σ)
    {relevant : List OutPoint} (h : ∀ o ∈ tx.spends, ∀ u, σ.tokenUtxos.get o = some u →
      u.tokenId = tokenId ∧ (relevant = [] ∨ o ∈ relevant)) :
    SeesInputs (loadCanonicalViewSnapshotFromDb db tokenId relevant) σ.toLedger tx := by
  intro o ho
  have hiff := snapshot_getTokenUtxo hS hI tokenId relevant o
  cases hu : σ.tokenUtxos.get o with
  | some u =>
    obtain ⟨htok, hrel⟩ := h o ho u hu
    exact (hiff u.toTokenUtxo).mpr ⟨u, hu, htok, hrel, rfl⟩
  | none =>
    cases hv : (loadCanonicalViewSnapshotFromDb db tokenId relevant).getTokenUtxo o with
    | none => rfl
    | some tok =>
      obtain ⟨u, hu', -⟩ := (hiff tok).mp hv
      rw [hu] at hu'
      cases hu'

/-- A transfer accepted against the snapshot of a token is one of that token. -/
theorem TransferValidated.tokenId_eq {T : Bytes} {relevant : List OutPoint}
    (hS : Synced C cfg chain σ db) (hI : StateInv C cfg chain σ)
    (hview : view.getTokenUtxo = (loadCanonicalViewSnapshotFromDb db T relevant).getTokenUtxo)
    (hv : TransferValidated view tx tokenId allocations) : tokenId = T := by
  have hne : view.knownInputs tx.spends ≠ [] := by
    intro hnil
    apply hv.nonzero
    rw [hnil]
    rfl
  obtain ⟨tok, htok⟩ := List.exists_mem_of_ne_nil _ hne
  rw [← hv.tokens tok htok]
  obtain ⟨o, -, hget⟩ := List.mem_filterMap.mp htok
  rw [hview] at hget
  obtain ⟨u, -, hu, -, rfl⟩ := (snapshot_getTokenUtxo hS hI T relevant o tok).mp hget
  exact hu

/-- A transfer the application admits moves exactly what its envelope says and burns nothing,
if and only if it spends no live carrier of another token. -/
theorem transfer_admission_iff {tip : BackingTip} {maxMinerFeeSats : Option Int}
    {r : ValidatedCoveTransaction} (hl : Lockstep C cfg chain σ db)
    (hb : ActiveBlock C cfg chain block) (htxs : block.txs = [tx])
    (h : admitTransfer C db tokenId tip maxMinerFeeSats tx = .ok r) :
    (∃ σ' allocations, decodeCoveOpReturnTx tx = .ok (.transfer tokenId allocations) ∧
      TransferSettles C cfg σ block tx tokenId allocations σ') ↔
      OnlySpends σ.toLedger tx tokenId := by
  obtain ⟨T, allocations, hv, -, -⟩ := validateFinalizedTransfer_eq_ok.mp h
  have hview : (overlayPendingBacking (loadCanonicalViewSnapshotFromDb db tokenId []) tokenId
      tip).getTokenUtxo = (loadCanonicalViewSnapshotFromDb db tokenId []).getTokenUtxo := rfl
  obtain rfl : T = tokenId := hv.tokenId_eq hl.synced hl.inv hview
  constructor
  · intro hsettles
    obtain ⟨σ', l, hwire, hs⟩ := hsettles
    exact onlySpends_of_recorded hb htxs (decodeCoveOpReturnTx_parses hwire) hs.recorded
  · intro hown
    have hsees : SeesInputs (overlayPendingBacking (loadCanonicalViewSnapshotFromDb db T []) T tip)
        σ.toLedger tx := snapshot_seesInputs hl.synced hl.inv fun o ho u hu =>
          ⟨hown o ho u hu, Or.inl rfl⟩
    obtain ⟨σ', hs⟩ := hv.settles hsees hl.inv hb htxs
    exact ⟨σ', allocations, hv.wire, hs⟩

end

/-- A transfer of the minted lot of ALPHA, three fifths to a recipient and the rest to change,
that spends the given outpoints. -/
def alphaTransfer (spends : List OutPoint) : Transaction where
  ins := spends.map fun o => { hash := o.txid.reverse, index := o.vout }
  outs := [
    ⟨opReturnScript (Bytes.ofHex "43560202" ++ alphaId ++ [2, 1] ++ Bytes.ofNatBE 8 60000000000 ++
      [2] ++ Bytes.ofNatBE 8 40000000000), 0⟩,
    ⟨sampleCreator, 1000⟩,
    ⟨sampleOwner, 1000⟩]

def alphaAllocations : List TokenAllocation := [⟨1, 60000000000⟩, ⟨2, 40000000000⟩]

def transferBlock (spends : List OutPoint) : V3BlockInput :=
  ⟨3, List.replicate 32 0xb3, List.replicate 32 0xb2, [alphaTransfer spends]⟩

/-- The backing of ALPHA after the mint. -/
def alphaTip : BackingTip := ⟨alphaState 1 27, ⟨alphaMint.getId sampleCrypto, 1⟩⟩

theorem alphaTransfer_spends (spends : List OutPoint) : (alphaTransfer spends).spends = spends := by
  simp [alphaTransfer, Transaction.spends, TxIn.outpoint, Function.comp_def]

theorem alphaTransfer_wire (spends : List OutPoint) :
    decodeCoveOpReturnTx (alphaTransfer spends) = .ok (.transfer alphaId alphaAllocations) := by
  have h : (alphaTransfer spends).outs = (alphaTransfer []).outs := rfl
  have hw : decodeCoveOpReturnTx (alphaTransfer []) = .ok (.transfer alphaId alphaAllocations) := by
    decide +kernel
  rw [← hw]
  simp only [decodeCoveOpReturnTx, h]

/-- The block of either transfer may follow the chain. -/
theorem transferBlocks_active : ActiveBlock sampleCrypto sampleConfig [bothDeployed, bothMinted]
      (transferBlock [alphaCarrier]) ∧
    ActiveBlock sampleCrypto sampleConfig [bothDeployed, bothMinted]
      (transferBlock [alphaCarrier, betaCarrier]) := by
  decide +kernel

/-- The application admits the sample whatever it spends beside the lot of ALPHA, as long as
the snapshot of ALPHA does not know it. -/
theorem alphaTransfer_admitted {chain : List V3BlockInput} {σ : V3IndexerState} {db : Db}
    {a : V3TokenUtxo} (tip : BackingTip) (rest : List OutPoint)
    (hl : Lockstep sampleCrypto sampleConfig chain σ db)
    (ha : σ.tokenUtxos.get alphaCarrier = some a) (htok : a.tokenId = alphaId)
    (hamt : a.amountAtoms = 100000000000)
    (hrest : ∀ o ∈ rest, ∀ u, σ.tokenUtxos.get o = some u → u.tokenId ≠ alphaId) :
    ∃ r, admitTransfer sampleCrypto db alphaId tip none (alphaTransfer (alphaCarrier :: rest)) =
      .ok r := by
  let view := overlayPendingBacking (loadCanonicalViewSnapshotFromDb db alphaId []) alphaId tip
  have hiff := snapshot_getTokenUtxo hl.synced hl.inv alphaId []
  have hfirst : view.getTokenUtxo alphaCarrier = some a.toTokenUtxo :=
    (hiff _ _).mpr ⟨a, ha, htok, Or.inl rfl, rfl⟩
  have hnone : ∀ o ∈ rest, view.getTokenUtxo o = none := by
    intro o ho
    by_contra hne
    obtain ⟨tok, htok'⟩ := Option.ne_none_iff_exists'.mp hne
    obtain ⟨u, hu, hutok, -⟩ := (hiff _ _).mp htok'
    exact hrest o ho u hu hutok
  have hknown : view.knownInputs (alphaTransfer (alphaCarrier :: rest)).spends =
      [a.toTokenUtxo] := by
    rw [alphaTransfer_spends, CoveCanonicalView.knownInputs, List.filterMap_cons, hfirst,
      List.filterMap_eq_nil_iff.mpr hnone]
  have hsum : ((view.knownInputs (alphaTransfer (alphaCarrier :: rest)).spends).map
      TokenUtxo.amountAtoms).sum = 100000000000 := by
    rw [hknown]
    simpa [V3TokenUtxo.toTokenUtxo] using hamt
  refine ⟨_, validateFinalizedTransfer_eq_ok.mpr ⟨alphaId, alphaAllocations, ?_, rfl, rfl⟩⟩
  constructor
  case wire => exact alphaTransfer_wire _
  case tokens =>
    intro tok htok'
    have hmem : tok ∈ [a.toTokenUtxo] := hknown ▸ htok'
    rw [List.mem_singleton.mp hmem]
    exact htok
  case nonzero =>
    rw [hsum]
    decide
  case conserved =>
    rw [hsum]
    decide
  case carriers =>
    intro alloc halloc
    simp only [alphaAllocations, List.mem_cons, List.not_mem_nil, or_false] at halloc
    obtain rfl | rfl := halloc
    · exact ⟨_, rfl, rfl, by decide⟩
    · exact ⟨_, rfl, rfl, by decide⟩

/-- The lot of ALPHA alone is spent: the transfer settles. -/
theorem transfer_admission_sample : ∃ σ σ' allocations,
    Reachable sampleCrypto sampleConfig [bothDeployed, bothMinted] σ ∧
    TransferSettles sampleCrypto sampleConfig σ (transferBlock [alphaCarrier])
      (alphaTransfer [alphaCarrier]) alphaId allocations σ' := by
  obtain ⟨σ, a, -, hσ, ha, htok, hamt, -⟩ := bothMinted_live
  obtain ⟨db, hl⟩ := hσ.lockstep
  obtain ⟨r, hr⟩ := alphaTransfer_admitted alphaTip [] hl ha htok hamt
    fun o ho => absurd ho List.not_mem_nil
  have hown : OnlySpends σ.toLedger (alphaTransfer [alphaCarrier]) alphaId := by
    intro o ho u hu
    rw [alphaTransfer_spends, List.mem_singleton] at ho
    rw [ho, ha] at hu
    rw [← Option.some.inj hu, htok]
  obtain ⟨σ', allocations, -, hs⟩ :=
    (transfer_admission_iff hl transferBlocks_active.1 rfl hr).mpr hown
  exact ⟨σ, σ', allocations, hσ, hs⟩

/-- A lot of BETA is spent beside it: the application admits the transfer, and the indexer does
not record it as valid. -/
theorem mixed_transfer_admitted : ∃ σ db tip r,
    Lockstep sampleCrypto sampleConfig [bothDeployed, bothMinted] σ db ∧
    ActiveBlock sampleCrypto sampleConfig [bothDeployed, bothMinted]
      (transferBlock [alphaCarrier, betaCarrier]) ∧
    admitTransfer sampleCrypto db alphaId tip none (alphaTransfer [alphaCarrier, betaCarrier]) =
      .ok r ∧
    ¬ ∃ σ', RecordsValid sampleCrypto sampleConfig σ (transferBlock [alphaCarrier, betaCarrier])
      (alphaTransfer [alphaCarrier, betaCarrier]) .transfer alphaId σ' := by
  obtain ⟨σ, a, b, hσ, ha, htok, hamt, hb, hbtok, -⟩ := bothMinted_live
  obtain ⟨db, hl⟩ := hσ.lockstep
  have hne : betaId ≠ alphaId := by decide
  obtain ⟨r, hr⟩ := alphaTransfer_admitted alphaTip [betaCarrier] hl ha htok hamt (by
    intro o ho u hu
    rw [List.mem_singleton.mp ho, hb] at hu
    rw [← Option.some.inj hu, hbtok]
    exact hne)
  refine ⟨σ, db, alphaTip, r, hl, transferBlocks_active.2, hr, ?_⟩
  intro hrec
  obtain ⟨σ', h⟩ := hrec
  have hown := onlySpends_of_recorded transferBlocks_active.2 rfl
    (decodeCoveOpReturnTx_parses (alphaTransfer_wire _)) h
  have hbeta : b.tokenId = alphaId := by
    apply hown betaCarrier _ b hb
    rw [alphaTransfer_spends]
    simp
  exact hne (hbtok.symm.trans hbeta)

end Cove
