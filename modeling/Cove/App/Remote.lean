import Cove.App.PendingTip
import Cove.Guardian.Service

/-! What the app validates against its pending tip, and what the Guardian service validates of
the same PSBT: `buildBackingBuy` and `buildRedeem` of `packages/cove-app/src/service.ts`. -/

namespace Cove

open Checked

/-- The settings of `config.ts` that reach a validation. -/
structure V3AppConfig where
  network : Network
  guardianXOnly : Bytes
  recoveryKeyXOnly : Bytes
  recoveryProfile : Option VaultRecoveryProfile
  feeScript : Bytes
  buyFeeBps : Int
  buyFeeFlatSats : Int
  discoveryEnvelope : Bool
  redeemFeeBps : Int
  redeemFeeFlatSats : Int
  maxMinerFeeSats : Int
  deriving DecidableEq, Repr

/-- The mainnet configuration, the only one with a remote Guardian. -/
def loadV3AppConfig (profile : MainnetProfile) (discoveryEnvelope : Bool) : V3AppConfig where
  network := .mainnet
  guardianXOnly := profile.guardianXOnly
  recoveryKeyXOnly := profile.recovery.pubkeys.headD []
  recoveryProfile := some (recoveryProfileFromMainnet profile)
  feeScript := profile.feeScript
  buyFeeBps := profile.buyFeeBps
  buyFeeFlatSats := coveFeeConfig.buyFeeFlatSats
  discoveryEnvelope := discoveryEnvelope
  redeemFeeBps := profile.redeemFeeBps
  redeemFeeFlatSats := coveFeeConfig.redeemFeeFlatSats
  maxMinerFeeSats := 20000

/-- The service's data: its index, its sessions in the order the query reads them, what its node
returns for a txid, and the sources of its funding checks. -/
structure V3AppService where
  config : V3AppConfig
  db : Db
  sessions : TxSessions
  order : List Nat
  raw : Bytes → Option Transaction
  sources : FundingSources

namespace V3AppService

variable (C : Crypto) (X : SimplicityExecutor) (app : V3AppService) (tokenId : Bytes)

def loadBacking : Except Fault AppBacking := do
  let confirmed ← demand (loadConfirmedBacking app.db tokenId)
    ⟨some "TOKEN_NOT_FOUND", "token not found"⟩
  followPendingBacking C app.sessions app.order app.raw tokenId none maxPendingBackingChain confirmed

def discoveryTicker : Option Bytes :=
  if app.config.discoveryEnvelope then (app.db.tokens.get tokenId).map TokenRow.ticker else none

/-- The arguments both requests share. -/
def validateParams (view : CoveCanonicalView) (psbt : Psbt) : ValidateParams where
  psbt := psbt
  view := view
  network := app.config.network
  guardianXOnly := app.config.guardianXOnly
  recoveryKeyXOnly := app.config.recoveryKeyXOnly
  recoveryProfile := app.config.recoveryProfile
  feeScript := app.config.feeScript
  maxMinerFeeSats := some app.config.maxMinerFeeSats
  buyFeeBps := none
  buyFeeFlatSats := none
  creatorFeeBps := none
  redeemFeeBps := none
  redeemFeeFlatSats := none
  discoveryTicker := none
  fundingChecker := fundingChecker app.db app.sources

def overlaidView (relevant : List OutPoint) (tip : AppBacking) : CoveCanonicalView :=
  overlayPendingBacking (loadCanonicalViewSnapshotFromDb app.db tokenId relevant) tokenId
    tip.toBackingTip

def mintRequest (tip : AppBacking) (psbt : Psbt) : ValidateParams :=
  { app.validateParams (app.overlaidView tokenId [] tip) psbt with
    buyFeeBps := some app.config.buyFeeBps
    buyFeeFlatSats := some app.config.buyFeeFlatSats
    discoveryTicker := app.discoveryTicker tokenId }

/-- `selected` are the carriers a redeem spends. -/
def redeemRequest (selected : List OutPoint) (tip : AppBacking) (psbt : Psbt) : ValidateParams :=
  { app.validateParams (app.overlaidView tokenId selected tip) psbt with
    redeemFeeBps := some app.config.redeemFeeBps
    redeemFeeFlatSats := some app.config.redeemFeeFlatSats }

/-- The check at the end of `buildBackingBuy`. -/
def validateBuy (psbt : Psbt) : Except Refusal (Validated MintAnalysis) := do
  let tip ← thrown (app.loadBacking C tokenId)
  validateMintTransitionV3 C X (app.mintRequest tokenId tip psbt)

/-- The check at the end of `buildRedeem`. -/
def validateRedeem (selected : List OutPoint) (psbt : Psbt) :
    Except Refusal (Validated RedeemAnalysis) := do
  let tip ← thrown (app.loadBacking C tokenId)
  validateRedeemTransitionV3 C X (app.redeemRequest tokenId selected tip psbt)

end V3AppService

/-- The service's validation of the request the app's remote signer makes. -/
def remoteValidate (C : Crypto) (X : SimplicityExecutor) (opts : InProcessGuardianTransportOptions)
    (op : V3Operation) (psbt : Psbt) :
    Except Refusal (Validated MintAnalysis ⊕ Validated RedeemAnalysis) := do
  let req ← signRequest op psbt
  opts.sign C X req

/-! The conditions. -/

/-- The node knows transactions under their ids, and each was made after those it spends. -/
structure NodeOrdered (C : Crypto) (raw : Bytes → Option Transaction) : Prop where
  ids : ∀ txid tx, raw txid = some tx → tx.getId C = txid
  acyclic : ∃ rank : Bytes → Nat, ∀ txid tx, raw txid = some tx →
    ∀ o ∈ tx.spends, rank o.txid < rank txid

/-- A source that answers what the app's own answers lets pass what the app's lets pass. -/
def FundingSources.PassToo (sources sources' : FundingSources) (db : Db) : Prop :=
  ∀ o, (fundingChecker db sources).check o = .ok .ok → (fundingChecker db sources').check o = .ok .ok

/-- A broadcast session spends the confirmed backing, and its transaction, which the node still
has, makes the next one. -/
def V3AppService.BackingPending (C : Crypto) (app : V3AppService) (tokenId : Bytes) : Prop :=
  ∃ confirmed txid tx next, loadConfirmedBacking app.db tokenId = some confirmed ∧
    (findBroadcastSpendOfBacking app.sessions app.order tokenId confirmed.outpoint).bind
      TxSessionRow.txid = some txid ∧
    app.raw txid = some tx ∧ pendingSuccessor C confirmed tx = .ok (some next)

section

variable {C : Crypto} {sessions : TxSessions} {order : List Nat}
  {raw : Bytes → Option Transaction} {tokenId : Bytes}

/-- Every turn of the walk goes on to a later transaction. -/
theorem follow_rank (hnode : NodeOrdered C raw) (hrows : SessionsTrue sessions raw tokenId) :
    ∃ rank : Bytes → Nat,
      (∀ tip txid tx next, (findBroadcastSpendOfBacking sessions order tokenId tip.outpoint).bind
          TxSessionRow.txid = some txid → raw txid = some tx →
          pendingSuccessor C tip tx = .ok (some next) →
            rank tip.outpoint.txid < rank next.outpoint.txid) ∧
      ∀ depth tip last, followPendingBacking C sessions order raw tokenId none depth tip = .ok last →
        rank tip.outpoint.txid ≤ rank last.outpoint.txid := by
  obtain ⟨rank, hrank⟩ := hnode.acyclic
  have hstep : ∀ tip txid tx next,
      (findBroadcastSpendOfBacking sessions order tokenId tip.outpoint).bind
        TxSessionRow.txid = some txid → raw txid = some tx →
      pendingSuccessor C tip tx = .ok (some next) →
        rank tip.outpoint.txid < rank next.outpoint.txid := by
    intro tip txid tx next hfind hraw hnext
    obtain ⟨r, hr, htxid⟩ := Option.bind_eq_some_iff.mp hfind
    obtain ⟨⟨id, hid⟩, hspends⟩ := findBroadcastSpendOfBacking_some hr
    obtain ⟨ins0, hins, hout⟩ := hrows id r _ txid tx hid hspends htxid hraw
    have hmem : tip.outpoint ∈ tx.spends := by
      rw [← hout]
      exact List.mem_map_of_mem (List.mem_of_getElem? hins)
    rw [pendingSuccessor_outpoint hnext, hnode.ids txid tx hraw]
    exact hrank txid tx hraw _ hmem
  refine ⟨rank, hstep, ?_⟩
  intro depth
  induction depth with
  | zero =>
    intro tip last h
    obtain rfl := Except.ok.inj h
    exact le_refl _
  | succ depth ih =>
    intro tip last h
    rw [followPendingBacking, if_neg (by simp)] at h
    split at h
    · obtain rfl := Except.ok.inj h
      exact le_refl _
    · rename_i txid hfind
      split at h
      · obtain rfl := Except.ok.inj h
        exact le_refl _
      · rename_i tx hraw
        simp only [bind_eq_ok] at h
        obtain ⟨found, hfound, h⟩ := h
        cases found with
        | none =>
          obtain rfl := Except.ok.inj h
          exact le_refl _
        | some next =>
          have hlt := hstep tip txid tx next hfind hraw hfound
          have hle := ih next last h
          omega

end

section

variable {C : Crypto} {X : SimplicityExecutor} {app : V3AppService} {tokenId : Bytes}
  {tip confirmed : AppBacking}

/-- The app builds on the confirmed backing exactly when no transition of it is pending. -/
theorem loadBacking_outpoint_iff (hnode : NodeOrdered C app.raw)
    (hrows : SessionsTrue app.sessions app.raw tokenId)
    (hconfirmed : loadConfirmedBacking app.db tokenId = some confirmed)
    (htip : app.loadBacking C tokenId = .ok tip) :
    (¬ app.BackingPending C tokenId → tip = confirmed) ∧
      (app.BackingPending C tokenId → tip.outpoint ≠ confirmed.outpoint) := by
  rw [V3AppService.loadBacking, hconfirmed] at htip
  change followPendingBacking C app.sessions app.order app.raw tokenId none (23 + 1) confirmed =
    .ok tip at htip
  rw [followPendingBacking, if_neg (by simp)] at htip
  constructor
  · intro hnone
    split at htip
    · exact (Except.ok.inj htip).symm
    · rename_i txid hfind
      split at htip
      · exact (Except.ok.inj htip).symm
      · rename_i tx hraw
        simp only [bind_eq_ok] at htip
        obtain ⟨found, hfound, htip⟩ := htip
        cases found with
        | none => exact (Except.ok.inj htip).symm
        | some next => exact absurd ⟨confirmed, txid, tx, next, hconfirmed, hfind, hraw, hfound⟩ hnone
  · intro hpending heq
    obtain ⟨confirmed', txid, tx, next, hconfirmed', hfind, hraw, hnext⟩ := hpending
    obtain rfl : confirmed = confirmed' := by simpa [hconfirmed] using hconfirmed'
    obtain ⟨rank, hstep, hrest⟩ := @follow_rank C _ app.order _ tokenId hnode hrows
    have hlt := hstep confirmed txid tx next hfind hraw hnext
    rw [hfind] at htip
    dsimp only at htip
    rw [hraw] at htip
    dsimp only at htip
    rw [hnext] at htip
    have hle := hrest 23 next tip htip
    rw [heq] at hle
    omega

theorem overlaid_confirmed (hconfirmed : loadConfirmedBacking app.db tokenId = some confirmed)
    (relevant : List OutPoint) : app.overlaidView tokenId relevant confirmed =
      loadCanonicalViewSnapshotFromDb app.db tokenId relevant := by
  obtain ⟨row, hrow, rfl⟩ := Option.map_eq_some_iff.mp hconfirmed
  rw [V3AppService.overlaidView, overlayPendingBacking, loadCanonicalViewSnapshotFromDb]
  congr 1
  · funext t
    by_cases ht : t = tokenId
    · rw [if_pos ht, if_pos ht, hrow]
      rfl
    · simp only [if_neg ht]
  · funext t
    by_cases ht : t = tokenId
    · rw [if_pos ht, if_pos ht, hrow]
      rfl
    · simp only [if_neg ht]

/-- The overlaid view knows no token but its own. -/
theorem overlaid_token {relevant : List OutPoint} {t : Bytes} {s : CoveStateV2}
    (h : (app.overlaidView tokenId relevant tip).getCurrentBackingState t = some s) :
    t = tokenId := by
  by_contra hne
  rw [V3AppService.overlaidView, overlayPendingBacking, loadCanonicalViewSnapshotFromDb] at h
  dsimp only at h
  rw [if_neg hne, if_neg hne] at h
  cases h

theorem overlaid_outpoint {relevant : List OutPoint} :
    (app.overlaidView tokenId relevant tip).getBackingOutpoint tokenId = some tip.outpoint := by
  rw [V3AppService.overlaidView, overlayPendingBacking]
  exact if_pos rfl

theorem snapshot_confirmed (hconfirmed : loadConfirmedBacking app.db tokenId = some confirmed)
    {relevant : List OutPoint} :
    (loadCanonicalViewSnapshotFromDb app.db tokenId relevant).getBackingOutpoint tokenId =
      some confirmed.outpoint := by
  obtain ⟨row, hrow, rfl⟩ := Option.map_eq_some_iff.mp hconfirmed
  rw [loadCanonicalViewSnapshotFromDb]
  dsimp only
  rw [if_pos rfl, hrow]
  rfl

theorem loadBacking_confirmed (h : app.loadBacking C tokenId = .ok tip) :
    ∃ confirmed, loadConfirmedBacking app.db tokenId = some confirmed := by
  simp only [V3AppService.loadBacking, bind_eq_ok, demand_eq_ok] at h
  obtain ⟨confirmed, hconfirmed, -⟩ := h
  exact ⟨confirmed, hconfirmed⟩

theorem signRequest_eq {op : V3Operation} {psbt : Psbt} {e : ParsedEnvelopeV2}
    (hwire : decodeCoveOpReturn psbt = .ok e) (htoken : e.tokenIdOf = some tokenId) :
    signRequest op psbt = .ok ⟨op, psbt, tokenId⟩ := by
  simp only [signRequest, bind_eq_ok, thrown_eq_ok, demand_eq_ok, pure_eq_ok]
  exact ⟨e, hwire, tokenId, htoken, rfl⟩

end

/-! The comparison. -/

section

variable {C : Crypto} {X : SimplicityExecutor} {profile : MainnetProfile} {discoveryEnvelope : Bool}
  {app : V3AppService} {sources : FundingSources} {tokenId : Bytes} {psbt : Psbt}
  {tip confirmed : AppBacking} {selected : List OutPoint}

/-- The arguments of the service's validation. -/
def serviceParams (profile : MainnetProfile) (db : Db) (sources : FundingSources) (op : V3Operation)
    (tokenId : Bytes) (psbt : Psbt) : ValidateParams :=
  (buildGuardianService profile .mainnet db sources).validateParams ⟨op, psbt, tokenId⟩

theorem mintRequest_sameRules (happ : app.config = loadV3AppConfig profile discoveryEnvelope)
    (hconfirmed : loadConfirmedBacking app.db tokenId = some confirmed) :
    SameRules (app.mintRequest tokenId confirmed psbt)
      (serviceParams profile app.db sources .mint tokenId psbt) := by
  have hview : (app.mintRequest tokenId confirmed psbt).view =
      loadCanonicalViewSnapshotFromDb app.db tokenId [] := overlaid_confirmed hconfirmed []
  constructor
  case state => rw [hview]; rfl
  case outpoint => rw [hview]; rfl
  case creator => rw [hview]; rfl
  all_goals simp only [V3AppService.mintRequest, V3AppService.validateParams, happ]; rfl

theorem redeemRequest_sameRules (happ : app.config = loadV3AppConfig profile discoveryEnvelope)
    (hconfirmed : loadConfirmedBacking app.db tokenId = some confirmed) :
    SameRules (app.redeemRequest tokenId selected confirmed psbt)
      (serviceParams profile app.db sources .redeem tokenId psbt) := by
  have hview : (app.redeemRequest tokenId selected confirmed psbt).view =
      loadCanonicalViewSnapshotFromDb app.db tokenId selected := overlaid_confirmed hconfirmed _
  constructor
  case state => rw [hview]; rfl
  case outpoint => rw [hview]; rfl
  case creator => rw [hview]; rfl
  all_goals simp only [V3AppService.redeemRequest, V3AppService.validateParams, happ]; rfl

/-- The view of an accepted mint is of the app's own token. -/
theorem mintRequest_token {v : Validated MintAnalysis}
    (hv : MintValidated C (app.mintRequest tokenId tip psbt) X v) : v.analysis.tokenId = tokenId :=
  overlaid_token hv.analyzed.state

theorem redeemRequest_token {v : Validated RedeemAnalysis} {toks : List (Nat × TokenUtxo)}
    (hv : RedeemValidated C (app.redeemRequest tokenId selected tip psbt) X v toks) :
    v.analysis.tokenId = tokenId :=
  overlaid_token hv.analyzed.state

theorem remoteValidate_mint {v : Validated MintAnalysis}
    (hv : MintValidated C (app.mintRequest tokenId tip psbt) X v) :
    remoteValidate C X (buildGuardianService profile .mainnet app.db sources) .mint psbt =
      .inl <$> validateMintTransitionV3 C X
        (serviceParams profile app.db sources .mint tokenId psbt) := by
  have hwire : decodeCoveOpReturn psbt = _ := hv.analyzed.wire
  rw [mintRequest_token hv] at hwire
  rw [remoteValidate, signRequest_eq hwire rfl]
  rfl

theorem remoteValidate_redeem {v : Validated RedeemAnalysis} {toks : List (Nat × TokenUtxo)}
    (hv : RedeemValidated C (app.redeemRequest tokenId selected tip psbt) X v toks) :
    remoteValidate C X (buildGuardianService profile .mainnet app.db sources) .redeem psbt =
      .inr <$> validateRedeemTransitionV3 C X
        (serviceParams profile app.db sources .redeem tokenId psbt) := by
  have hwire : decodeCoveOpReturn psbt = _ := hv.analyzed.wire
  rw [redeemRequest_token hv] at hwire
  rw [remoteValidate, signRequest_eq hwire rfl]
  rfl

/-- The creator of an accepted mint is in the index, so with the envelope on there is a ticker. -/
theorem mintRequest_ticker {v : Validated MintAnalysis}
    (hv : MintValidated C (app.mintRequest tokenId tip psbt) X v)
    (hon : app.config.discoveryEnvelope = true) :
    ∃ ticker, app.discoveryTicker tokenId = some ticker := by
  have hcreator : (loadCanonicalViewSnapshotFromDb app.db tokenId []).getTokenCreatorScript
      v.analysis.tokenId = some _ := hv.analyzed.creator
  rw [mintRequest_token hv, loadCanonicalViewSnapshotFromDb] at hcreator
  dsimp only at hcreator
  rw [if_pos rfl] at hcreator
  obtain ⟨hmap, -⟩ := Option.filter_eq_some_iff.mp hcreator
  obtain ⟨row, hrow, -⟩ := Option.map_eq_some_iff.mp hmap
  exact ⟨row.ticker, by rw [V3AppService.discoveryTicker, if_pos hon, hrow]; rfl⟩

/-- An accepted mint on the confirmed backing passes the service unless it carries a discovery
output made with a ticker. -/
theorem mint_confirmed_iff (happ : app.config = loadV3AppConfig profile discoveryEnvelope)
    (hsources : app.sources.PassToo sources app.db)
    (hconfirmed : loadConfirmedBacking app.db tokenId = some confirmed) {v : Validated MintAnalysis}
    (hv : validateMintTransitionV3 C X (app.mintRequest tokenId confirmed psbt) = .ok v) :
    (∃ v', validateMintTransitionV3 C X
      (serviceParams profile app.db sources .mint tokenId psbt) = .ok v') ↔
      discoveryEnvelope = false ∨ ¬ CarriesDiscovery psbt.txOutputs := by
  have hvalid := validateMint_ok hv
  have hwire : decodeCoveOpReturn psbt = _ := hvalid.analyzed.wire
  have hcount := validateMint_outputs hv
  have hflag : app.config.discoveryEnvelope = discoveryEnvelope := by rw [happ]; rfl
  constructor
  · intro hservice
    obtain ⟨v', hv'⟩ := hservice
    by_contra hnot
    rw [not_or, not_not] at hnot
    obtain ⟨hon, hcarries⟩ := hnot
    rw [Bool.not_eq_false] at hon
    obtain ⟨ticker, hticker⟩ := mintRequest_ticker hvalid (hflag.trans hon)
    have hcount' := validateMint_outputs hv'
    simp only [checkOutputCount, bind_eq_ok, ensure_eq_ok, thrown_eq_ok] at hcount hcount'
    obtain ⟨e, he, _, hagree, -⟩ := hcount
    obtain ⟨e', he', _, hagree', -⟩ := hcount'
    obtain rfl := Except.ok.inj (hwire.symm.trans he)
    obtain rfl := Except.ok.inj (hwire.symm.trans he')
    have hwith : app.discoveryTicker tokenId = (app.mintRequest tokenId confirmed psbt).discoveryTicker :=
      rfl
    rw [← hwith, hticker] at hagree
    exact checkDiscoveryOutput_ticker hcarries hagree hagree'
  · intro hcond
    refine ⟨v, validateMint_of_sameRules (mintRequest_sameRules happ hconfirmed) ?_ ?_ rfl ?_ ?_ hv⟩
    · simp only [V3AppService.mintRequest, happ]
      rfl
    · simp only [V3AppService.mintRequest, happ]
      rfl
    · intro _
      rcases hcond with hoff | habsent
      · have hticker : (app.mintRequest tokenId confirmed psbt).discoveryTicker = none := by
          show app.discoveryTicker tokenId = none
          rw [V3AppService.discoveryTicker, hflag, hoff]
          rfl
        simp only [checkOutputCount, hticker] at hcount
        exact hcount
      · have habsent' := checkDiscoveryOutput_absent habsent
        simp only [checkOutputCount, bind_eq_ok, ensure_eq_ok, thrown_eq_ok] at hcount ⊢
        obtain ⟨e, he, _, -, hlen⟩ := hcount
        have hmax : psbt.txOutputs.length ≤
            6 + (checkDiscoveryOutput psbt.txOutputs e (app.discoveryTicker tokenId)).allowance := hlen
        refine ⟨e, he, (), .inl (congrArg DiscoveryOutputCheck.present (habsent' e none)), ?_⟩
        show psbt.txOutputs.length ≤ 6 + (checkDiscoveryOutput psbt.txOutputs e none).allowance
        rw [habsent'] at hmax ⊢
        exact hmax
    · intro indices hfunding
      rw [checkFundingInputs_eq_ok] at hfunding ⊢
      intro i hi
      obtain ⟨input, hget, hview, hcheck⟩ := hfunding i hi
      have hsame : (app.mintRequest tokenId confirmed psbt).view =
          loadCanonicalViewSnapshotFromDb app.db tokenId [] := overlaid_confirmed hconfirmed []
      rw [hsame] at hview
      exact ⟨input, hget, hview, hsources _ hcheck⟩

/-- The carriers the service sees among a redeem's inputs are those the app selected: every other
live one is refused as funding. -/
theorem redeem_confirmed (happ : app.config = loadV3AppConfig profile discoveryEnvelope)
    (hsources : app.sources.PassToo sources app.db)
    (hconfirmed : loadConfirmedBacking app.db tokenId = some confirmed)
    {v : Validated RedeemAnalysis} (hv : validateRedeemTransitionV3 C X
      (app.redeemRequest tokenId selected confirmed psbt) = .ok v) :
    validateRedeemTransitionV3 C X (serviceParams profile app.db sources .redeem tokenId psbt) =
      .ok v := by
  obtain ⟨toks, hvalid⟩ := validateRedeem_ok hv
  have hsame : (app.redeemRequest tokenId selected confirmed psbt).view =
      loadCanonicalViewSnapshotFromDb app.db tokenId selected := overlaid_confirmed hconfirmed _
  refine validateRedeem_of_sameRules (redeemRequest_sameRules happ hconfirmed) ?_ ?_ rfl ?_
    hsources hv
  · simp only [V3AppService.redeemRequest, happ]
    rfl
  · simp only [V3AppService.redeemRequest, happ]
    rfl
  · intro input hmem
    have hchecked := hvalid.checked hmem
    rw [hsame] at hchecked ⊢
    show (loadCanonicalViewSnapshotFromDb app.db tokenId []).getTokenUtxo input.outpoint = _
    unfold loadCanonicalViewSnapshotFromDb at hchecked ⊢
    dsimp only at hchecked ⊢
    cases hrow : app.db.tokenUtxos.get input.outpoint with
    | none => rfl
    | some row =>
      rw [hrow] at hchecked
      dsimp only at hchecked ⊢
      by_cases hlive : row.tokenId = tokenId ∧ row.spentByTxid = none
      · by_cases hselected : selected = [] ∨ input.outpoint ∈ selected
        · rw [if_pos ⟨hlive.1, hlive.2, .inl rfl⟩, if_pos ⟨hlive.1, hlive.2, hselected⟩]
        · have hcheck := hchecked (if_neg fun h => hselected h.2.2)
          exact absurd hlive.2 (fundingChecker_not_live hcheck hrow)
      · rw [if_neg fun h => hlive ⟨h.1, h.2.1⟩, if_neg fun h => hlive ⟨h.1, h.2.1⟩]

/-- The first input spends the tip to the app and the confirmed backing to the service. -/
theorem tip_of_both (hconfirmed : loadConfirmedBacking app.db tokenId = some confirmed)
    {relevant : List OutPoint} {o o' : OutPoint}
    (happ : (app.overlaidView tokenId relevant tip).getBackingOutpoint tokenId = some o)
    (hinput : ∃ input, psbt.inputs[0]? = some input ∧ input.outpoint = o)
    (hservice : (loadCanonicalViewSnapshotFromDb app.db tokenId []).getBackingOutpoint tokenId =
      some o')
    (hinput' : ∃ input, psbt.inputs[0]? = some input ∧ input.outpoint = o') :
    tip.outpoint = confirmed.outpoint := by
  obtain ⟨input, hget, rfl⟩ := hinput
  obtain ⟨input', hget', rfl⟩ := hinput'
  obtain rfl : input = input' := by simpa [hget] using hget'
  rw [overlaid_outpoint, Option.some.injEq] at happ
  rw [snapshot_confirmed hconfirmed, Option.some.injEq] at hservice
  rw [happ, hservice]

/-- What the app validates for a mint, the service validates exactly when the confirmed backing
is the tip and no discovery output was made with a ticker. -/
theorem remote_mint_iff (happ : app.config = loadV3AppConfig profile discoveryEnvelope)
    (hsources : app.sources.PassToo sources app.db) (hnode : NodeOrdered C app.raw)
    (hrows : SessionsTrue app.sessions app.raw tokenId) {v : Validated MintAnalysis}
    (hv : app.validateBuy C X tokenId psbt = .ok v) :
    (∃ r, remoteValidate C X (buildGuardianService profile .mainnet app.db sources) .mint psbt =
      .ok r) ↔ ¬ app.BackingPending C tokenId ∧
        (discoveryEnvelope = false ∨ ¬ CarriesDiscovery psbt.txOutputs) := by
  simp only [V3AppService.validateBuy, bind_eq_ok, thrown_eq_ok] at hv
  obtain ⟨tip, htip, hv⟩ := hv
  obtain ⟨confirmed, hconfirmed⟩ := loadBacking_confirmed htip
  obtain ⟨hstays, hmoves⟩ := loadBacking_outpoint_iff hnode hrows hconfirmed htip
  have hvalid := validateMint_ok hv
  rw [remoteValidate_mint hvalid]
  constructor
  · intro hservice
    obtain ⟨r, hr⟩ := hservice
    obtain ⟨v', hv', -⟩ := map_eq_ok.mp hr
    have hnot : ¬ app.BackingPending C tokenId := by
      intro hpending
      have hvalid' := validateMint_ok hv'
      have htoken : v'.analysis.tokenId = tokenId := by
        have hwire := hvalid'.analyzed.wire.symm.trans hvalid.analyzed.wire
        injection hwire with hwire
        injection hwire with htoken
        rw [htoken, mintRequest_token hvalid]
      have ho := hvalid.analyzed.outpoint
      have ho' := hvalid'.analyzed.outpoint
      rw [mintRequest_token hvalid] at ho
      rw [htoken] at ho'
      exact hmoves hpending (tip_of_both hconfirmed ho hvalid.analyzed.input0 ho'
        hvalid'.analyzed.input0)
    obtain rfl := hstays hnot
    exact ⟨hnot, (mint_confirmed_iff happ hsources hconfirmed hv).mp ⟨v', hv'⟩⟩
  · intro hcond
    obtain rfl := hstays hcond.1
    obtain ⟨v', hv'⟩ := (mint_confirmed_iff happ hsources hconfirmed hv).mpr hcond.2
    exact ⟨.inl v', by rw [hv']; rfl⟩

theorem remote_redeem_iff (happ : app.config = loadV3AppConfig profile discoveryEnvelope)
    (hsources : app.sources.PassToo sources app.db) (hnode : NodeOrdered C app.raw)
    (hrows : SessionsTrue app.sessions app.raw tokenId) {v : Validated RedeemAnalysis}
    (hv : app.validateRedeem C X tokenId selected psbt = .ok v) :
    (∃ r, remoteValidate C X (buildGuardianService profile .mainnet app.db sources) .redeem psbt =
      .ok r) ↔ ¬ app.BackingPending C tokenId := by
  simp only [V3AppService.validateRedeem, bind_eq_ok, thrown_eq_ok] at hv
  obtain ⟨tip, htip, hv⟩ := hv
  obtain ⟨confirmed, hconfirmed⟩ := loadBacking_confirmed htip
  obtain ⟨hstays, hmoves⟩ := loadBacking_outpoint_iff hnode hrows hconfirmed htip
  obtain ⟨toks, hvalid⟩ := validateRedeem_ok hv
  rw [remoteValidate_redeem hvalid]
  constructor
  · intro hservice hpending
    obtain ⟨r, hr⟩ := hservice
    obtain ⟨v', hv', -⟩ := map_eq_ok.mp hr
    obtain ⟨toks', hvalid'⟩ := validateRedeem_ok hv'
    have htoken : v'.analysis.tokenId = tokenId := by
      have hwire := hvalid'.analyzed.wire.symm.trans hvalid.analyzed.wire
      injection hwire with hwire
      injection hwire with htoken
      rw [htoken, redeemRequest_token hvalid]
    have ho := hvalid.analyzed.outpoint
    have ho' := hvalid'.analyzed.outpoint
    rw [redeemRequest_token hvalid] at ho
    rw [htoken] at ho'
    exact hmoves hpending (tip_of_both hconfirmed ho hvalid.analyzed.input0 ho'
      hvalid'.analyzed.input0)
  · intro hnot
    obtain rfl := hstays hnot
    exact ⟨.inr v, by rw [redeem_confirmed happ hsources hconfirmed hv]; rfl⟩

/-- Of what the app builds and validates against its pending tip, the Guardian service validates
exactly what stands on the confirmed backing and carries no discovery output with a ticker. -/
theorem remote_validates_iff (happ : app.config = loadV3AppConfig profile discoveryEnvelope)
    (hsources : app.sources.PassToo sources app.db) (hnode : NodeOrdered C app.raw)
    (hrows : SessionsTrue app.sessions app.raw tokenId) :
    (∀ psbt v, app.validateBuy C X tokenId psbt = .ok v →
      ((∃ r, remoteValidate C X (buildGuardianService profile .mainnet app.db sources) .mint psbt =
        .ok r) ↔ ¬ app.BackingPending C tokenId ∧
          (discoveryEnvelope = false ∨ ¬ CarriesDiscovery psbt.txOutputs))) ∧
    ∀ selected psbt v, app.validateRedeem C X tokenId selected psbt = .ok v →
      ((∃ r, remoteValidate C X (buildGuardianService profile .mainnet app.db sources) .redeem psbt =
        .ok r) ↔ ¬ app.BackingPending C tokenId) := by
  constructor
  · intro psbt v hv
    exact remote_mint_iff happ hsources hnode hrows hv
  · intro selected psbt v hv
    exact remote_redeem_iff happ hsources hnode hrows hv

end

/-! A second mint on a pending one. -/

/-- The curve points of the two vaults. -/
def mainnetCrypto : Crypto :=
  { sampleCrypto with
    isXOnlyPoint := fun key => key = sampleConfig.guardianXOnly || key = sampleConfig.recoveryKeyXOnly
    xOnlyPointAddTweak := fun _ tweak => [
      (Bytes.ofNatBE 32 0x230422559e233862bf247b797f5e4aafa9a914527f4fd87da26321f71716f12d,
        Bytes.ofNatBE 32 0x306378d946459e52c3122bcf7062f6405193a5c5c9aa292324d73211b0359b85, 0),
      (Bytes.ofNatBE 32 0xfbeaa31c20b18d4a2640107d5060a1fb762df61256fc42bea39d5630260a0584,
        Bytes.ofNatBE 32 0x57fe1f53b243c0cfa5b8be8446d701934274c80f0505f2a2d1dd45859c83992c,
        0)].lookup tweak }

def sampleProfile : MainnetProfile where
  guardianXOnly := sampleConfig.guardianXOnly
  recovery := {
    threshold := 1
    pubkeys := [sampleConfig.recoveryKeyXOnly]
    csvBlocks := 144
    shapeOk := .inr ⟨rfl, rfl⟩ }
  feeScript := sampleConfig.feeScript
  buyFeeBps := 750
  redeemFeeBps := 750

/-- The outputs of a mint of one lot up to the creator's share. -/
def lotOutputs (vaultKey value : Nat) : List TxOut :=
  alphaMint.outs.set 1 ⟨0x51 :: 0x20 :: Bytes.ofNatBE 32 vaultKey, value⟩

def firstMint : Transaction where
  ins := [
    { hash := List.replicate 32 0x11, index := 1 },
    { hash := List.replicate 32 0x33, index := 0 }]
  outs := lotOutputs 0x306378d946459e52c3122bcf7062f6405193a5c5c9aa292324d73211b0359b85 10027

/-- A mint of the second lot on the vault of the first. -/
def secondMintPsbt (txid : Bytes) (rest : List TxOut) : Psbt where
  inputs := [
    { hash := txid.reverse
      index := 1
      witnessUtxo := some ⟨0x51 :: 0x20 ::
        Bytes.ofNatBE 32 0x306378d946459e52c3122bcf7062f6405193a5c5c9aa292324d73211b0359b85,
        10027⟩
      tapInternalKey := some coveNumsXOnly
      tapMerkleRoot := some
        (Bytes.ofNatBE 32 0xe0973a4b23302b64ab826286bcc0bd7e5768e9ea893c0f2bb63a1db39d681b1d)
      tapLeafScript := [{
        script := 0x20 ::
          Bytes.ofNatBE 32 0xeb2655b0a3e74decedbaa890ad675303a4ea3f3161f79dfe99339ad7af4ca481 ++
          0x88 :: 0x20 :: sampleConfig.guardianXOnly ++ [0xac]
        controlBlock := 0xc0 :: coveNumsXOnly ++
          Bytes.ofNatBE 32 0x871affabb5c75b7636a5ae493fedf478b0041161fc28895470a0c0cedbd77944 }] },
    { hash := List.replicate 32 0x44, index := 0, witnessUtxo := some ⟨sampleOwner, 7000⟩ }]
  txOutputs :=
    lotOutputs 0x57fe1f53b243c0cfa5b8be8446d701934274c80f0505f2a2d1dd45859c83992c 10054 ++ rest

/-- The payload `{"p":"crc-20","op":"mint","tick":"ALPHA","amt":"100000000000"}`. -/
def mintDiscovery : TxOut :=
  ⟨opReturnScript (Bytes.ascii "\x7b\"p\":\"crc-20\",\"op\":\"mint\",\"tick\":\"ALPHA\",\"amt\":\"100000000000\"\x7d"), 0⟩

def alphaRow : TokenRow where
  ticker := Bytes.ascii "ALPHA"
  policyVersion := 3
  nonce := List.replicate 32 7
  deployTxid := List.replicate 32 0x11
  deployHeight := 1
  deployBlockHash := List.replicate 32 0xb1
  creatorScript := sampleCreator

/-- The index with the token's backing at an outpoint. -/
def alphaDb (txid : Bytes) (lots backingSats : Int) (stateHash vaultKey : Nat) : Db :=
  { Db.empty with
    tokens := Dict.set ∅ alphaId alphaRow
    backingStates := Dict.set ∅ alphaId {
      stateHash := Bytes.ofNatBE 32 stateHash
      stateVersion := 2
      policyVersion := 3
      issuedSupplyAtoms := lots * lotAtoms
      backingSats
      curveStage := 1
      txid
      vout := 1
      scriptPubKey := 0x51 :: 0x20 :: Bytes.ofNatBE 32 vaultKey
      btcValue := 10000 + backingSats
      blockHeight := 1
      blockHash := List.replicate 32 0xb1 } }

/-- Every output is confirmed and holds nothing. -/
def confirmedSources : FundingSources where
  getTxout _ := .ok (some 6)
  assets := some fun _ => .ok none

def sampleApp (discoveryEnvelope : Bool) (db : Db) (sessions : TxSessions)
    (raw : Bytes → Option Transaction) : V3AppService where
  config := loadV3AppConfig sampleProfile discoveryEnvelope
  db := db
  sessions := sessions
  order := [1]
  raw := raw
  sources := confirmedSources

/-- The first lot is confirmed, and nothing is pending. -/
def quietApp (discoveryEnvelope : Bool) : V3AppService :=
  sampleApp discoveryEnvelope (alphaDb (List.replicate 32 0x22) 1 27
    0x88056a1c9c814a7ceb1ab1e0b0de46f2f98da197d637e39772a9fbde65db28e6
    0x306378d946459e52c3122bcf7062f6405193a5c5c9aa292324d73211b0359b85) ∅ fun _ => none

/-- The deploy is confirmed, and the first mint is pending. -/
def busyApp : V3AppService :=
  sampleApp false (alphaDb (List.replicate 32 0x11) 0 0
    0x8f3463063f016f12cae511ca5f841e122c1c23fd9677bc740ae40e274ddd512c
    0x2113fd599a8152ebe06cfb31a866bf92134913d80a1b3c7a3212543befabaf01)
    (soleSession mainnetCrypto .backingBuy alphaId ⟨List.replicate 32 0x11, 1⟩ firstMint)
    (soleRaw mainnetCrypto firstMint)

theorem sources_passToo (sources : FundingSources) (db : Db) : sources.PassToo sources db :=
  fun _ h => h

theorem quietApp_ordered (discoveryEnvelope : Bool) :
    NodeOrdered mainnetCrypto (quietApp discoveryEnvelope).raw := by
  constructor
  · intro txid tx h
    cases h
  · refine ⟨fun _ => 0, ?_⟩
    intro txid tx h
    cases h

theorem quietApp_rows (discoveryEnvelope : Bool) :
    SessionsTrue (quietApp discoveryEnvelope).sessions (quietApp discoveryEnvelope).raw alphaId := by
  intro id r o txid tx hr
  cases hr

theorem soleRaw_self (C : Crypto) (tx : Transaction) : soleRaw C tx (tx.getId C) = some tx :=
  if_pos rfl

theorem soleRaw_ordered {C : Crypto} {tx : Transaction}
    (h : ∀ o ∈ tx.spends, o.txid ≠ tx.getId C) : NodeOrdered C (soleRaw C tx) := by
  refine ⟨soleRaw_consistent.ids, fun txid => if txid = tx.getId C then 1 else 0, ?_⟩
  intro txid tx' htx o ho
  obtain ⟨rfl, rfl⟩ := soleRaw_some htx
  dsimp only
  rw [if_pos rfl, if_neg (h o ho)]
  exact Nat.one_pos

theorem busyApp_ordered : NodeOrdered mainnetCrypto busyApp.raw :=
  soleRaw_ordered (by decide +kernel)

theorem busyApp_rows : SessionsTrue busyApp.sessions busyApp.raw alphaId :=
  have hspent : firstMint.ins[0]? = some { hash := List.replicate 32 0x11, index := 1 } := rfl
  soleSession_true hspent (by decide +kernel)

theorem busyApp_pending : busyApp.BackingPending mainnetCrypto alphaId := by
  have hsuccessor : (((loadConfirmedBacking busyApp.db alphaId).bind fun confirmed =>
      (pendingSuccessor mainnetCrypto confirmed firstMint).toOption.join).isSome) = true := by
    decide +kernel
  obtain ⟨next, hnext⟩ := Option.isSome_iff_exists.mp hsuccessor
  obtain ⟨confirmed, hconfirmed, hnext⟩ := Option.bind_eq_some_iff.mp hnext
  have hout : confirmed.outpoint = ⟨List.replicate 32 0x11, 1⟩ := by
    have hmap : (loadConfirmedBacking busyApp.db alphaId).map (fun c => c.outpoint) =
        some ⟨List.replicate 32 0x11, 1⟩ := by decide +kernel
    rw [hconfirmed] at hmap
    exact Option.some.inj hmap
  have hraw : busyApp.raw = soleRaw mainnetCrypto firstMint := rfl
  refine ⟨confirmed, firstMint.getId mainnetCrypto, firstMint, next, hconfirmed, ?_, ?_, ?_⟩
  · rw [hout]
    exact soleSession_found
  · rw [hraw, soleRaw_self]
  · exact toOption_eq_some.mp (Option.join_eq_some_iff.mp hnext)

/-- What the app makes of the second mint: on the pending first one, and on the confirmed one with
and without a discovery output. -/
theorem secondMint_validates : ((busyApp.validateBuy mainnetCrypto passingExecutor alphaId
      (secondMintPsbt (firstMint.getId mainnetCrypto) [])).toOption.isSome = true ∧
    ((quietApp true).validateBuy mainnetCrypto passingExecutor alphaId
      (secondMintPsbt (List.replicate 32 0x22) [mintDiscovery])).toOption.isSome = true) ∧
    ((quietApp false).validateBuy mainnetCrypto passingExecutor alphaId
      (secondMintPsbt (List.replicate 32 0x22) [])).toOption.isSome = true := by
  decide +kernel

/-- The second mint on the confirmed first one passes the service, too. -/
theorem remote_validates_sample : ∃ r,
    remoteValidate mainnetCrypto passingExecutor
      (buildGuardianService sampleProfile .mainnet (quietApp false).db (quietApp false).sources) .mint
      (secondMintPsbt (List.replicate 32 0x22) []) = .ok r := by
  obtain ⟨v, hv⟩ := Option.isSome_iff_exists.mp secondMint_validates.2
  refine ((remote_validates_iff rfl (sources_passToo _ _) (quietApp_ordered false)
    (quietApp_rows false)).1 _ v (toOption_eq_some.mp hv)).mpr ⟨?_, .inl rfl⟩
  intro hpending
  obtain ⟨_, _, _, _, -, -, hraw, -⟩ := hpending
  cases hraw

/-- The app validates a second mint on the pending first one, and a mint with a discovery output
on the confirmed one; the service refuses both. -/
theorem remote_refuses :
    ((∃ v, busyApp.validateBuy mainnetCrypto passingExecutor alphaId
        (secondMintPsbt (firstMint.getId mainnetCrypto) []) = .ok v) ∧
      ¬ ∃ r, remoteValidate mainnetCrypto passingExecutor
        (buildGuardianService sampleProfile .mainnet busyApp.db busyApp.sources) .mint
        (secondMintPsbt (firstMint.getId mainnetCrypto) []) = .ok r) ∧
    (∃ v, (quietApp true).validateBuy mainnetCrypto passingExecutor alphaId
        (secondMintPsbt (List.replicate 32 0x22) [mintDiscovery]) = .ok v) ∧
      ¬ ∃ r, remoteValidate mainnetCrypto passingExecutor
        (buildGuardianService sampleProfile .mainnet (quietApp true).db (quietApp true).sources) .mint
        (secondMintPsbt (List.replicate 32 0x22) [mintDiscovery]) = .ok r := by
  obtain ⟨hbusy, hquiet⟩ := secondMint_validates.1
  obtain ⟨v, hv⟩ := Option.isSome_iff_exists.mp hbusy
  obtain ⟨v', hv'⟩ := Option.isSome_iff_exists.mp hquiet
  rw [toOption_eq_some] at hv hv'
  refine ⟨⟨⟨v, hv⟩, ?_⟩, ⟨v', hv'⟩, ?_⟩
  · rw [remote_mint_iff rfl (sources_passToo _ _) busyApp_ordered busyApp_rows hv]
    intro h
    exact h.1 busyApp_pending
  · rw [remote_mint_iff rfl (sources_passToo _ _) (quietApp_ordered true) (quietApp_rows true) hv']
    have hcarries : CarriesDiscovery
        (secondMintPsbt (List.replicate 32 0x22) [mintDiscovery]).txOutputs := by
      decide +kernel
    intro h
    rcases h.2 with hoff | hnot
    · cases hoff
    · exact hnot hcarries

end Cove
