import Cove.Guardian.Builder
import Cove.Guardian.Digest
import Cove.Lib.Machine
import Cove.Market.Tasks

/-! The signing of one fill: `buildFillPsbt`, `submitBuyerSignedPsbt` and
`submitSellerSignedPsbt` of `packages/cove-market/src/service.ts`, with `unsignedTxDigest` of
`psbt.ts`. Each handler reads the row once and writes it once, later and unconditionally. What
signatures, readiness, fee rates and the source's lookup decide is whether a request goes on. -/

namespace Cove

open Checked

/-- The digest of the transaction the PSBT holds. -/
def Market.unsignedTxDigest (C : Crypto) (psbt : Psbt) : Bytes := C.sha256 psbt.transaction.toBuffer

/-- The columns of a fill and of its listing that never change, and the value of the coin the
listing offers. -/
structure FillTerms where
  listing : ListingV1
  sellerTokenPublicKey : Option Bytes
  sourceValueSats : Int
  buyerTokenScript : Bytes
  buyerChangeScript : Bytes
  buyerFundInputs : List BuyerFundInput
  buyerFundPublicKey : Option Bytes
  deriving DecidableEq, Repr

/-- What a build writes. -/
structure FillBuild where
  psbt : Psbt
  minerFeeSats : Int
  extraCarrierSats : Int
  marketFeeSats : Int
  deriving DecidableEq, Repr

namespace FillTerms

variable (terms : FillTerms)

def tokenInput : ResolvedInput where
  txid := terms.listing.sourceTxid
  vout := terms.listing.sourceVout
  script := terms.listing.sellerTokenScript
  valueSats := terms.sourceValueSats
  publicKey := terms.sellerTokenPublicKey

def funderInputs : List ResolvedInput := terms.buyerFundInputs.map fun f =>
  ⟨f.txid, f.vout, f.script, f.valueSats, terms.buyerFundPublicKey⟩

def inputs : List ResolvedInput := terms.tokenInput :: terms.funderInputs

def tokenOutputs : List TokenOutput :=
  let changeAtoms := terms.listing.sourceAmountAtoms - terms.listing.amountAtoms
  ⟨terms.buyerTokenScript, terms.listing.amountAtoms⟩ ::
    if 0 < changeAtoms then [⟨terms.listing.sellerTokenChangeScript, changeAtoms⟩] else []

/-- What the fill's own coins are worth. -/
def inputValue (o : OutPoint) : Int :=
  ((terms.inputs.find? fun r => r.outpoint = o).map ResolvedInput.valueSats).getD 0

/-- The miner fee of a fill's transaction: its coins less its outputs. -/
def minerFeeOf (tx : Transaction) : Int := (tx.spends.map terms.inputValue).sum - outputTotal tx.outs

end FillTerms

section

variable (C : Crypto) (scriptForKind : ScriptForKind) (cfg : MarketConfig) (terms : FillTerms)

/-- `buildFillPsbt` once the fee is resolved. -/
def buildFill (minerFeeSats : Int) : Except Fault FillBuild := do
  let extraCarrierSats := (terms.tokenOutputs.length : Int) * tokenCarrierSats -
    terms.sourceValueSats
  let marketFee ← marketFeeFor cfg terms.listing.totalPriceSats
  let result ← buildTransferPsbtV2 scriptForKind {
    tokenId := terms.listing.tokenId
    tokenInputs := [terms.tokenInput]
    tokenInputTotalAtoms := terms.listing.sourceAmountAtoms
    tokenOutputs := terms.tokenOutputs
    funderInputs := terms.funderInputs
    funderChangeScript := terms.buyerChangeScript
    btcOutputs := [⟨terms.listing.sellerPayoutScript, terms.listing.totalPriceSats⟩,
      ⟨cfg.feeScript, marketFee⟩]
    minerFeeSats }
  let requiredFunding := terms.listing.totalPriceSats + marketFee + extraCarrierSats + minerFeeSats
  let change := totalValue terms.funderInputs - requiredFunding
  ensure (0 ≤ change) (marketFault "BUYER_FUNDS_INSUFFICIENT" s!"short {-change} sats")
  return ⟨result.psbt, result.minerFeeSats, extraCarrierSats, marketFee⟩

/-- The columns of the row that the signing writes. -/
structure SigningRow where
  status : FillStatus
  psbt : Option Psbt := none
  unsignedTxDigest : Option Bytes := none
  minerFeeSats : Int := 0
  extraCarrierSats : Int := 0
  marketFeeSats : Int
  deriving DecidableEq, Repr

/-- The write a handler has still to make. -/
inductive SigningTask
  | done
  | built (b : FillBuild)
  /-- A signed PSBT, beside the stored digest it was compared with. -/
  | signed (compared : Option Bytes) (psbt : Psbt) (status : FillStatus)
  | settled (status : FillStatus)
  deriving DecidableEq, Repr

inductive SigningMove
  | buildFillPsbt (minerFeeSats : Int)
  | submitBuyerSignedPsbt (psbt : Psbt)
  | submitSellerSignedPsbt (psbt : Psbt)
  | broadcastP2PFill
  /-- Cancellation, expiry and what reconciliation makes of a broadcast fill. -/
  | settle (status : FillStatus)
  | write (i : Nat)
  | crash (i : Nat)
  deriving DecidableEq, Repr

structure SigningSystem where
  row : SigningRow
  tasks : List SigningTask
  deriving DecidableEq, Repr

/-- The statuses of a fill that went to the network. -/
def FillStatus.sent (s : FillStatus) : Prop := s = broadcast ∨ s = confirmed ∨ s = reorged

instance : DecidablePred FillStatus.sent := fun s =>
  inferInstanceAs (Decidable (s = .broadcast ∨ s = .confirmed ∨ s = .reorged))

/-- The digest a submission is compared with, when one is stored. -/
def compareDigest (row : SigningRow) (psbt : Psbt) : Except Fault Unit :=
  ensure (∀ d ∈ row.unsignedTxDigest, Market.unsignedTxDigest C psbt = d)
    (marketFault "PSBT_MUTATED" "unsigned tx digest mismatch")

/-- A handler from its read of the row to the write it is about to make. -/
def SigningMove.begin (row : SigningRow) : SigningMove → Except Fault SigningTask
  | .buildFillPsbt minerFeeSats => do
    ensure (row.status = .reserved ∨ row.status = .psbtBuilt)
      (stateChanged s!"fill is {row.status.text}")
    let b ← buildFill scriptForKind cfg terms minerFeeSats
    return .built b
  | .submitBuyerSignedPsbt psbt => do
    ensure (row.status = .psbtBuilt) (stateChanged s!"fill is {row.status.text}")
    compareDigest C row psbt
    return .signed row.unsignedTxDigest psbt .buyerSigned
  | .submitSellerSignedPsbt psbt => do
    ensure (row.status = .buyerSigned) (stateChanged s!"fill is {row.status.text}")
    compareDigest C row psbt
    return .signed row.unsignedTxDigest psbt .sellerSigned
  | .broadcastP2PFill => do
    ensure (row.status = .sellerSigned ∨ row.status = .broadcast)
      (stateChanged s!"fill is {row.status.text}")
    let _ ← demand row.psbt (stateChanged "fill has no PSBT")
    return .settled .broadcast
  | .settle status => do
    ensure (status = .cancelled ∨ status = .expired ∨ row.status.sent ∧ status.sent)
      (stateChanged s!"fill is {row.status.text}")
    return .settled status
  | .write _ => return .done
  | .crash _ => return .done

def SigningTask.write : SigningTask → SigningRow → SigningRow
  | .done, row => row
  | .built b, row => { row with
      status := .psbtBuilt
      psbt := some b.psbt
      unsignedTxDigest := some (Market.unsignedTxDigest C b.psbt)
      minerFeeSats := b.minerFeeSats
      extraCarrierSats := b.extraCarrierSats
      marketFeeSats := b.marketFeeSats }
  | .signed _ psbt status, row => { row with status, psbt := some psbt }
  | .settled status, row => { row with status }

/-- A refused request leaves no task. -/
def SigningSystem.step (s : SigningSystem) (m : SigningMove) : Option SigningSystem :=
  match m with
  | .write i =>
    match s.tasks[i]? with
    | none => none
    | some t => some ⟨t.write C s.row, s.tasks.set i .done⟩
  | .crash i => some { s with tasks := s.tasks.set i .done }
  | m =>
    match m.begin C scriptForKind cfg terms s.row with
    | .ok t => some { s with tasks := s.tasks ++ [t] }
    | .error _ => some s

/-- A fill as `reserveListing` inserts it. -/
def SigningSystem.reserved (marketFeeSats : Int) : SigningSystem :=
  ⟨{ status := .reserved, marketFeeSats }, []⟩

def FillStatus.signed (s : FillStatus) : Prop := s = buyerSigned ∨ s = sellerSigned ∨ s = broadcast

instance : DecidablePred FillStatus.signed := fun s =>
  inferInstanceAs (Decidable (s = .buyerSigned ∨ s = .sellerSigned ∨ s = .broadcast))

/-- The statuses a fill has only with a PSBT. -/
def FillStatus.holdsPsbt (s : FillStatus) : Prop := s = psbtBuilt ∨ s.signed ∨ s.sent

instance : DecidablePred FillStatus.holdsPsbt := fun s =>
  inferInstanceAs (Decidable (s = .psbtBuilt ∨ s.signed ∨ s.sent))

/-- The stored PSBT is the one of the stored digest and miner fee. -/
def SigningRow.Consistent (row : SigningRow) : Prop :=
  ∃ psbt, row.psbt = some psbt ∧ row.unsignedTxDigest = some (Market.unsignedTxDigest C psbt) ∧
    terms.minerFeeOf psbt.transaction = row.minerFeeSats

instance (row : SigningRow) : Decidable (row.Consistent C terms) :=
  inferInstanceAs (Decidable (∃ psbt ∈ row.psbt,
    row.unsignedTxDigest = some (Market.unsignedTxDigest C psbt) ∧
    terms.minerFeeOf psbt.transaction = row.minerFeeSats))

def SigningRow.Agrees (row : SigningRow) : Prop := row.status.signed → row.Consistent C terms

instance (row : SigningRow) : Decidable (row.Agrees C terms) :=
  inferInstanceAs (Decidable (_ → _))

/-- A signed PSBT is written while the stored digest is still the one it was compared with. -/
def SigningTask.UpToDate (row : SigningRow) : SigningTask → Prop
  | .signed compared _ _ => row.unsignedTxDigest = compared
  | _ => True

def SigningStepOk (s : SigningSystem) : SigningMove → Prop
  | .write i => ∀ t ∈ s.tasks[i]?, t.UpToDate s.row
  | _ => True

end

instance (row : SigningRow) (t : SigningTask) : Decidable (t.UpToDate row) :=
  match t with
  | .signed compared _ _ => inferInstanceAs (Decidable (row.unsignedTxDigest = compared))
  | .done => .isTrue trivial
  | .built _ => .isTrue trivial
  | .settled _ => .isTrue trivial

instance (s : SigningSystem) (m : SigningMove) : Decidable (SigningStepOk s m) :=
  match m with
  | .write i => inferInstanceAs (Decidable (∀ t ∈ s.tasks[i]?, t.UpToDate s.row))
  | .buildFillPsbt _ => .isTrue trivial
  | .submitBuyerSignedPsbt _ => .isTrue trivial
  | .submitSellerSignedPsbt _ => .isTrue trivial
  | .broadcastP2PFill => .isTrue trivial
  | .settle _ => .isTrue trivial
  | .crash _ => .isTrue trivial

/-! The fee a build settles on. -/

theorem FillTerms.inputValue_of_mem {terms : FillTerms} {r : ResolvedInput} (hr : r ∈ terms.inputs)
    (hnodup : (terms.inputs.map ResolvedInput.outpoint).Nodup) :
    terms.inputValue r.outpoint = r.valueSats := by
  have hsome : (terms.inputs.find? fun r' => r'.outpoint = r.outpoint).isSome = true := by
    rw [List.find?_isSome]
    exact ⟨r, hr, decide_eq_true rfl⟩
  obtain ⟨r', hr'⟩ := Option.isSome_iff_exists.mp hsome
  have hmem := List.mem_of_find?_eq_some hr'
  have houtpoint : r'.outpoint = r.outpoint := by simpa using List.find?_some hr'
  have heq : r' = r := List.inj_on_of_nodup_map hnodup hmem hr houtpoint
  rw [inputValue, hr', heq]
  rfl

theorem Psbt.transaction_spends (psbt : Psbt) :
    psbt.transaction.spends = psbt.inputs.map PsbtInput.outpoint := by
  rw [Transaction.spends, Psbt.transaction, List.map_map]
  rfl

theorem map_outpoint_of_forall₂ {rs : List ResolvedInput} {inputs : List PsbtInput}
    (h : List.Forall₂ InputFor rs inputs) :
    inputs.map PsbtInput.outpoint = rs.map ResolvedInput.outpoint := by
  induction h with
  | nil => rfl
  | cons hi _ ih => rw [List.map_cons, List.map_cons, ih, hi.outpoint]

theorem buildFill_ok {scriptForKind : ScriptForKind} {cfg : MarketConfig} {terms : FillTerms}
    {minerFeeSats : Int} {b : FillBuild} (h : buildFill scriptForKind cfg terms minerFeeSats = .ok b) :
    terms.minerFeeOf b.psbt.transaction = b.minerFeeSats := by
  simp only [buildFill, bind_eq_ok, ensure_eq_ok, pure_eq_ok] at h
  obtain ⟨marketFee, -, result, hresult, _, -, rfl⟩ := h
  have hbuilt := buildTransferPsbtV2_ok hresult
  have hinputs : List.Forall₂ InputFor terms.inputs result.psbt.inputs := hbuilt.inputs
  have hspends : result.psbt.transaction.spends = terms.inputs.map ResolvedInput.outpoint := by
    rw [Psbt.transaction_spends, map_outpoint_of_forall₂ hinputs]
  have hnodup : (terms.inputs.map ResolvedInput.outpoint).Nodup := by
    rw [← map_outpoint_of_forall₂ hinputs]
    exact hbuilt.nodup
  have hvalues : result.psbt.transaction.spends.map terms.inputValue =
      terms.inputs.map ResolvedInput.valueSats := by
    rw [hspends, List.map_map]
    apply List.map_congr_left
    intro r hr
    exact FillTerms.inputValue_of_mem hr hnodup
  have hfee : outputTotal result.psbt.txOutputs + result.minerFeeSats =
      (terms.inputs.map ResolvedInput.valueSats).sum := hbuilt.fee
  have houts : result.psbt.transaction.outs = result.psbt.txOutputs := rfl
  rw [FillTerms.minerFeeOf, hvalues, houts]
  dsimp only
  omega

/-! Runs. -/

/-- The digests of some transactions tell their serializations. -/
def DigestCollisionFree (C : Crypto) (txs : List Transaction) : Prop :=
  ∀ a ∈ txs, ∀ b ∈ txs, C.sha256 a.toBuffer = C.sha256 b.toBuffer → a.toBuffer = b.toBuffer

instance (C : Crypto) (txs : List Transaction) : Decidable (DigestCollisionFree C txs) :=
  inferInstanceAs (Decidable (∀ a ∈ txs, ∀ b ∈ txs, _ → _))

/-- The transactions of the PSBTs a request can bring in. -/
def SigningMove.transactions (scriptForKind : ScriptForKind) (cfg : MarketConfig)
    (terms : FillTerms) : SigningMove → List Transaction
  | .buildFillPsbt minerFeeSats =>
    match buildFill scriptForKind cfg terms minerFeeSats with
    | .ok b => [b.psbt.transaction]
    | .error _ => []
  | .submitBuyerSignedPsbt psbt => [psbt.transaction]
  | .submitSellerSignedPsbt psbt => [psbt.transaction]
  | _ => []

section

variable (C : Crypto) (terms : FillTerms) (txs : List Transaction)

/-- A stored PSBT has its own digest and fee beside it, and every status that wants one has one. -/
structure SigningRow.Ok (row : SigningRow) : Prop where
  stored : ∀ psbt, row.psbt = some psbt →
    row.unsignedTxDigest = some (Market.unsignedTxDigest C psbt) ∧
    terms.minerFeeOf psbt.transaction = row.minerFeeSats ∧ psbt.transaction ∈ txs
  digested : row.psbt = none → row.unsignedTxDigest = none
  reached : row.status.holdsPsbt → row.psbt ≠ none

def SigningTask.Ok (row : SigningRow) : SigningTask → Prop
  | .done => True
  | .built b => terms.minerFeeOf b.psbt.transaction = b.minerFeeSats ∧ b.psbt.transaction ∈ txs
  | .signed compared psbt status => compared = some (Market.unsignedTxDigest C psbt) ∧
    psbt.transaction ∈ txs ∧ (status = .buyerSigned ∨ status = .sellerSigned)
  | .settled status => (status.sent ∧ row.psbt ≠ none) ∨ status = .cancelled ∨ status = .expired

structure SigningSystem.Ok (s : SigningSystem) : Prop where
  row : s.row.Ok C terms txs
  tasks : ∀ t ∈ s.tasks, t.Ok C terms txs s.row

end

section

variable {C : Crypto} {scriptForKind : ScriptForKind} {cfg : MarketConfig} {terms : FillTerms}
  {txs : List Transaction} {row : SigningRow} {t : SigningTask}

/-- One digest, one transaction. -/
theorem transaction_eq_of_digest (hC : DigestCollisionFree C txs) (hsized : ∀ tx ∈ txs, tx.Sized)
    {p q : Psbt} (hp : p.transaction ∈ txs) (hq : q.transaction ∈ txs)
    (h : Market.unsignedTxDigest C p = Market.unsignedTxDigest C q) : p.transaction = q.transaction :=
  Transaction.toBuffer_injective (hsized _ hp) (hsized _ hq) p.transaction_witness
    q.transaction_witness (hC _ hp _ hq h)

theorem SigningTask.write_psbt (t : SigningTask) (h : row.psbt ≠ none) :
    (t.write C row).psbt ≠ none := by
  cases t with
  | done => exact h
  | built b => exact Option.some_ne_none _
  | signed compared psbt status => exact Option.some_ne_none _
  | settled status => exact h

theorem SigningTask.Ok.write {u : SigningTask} (h : u.Ok C terms txs row) (t : SigningTask) :
    u.Ok C terms txs (t.write C row) := by
  cases u with
  | settled status =>
    rcases h with ⟨hsent, hpsbt⟩ | hclosed
    · exact .inl ⟨hsent, t.write_psbt hpsbt⟩
    · exact .inr hclosed
  | _ => exact h

/-- A task's write keeps the row in order, a signed PSBT's while it is up to date. -/
theorem SigningRow.Ok.write (h : row.Ok C terms txs) (ht : t.Ok C terms txs row)
    (hnow : t.UpToDate row) (hC : DigestCollisionFree C txs) (hsized : ∀ tx ∈ txs, tx.Sized) :
    (t.write C row).Ok C terms txs := by
  cases t with
  | done => exact h
  | built b =>
    refine ⟨?_, fun hnone => absurd hnone (Option.some_ne_none _), fun _ => Option.some_ne_none _⟩
    intro psbt hpsbt
    obtain rfl := Option.some.inj hpsbt
    exact ⟨rfl, ht⟩
  | signed compared psbt status =>
    obtain ⟨rfl, hmem, -⟩ := ht
    refine ⟨?_, fun hnone => absurd hnone (Option.some_ne_none _), fun _ => Option.some_ne_none _⟩
    intro psbt' hpsbt'
    obtain rfl := Option.some.inj hpsbt'
    -- The stored digest is of the PSBT the row still has, so that one has this transaction.
    cases hold : row.psbt with
    | none =>
      have hdigest : row.unsignedTxDigest = some (Market.unsignedTxDigest C psbt) := hnow
      rw [h.digested hold] at hdigest
      cases hdigest
    | some q =>
      obtain ⟨hdigest, hfee, hq⟩ := h.stored q hold
      have hsame : Market.unsignedTxDigest C q = Market.unsignedTxDigest C psbt :=
        Option.some.inj (hdigest.symm.trans hnow)
      have htx := transaction_eq_of_digest hC hsized hq hmem hsame
      rw [htx] at hfee
      exact ⟨hnow, hfee, hmem⟩
  | settled status =>
    refine ⟨h.stored, h.digested, ?_⟩
    intro hreached
    rcases ht with ⟨-, hpsbt⟩ | rfl | rfl
    · exact hpsbt
    · exact absurd hreached (by decide : ¬ FillStatus.cancelled.holdsPsbt)
    · exact absurd hreached (by decide : ¬ FillStatus.expired.holdsPsbt)

theorem compareDigest_ok {psbt : Psbt} {d : Bytes} {u : Unit}
    (h : compareDigest C row psbt = .ok u) (hd : row.unsignedTxDigest = some d) :
    row.unsignedTxDigest = some (Market.unsignedTxDigest C psbt) := by
  rw [compareDigest, ensure_eq_ok] at h
  rw [hd, h d hd]

/-- A row with a PSBT to sign has a digest to compare with. -/
theorem SigningRow.Ok.digest (h : row.Ok C terms txs) (hstatus : row.status.holdsPsbt) :
    ∃ d, row.unsignedTxDigest = some d := by
  obtain ⟨psbt, hpsbt⟩ := Option.ne_none_iff_exists'.mp (h.reached hstatus)
  exact ⟨_, (h.stored psbt hpsbt).1⟩

theorem SigningMove.begin_ok {m : SigningMove} (h : row.Ok C terms txs)
    (hm : m.begin C scriptForKind cfg terms row = .ok t)
    (htxs : ∀ tx ∈ m.transactions scriptForKind cfg terms, tx ∈ txs) : t.Ok C terms txs row := by
  cases m with
  | buildFillPsbt minerFeeSats =>
    simp only [begin, bind_eq_ok, ensure_eq_ok, pure_eq_ok] at hm
    obtain ⟨_, -, b, hb, rfl⟩ := hm
    refine ⟨buildFill_ok hb, htxs _ ?_⟩
    rw [transactions, hb]
    exact List.mem_singleton_self _
  | submitBuyerSignedPsbt psbt =>
    simp only [begin, bind_eq_ok, ensure_eq_ok, pure_eq_ok] at hm
    obtain ⟨_, hstatus, _, hcompare, rfl⟩ := hm
    obtain ⟨d, hd⟩ := h.digest (.inl hstatus)
    exact ⟨compareDigest_ok hcompare hd, htxs _ (List.mem_singleton_self _), .inl rfl⟩
  | submitSellerSignedPsbt psbt =>
    simp only [begin, bind_eq_ok, ensure_eq_ok, pure_eq_ok] at hm
    obtain ⟨_, hstatus, _, hcompare, rfl⟩ := hm
    obtain ⟨d, hd⟩ := h.digest (.inr (.inl (.inl hstatus)))
    exact ⟨compareDigest_ok hcompare hd, htxs _ (List.mem_singleton_self _), .inr rfl⟩
  | broadcastP2PFill =>
    simp only [begin, bind_eq_ok, ensure_eq_ok, demand_eq_ok, pure_eq_ok] at hm
    obtain ⟨_, -, psbt, hpsbt, rfl⟩ := hm
    refine .inl ⟨by decide, ?_⟩
    rw [hpsbt]
    exact Option.some_ne_none psbt
  | settle status =>
    simp only [begin, bind_eq_ok, ensure_eq_ok, pure_eq_ok] at hm
    obtain ⟨_, hstatus, rfl⟩ := hm
    rcases hstatus with hcancelled | hexpired | ⟨hrow, hsent⟩
    · exact .inr (.inl hcancelled)
    · exact .inr (.inr hexpired)
    · exact .inl ⟨hsent, h.reached (.inr (.inr hrow))⟩
  | write i =>
    cases hm
    trivial
  | crash i =>
    cases hm
    trivial

/-- A move makes one task's write, ends a task, begins one, or does nothing. -/
theorem SigningSystem.step_cases {s s' : SigningSystem} {m : SigningMove}
    (h : s.step C scriptForKind cfg terms m = some s') :
    (∃ i t, m = .write i ∧ s.tasks[i]? = some t ∧ s' = ⟨t.write C s.row, s.tasks.set i .done⟩) ∨
    (∃ i, s' = { s with tasks := s.tasks.set i .done }) ∨
    (∃ t, m.begin C scriptForKind cfg terms s.row = .ok t ∧
      s' = { s with tasks := s.tasks ++ [t] }) ∨ s' = s := by
  unfold step at h
  split at h
  · rename_i i
    split at h
    · cases h
    · rename_i t ht
      exact .inl ⟨i, t, rfl, ht, (Option.some.inj h).symm⟩
  · exact .inr (.inl ⟨_, (Option.some.inj h).symm⟩)
  · split at h
    · rename_i t ht
      exact .inr (.inr (.inl ⟨t, ht, (Option.some.inj h).symm⟩))
    · exact .inr (.inr (.inr (Option.some.inj h).symm))

theorem SigningSystem.Ok.step {s s' : SigningSystem} {m : SigningMove} (h : s.Ok C terms txs)
    (hok : SigningStepOk s m) (htxs : ∀ tx ∈ m.transactions scriptForKind cfg terms, tx ∈ txs)
    (hC : DigestCollisionFree C txs) (hsized : ∀ tx ∈ txs, tx.Sized)
    (hstep : s.step C scriptForKind cfg terms m = some s') : s'.Ok C terms txs := by
  have hset (row : SigningRow) (i : Nat) (hall : ∀ t ∈ s.tasks, t.Ok C terms txs row) :
      ∀ t ∈ s.tasks.set i .done, t.Ok C terms txs row := by
    intro t ht
    rcases List.mem_or_eq_of_mem_set ht with hold | rfl
    · exact hall t hold
    · trivial
  rcases step_cases hstep with ⟨i, t, rfl, ht, rfl⟩ | ⟨i, rfl⟩ | ⟨t, ht, rfl⟩ | rfl
  · have hmem := List.mem_of_getElem? ht
    refine ⟨h.row.write (h.tasks t hmem) (hok t ht) hC hsized, hset _ i ?_⟩
    intro u hu
    exact (h.tasks u hu).write t
  · exact ⟨h.row, hset _ i h.tasks⟩
  · refine ⟨h.row, ?_⟩
    intro u hu
    rcases List.mem_append.mp hu with hold | hnew
    · exact h.tasks u hold
    · rw [List.mem_singleton.mp hnew]
      exact SigningMove.begin_ok h.row ht htxs
  · exact h

theorem SigningSystem.ok_reserved (marketFeeSats : Int) :
    (reserved marketFeeSats).Ok C terms txs := by
  refine ⟨⟨?_, fun _ => rfl, ?_⟩, ?_⟩
  · intro psbt hpsbt
    cases hpsbt
  · intro hreached
    exact absurd hreached (by decide : ¬ FillStatus.reserved.holdsPsbt)
  · intro t ht
    cases ht

theorem SigningRow.Ok.agrees (h : row.Ok C terms txs) : row.Agrees C terms := by
  intro hsigned
  obtain ⟨psbt, hpsbt⟩ := Option.ne_none_iff_exists'.mp (h.reached (.inr (.inl hsigned)))
  obtain ⟨hdigest, hfee, -⟩ := h.stored psbt hpsbt
  exact ⟨psbt, hpsbt, hdigest, hfee⟩

/-- A signed PSBT written over another digest shows at once. -/
theorem SigningSystem.Ok.stale {s : SigningSystem} {m : SigningMove} (h : s.Ok C terms txs)
    (hbad : ¬ SigningStepOk s m) :
    ∃ s', s.step C scriptForKind cfg terms m = some s' ∧ ¬ s'.row.Agrees C terms := by
  cases m with
  | write i =>
    obtain ⟨t, ht, hstale⟩ : ∃ t, s.tasks[i]? = some t ∧ ¬ t.UpToDate s.row := by
      by_contra hnone
      exact hbad fun t ht => by_contra fun hstale => hnone ⟨t, ht, hstale⟩
    have hstep : s.step C scriptForKind cfg terms (.write i) =
        some ⟨t.write C s.row, s.tasks.set i .done⟩ := by
      simp only [SigningSystem.step, ht]
    refine ⟨_, hstep, ?_⟩
    have htask := h.tasks t (List.mem_of_getElem? ht)
    cases t with
    | signed compared psbt status =>
      obtain ⟨hcompared, -, hstatus⟩ := htask
      intro hagrees
      have hsigned : status.signed := hstatus.elim .inl fun hs => .inr (.inl hs)
      obtain ⟨q, hq, hdigest, -⟩ := hagrees hsigned
      obtain rfl := Option.some.inj hq
      apply hstale
      rw [SigningTask.UpToDate, hcompared]
      exact hdigest
    | _ => exact absurd trivial hstale
  | _ => exact absurd trivial hbad

/-- In every state of a run the stored PSBT of a signed fill is the one of the stored digest and
fee, exactly when no signed PSBT is written after the digest it was compared with was replaced. -/
theorem stored_psbt_agrees_iff {as : List SigningMove} (marketFeeSats : Int)
    (hsized : ∀ tx ∈ as.flatMap (SigningMove.transactions scriptForKind cfg terms), tx.Sized)
    (hC : DigestCollisionFree C (as.flatMap (SigningMove.transactions scriptForKind cfg terms))) :
    (∀ bs s, bs <+: as → Machine.run (SigningSystem.step C scriptForKind cfg terms)
      (SigningSystem.reserved marketFeeSats) bs = some s → s.row.Agrees C terms) ↔
    Machine.Guarded (SigningSystem.step C scriptForKind cfg terms) SigningStepOk
      (SigningSystem.reserved marketFeeSats) as := by
  let txs := as.flatMap (SigningMove.transactions scriptForKind cfg terms)
  let brings (m : SigningMove) : Prop := ∀ tx ∈ m.transactions scriptForKind cfg terms, tx ∈ txs
  have hbrings : ∀ m ∈ as, brings m := by
    intro m hm tx htx
    exact List.mem_flatMap.mpr ⟨m, hm, htx⟩
  have hstep : ∀ (s : SigningSystem) m s', s.Ok C terms txs → SigningStepOk s m ∧ brings m →
      s.step C scriptForKind cfg terms m = some s' → s'.Ok C terms txs := by
    intro s m s' hs hm hrun
    exact hs.step hm.1 hm.2 hC hsized hrun
  constructor
  · intro hagrees
    exact Machine.guarded_of_prefixes hstep (fun s m hs hbad => hs.stale hbad)
      (SigningSystem.ok_reserved marketFeeSats) hbrings hagrees
  · intro hguarded bs s hbs hrun
    have hboth := (hguarded.and (Machine.guarded_of_forall hbrings)).take_front hbs
    exact (Machine.run_invariant hstep (SigningSystem.ok_reserved marketFeeSats) hboth hrun).row.agrees

end

/-! The sample listing's fill. -/

def signedTerms : FillTerms where
  listing := sampleListing
  sellerTokenPublicKey := none
  sourceValueSats := 1000
  buyerTokenScript := sampleBuyer
  buyerChangeScript := sampleOwner
  buyerFundInputs := [buyerCoin]
  buyerFundPublicKey := none

/-- No sample coin needs a key to be spent. -/
def keylessScripts : ScriptForKind := fun _ _ => .error ⟨none, "no key"⟩

/-- The PSBT of the sample fill at a fee. -/
def signedPsbt (minerFeeSats : Int) : Psbt :=
  ((buildFill keylessScripts sampleMarket signedTerms minerFeeSats).toOption.map
    FillBuild.psbt).getD ⟨2, [], [], 0⟩

def signingRun : List SigningMove :=
  [.buildFillPsbt 2000, .write 0, .submitBuyerSignedPsbt (signedPsbt 2000), .write 1,
    .submitSellerSignedPsbt (signedPsbt 2000), .write 2, .broadcastP2PFill, .write 3]

/-- The buyer asks for a second PSBT while the first one's signature is being stored. -/
def rebuiltRun : List SigningMove :=
  [.buildFillPsbt 2000, .write 0, .submitBuyerSignedPsbt (signedPsbt 2000), .buildFillPsbt 3000,
    .write 2, .write 1]

theorem stored_psbt_agrees_sample : ∃ s,
    Machine.run (SigningSystem.step sampleCrypto keylessScripts sampleMarket signedTerms)
      (SigningSystem.reserved 1000) signingRun = some s ∧ s.row.Agrees sampleCrypto signedTerms := by
  have hrun : (Machine.run (SigningSystem.step sampleCrypto keylessScripts sampleMarket signedTerms)
      (SigningSystem.reserved 1000) signingRun).isSome = true := by decide +kernel
  obtain ⟨s, hs⟩ := Option.isSome_iff_exists.mp hrun
  have hagrees : ∀ bs s, bs <+: signingRun →
      Machine.run (SigningSystem.step sampleCrypto keylessScripts sampleMarket signedTerms)
        (SigningSystem.reserved 1000) bs = some s → s.row.Agrees sampleCrypto signedTerms :=
    (stored_psbt_agrees_iff 1000 (by decide +kernel) (by decide +kernel)).mpr (by decide +kernel)
  exact ⟨s, hs, hagrees signingRun s (List.prefix_refl _) hs⟩

/-- The first PSBT ends up signed beside the second one's digest and fee. -/
theorem rebuilt_fill_disagrees : ∃ s ∈ Machine.run
      (SigningSystem.step sampleCrypto keylessScripts sampleMarket signedTerms)
      (SigningSystem.reserved 1000) rebuiltRun,
    s.row.status = .buyerSigned ∧ s.row.psbt = some (signedPsbt 2000) ∧
    s.row.unsignedTxDigest ≠ some (Market.unsignedTxDigest sampleCrypto (signedPsbt 2000)) ∧
    signedTerms.minerFeeOf (signedPsbt 2000).transaction ≠ s.row.minerFeeSats ∧
    ¬ s.row.Agrees sampleCrypto signedTerms := by
  decide +kernel

end Cove
