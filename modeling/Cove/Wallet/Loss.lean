import Cove.Wallet.Envelope

/-! What a PSBT the browser lets through can cost the wallet. -/

namespace Cove

open Checked

/-- Every input names its true prevout. -/
def Psbt.Truthful (psbt : Psbt) (prevout : OutPoint → Option TxOut) : Prop :=
  ∀ i ∈ psbt.inputs, ∃ o, prevout i.outpoint = some o ∧ i.witnessUtxo = some o

namespace ClientIntent

variable (intent : ClientIntent)

/-- The sats of the wallet's scripts that a transaction spends, less those it pays them. -/
def walletLoss (prevout : OutPoint → Option TxOut) (tx : Transaction) : Int :=
  (((tx.spends.filterMap prevout).filter fun o => intent.OwnOutput o).map
      fun o => (o.value : Int)).sum -
    ((tx.outs.filter fun o => intent.OwnOutput o).map fun o => (o.value : Int)).sum

/-- The allocations of the envelope that go to somebody else. -/
def leavingAllocations (psbt : Psbt) : List TokenAllocation :=
  match coveEnvelope psbt.txOutputs with
  | .ok (some e) => e.allocated.filter fun a => ¬ intent.OwnVout psbt a.vout
  | _ => []

/-- What the intent says the wallet loses at most; an amount that is not stated counts as 0. -/
def lossBound (psbt : Psbt) : Option Int :=
  let gross := intent.grossSats.getD 0
  let protocolFee := intent.protocolFeeSats.getD 0
  let net := intent.netSats.getD 0
  match intent.operation with
  | .backingBuy => some (gross + protocolFee + intent.creatorFee + intent.minerFeeSats)
  | .p2pBuy => some (gross + protocolFee + intent.minerFeeSats)
  | .redeem => some (intent.minerFeeSats - net)
  | .transfer =>
    some (intent.minerFeeSats + tokenCarrierSats * (intent.leavingAllocations psbt).length)
  | .p2pSell => some (tokenCarrierSats - net)
  | .other _ => none

def paidToOthers (psbt : Psbt) : Int := intent.othersOut psbt - intent.othersIn psbt

/-- Where an operation has no identity of its own, others are paid no more than the intent
explains; a creator fee is a fee. -/
def PaysOthersAtMost (psbt : Psbt) : Prop :=
  match intent.operation with
  | .backingBuy => 0 ≤ intent.creatorFee ∨ ∃ s ∈ intent.creatorScript, ¬ intent.IsMine s
  | .transfer =>
    intent.paidToOthers psbt ≤ tokenCarrierSats * (intent.leavingAllocations psbt).length
  | .p2pSell =>
    intent.paidToOthers psbt ≤ tokenCarrierSats - intent.netSats.getD 0 - intent.minerFeeSats
  | _ => True

end ClientIntent

/-- A sum over a list is the sum over the part with a property and the part without. -/
theorem sum_filter_add_sum_filter_not {α : Type} (p : α → Prop) [DecidablePred p] (f : α → Int)
    (l : List α) :
    ((l.filter fun a => p a).map f).sum + ((l.filter fun a => ¬ p a).map f).sum =
      (l.map f).sum := by
  induction l with
  | nil => rfl
  | cons a l ih =>
    by_cases h : p a
    · simp only [List.filter_cons, h, decide_true, not_true_eq_false, decide_false, if_true,
        Bool.false_eq_true, if_false, List.map_cons, List.sum_cons]
      omega
    · simp only [List.filter_cons, h, decide_false, not_false_eq_true, decide_true, if_true,
        Bool.false_eq_true, if_false, List.map_cons, List.sum_cons]
      omega

section

variable {C : Crypto} {psbt : Psbt} {intent : ClientIntent} {prevout : OutPoint → Option TxOut}

theorem totalIn_eq_walletIn_add (intent : ClientIntent) (psbt : Psbt) :
    psbt.totalIn = intent.walletIn psbt + intent.othersIn psbt :=
  (sum_filter_add_sum_filter_not intent.OwnInput PsbtInput.valueSats psbt.inputs).symm

theorem totalOut_eq_walletOut_add (intent : ClientIntent) (psbt : Psbt) :
    psbt.totalOut = intent.walletOut psbt + intent.othersOut psbt :=
  (sum_filter_add_sum_filter_not intent.OwnOutput (fun o => (o.value : Int)) psbt.txOutputs).symm

/-- What true prevouts say of the wallet's inputs is what the outpoints are worth. -/
theorem sum_own_prevouts (intent : ClientIntent) {inputs : List PsbtInput}
    (h : ∀ i ∈ inputs, ∃ o, prevout i.outpoint = some o ∧ i.witnessUtxo = some o) :
    ((((inputs.map PsbtInput.outpoint).filterMap prevout).filter fun o => intent.OwnOutput o).map
      fun o => (o.value : Int)).sum =
    ((inputs.filter fun i => intent.OwnInput i).map PsbtInput.valueSats).sum := by
  induction inputs with
  | nil => rfl
  | cons i inputs ih =>
    obtain ⟨o, ho, hi⟩ := h i List.mem_cons_self
    have hrest := ih fun j hj => h j (List.mem_cons_of_mem i hj)
    have hvalue : i.valueSats = (o.value : Int) := by
      rw [PsbtInput.valueSats, hi]
      rfl
    have hown : intent.OwnInput i ↔ intent.OwnOutput o := by
      rw [ClientIntent.OwnInput, hi]
      simp [ClientIntent.OwnOutput]
    rw [List.map_cons, List.filterMap_cons, ho]
    by_cases hmine : intent.OwnOutput o
    · rw [List.filter_cons_of_pos (by simpa using hmine),
        List.filter_cons_of_pos (by simpa using hown.mpr hmine), List.map_cons, List.map_cons,
        List.sum_cons, List.sum_cons, hrest, hvalue]
    · rw [List.filter_cons_of_neg (by simpa using hmine),
        List.filter_cons_of_neg (by simpa using fun hi => hmine (hown.mp hi)), hrest]

theorem Psbt.Truthful.walletIn (h : psbt.Truthful prevout) (intent : ClientIntent) :
    (((psbt.transaction.spends.filterMap prevout).filter fun o => intent.OwnOutput o).map
      fun o => (o.value : Int)).sum = intent.walletIn psbt := by
  have hspends : psbt.transaction.spends = psbt.inputs.map PsbtInput.outpoint := by
    rw [Transaction.spends, Psbt.transaction, List.map_map]
    rfl
  rw [hspends]
  exact sum_own_prevouts intent h

/-- The wallet loses the miner fee and what others are paid. -/
theorem walletLoss_eq (h : IntentVerified C psbt intent) (htrue : psbt.Truthful prevout) :
    intent.walletLoss prevout psbt.transaction = intent.minerFeeSats + intent.paidToOthers psbt := by
  have hin := totalIn_eq_walletIn_add intent psbt
  have hout := totalOut_eq_walletOut_add intent psbt
  have hfee := h.minerFee
  have hloss : intent.walletLoss prevout psbt.transaction =
      intent.walletIn psbt - intent.walletOut psbt := by
    rw [ClientIntent.walletLoss, htrue.walletIn]
    rfl
  rw [hloss, ClientIntent.paidToOthers]
  omega

/-- A buy's identity: the balance changes by what is shown. -/
theorem IntentVerified.backingBuy (h : IntentVerified C psbt intent)
    (hop : intent.operation = .backingBuy) :
    intent.walletDelta psbt = -(intent.grossSats.getD 0 + intent.protocolFeeSats.getD 0 +
      intent.creatorLeaves + intent.minerFeeSats) := by
  have hbalance := h.balance
  simp only [ClientIntent.verifyBalance, hop, ClientIntent.verifyBackingBuy, bind_eq_ok,
    demand_eq_ok, ensure_eq_ok] at hbalance
  obtain ⟨gross, hgross, protocolFee, hprotocol, _, -, hdelta⟩ := hbalance
  rw [hgross, hprotocol]
  exact hdelta

theorem IntentVerified.p2pBuy (h : IntentVerified C psbt intent)
    (hop : intent.operation = .p2pBuy) :
    intent.paidToOthers psbt ≤ intent.grossSats.getD 0 + intent.protocolFeeSats.getD 0 := by
  have hbalance := h.balance
  simp only [ClientIntent.verifyBalance, hop, ClientIntent.verifyP2pBuy, bind_eq_ok,
    demand_eq_ok, ensure_eq_ok] at hbalance
  obtain ⟨gross, hgross, protocolFee, hprotocol, _, hpaid, -⟩ := hbalance
  rw [hgross, hprotocol]
  exact hpaid

theorem IntentVerified.redeem (h : IntentVerified C psbt intent)
    (hop : intent.operation = .redeem) :
    intent.walletDelta psbt = intent.netSats.getD 0 - intent.minerFeeSats := by
  have hbalance := h.balance
  simp only [ClientIntent.verifyBalance, hop, ClientIntent.verifyRedeem, bind_eq_ok,
    demand_eq_ok, ensure_eq_ok] at hbalance
  obtain ⟨net, hnet, hdelta⟩ := hbalance
  rw [hnet]
  exact hdelta

/-- The creator's share that leaves is within the stated one unless that is negative and stays. -/
theorem creatorLeaves_le_iff (intent : ClientIntent) :
    intent.creatorLeaves ≤ intent.creatorFee ↔
      0 ≤ intent.creatorFee ∨ ∃ s ∈ intent.creatorScript, ¬ intent.IsMine s := by
  unfold ClientIntent.creatorLeaves
  split
  · rename_i hleaves
    exact ⟨fun _ => .inr hleaves, fun _ => le_refl _⟩
  · rename_i hstays
    constructor
    · exact .inl
    · intro h
      rcases h with hnonneg | hleaves
      · exact hnonneg
      · exact absurd hleaves hstays

end

/-- The two coins of the sample wallet. -/
def sentPrevout (o : OutPoint) : Option TxOut :=
  if o = ⟨List.replicate 32 1, 0⟩ then some ⟨sampleOwner, 1000⟩
  else if o = ⟨List.replicate 32 2, 0⟩ then some ⟨sampleOwner, 10000⟩
  else none

theorem sentPsbt_truthful (outs : List TxOut) : (sentPsbt outs).Truthful sentPrevout := by
  intro i hi
  simp only [sentPsbt, List.mem_cons, List.not_mem_nil, or_false] at hi
  rcases hi with rfl | rfl
  · exact ⟨_, rfl, rfl⟩
  · exact ⟨_, rfl, rfl⟩

/-- The transfer pays the stranger another 8000 sats. -/
def toppedPsbt : Psbt :=
  sentPsbt [sentEnvelope 1, ⟨sampleStranger, 1000⟩, ⟨sampleOwner, 1000⟩, ⟨sampleStranger, 8000⟩]

end Cove
