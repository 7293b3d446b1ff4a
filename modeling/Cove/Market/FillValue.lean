import Cove.Market.Finalize
import Mathlib.Algebra.BigOperators.Ring.Finset
import Mathlib.Algebra.Order.BigOperators.Group.Finset

/-! The miner fee a validated fill really pays: the fee to the satoshi is taken over the prevouts
the terms list, the fee over the transaction's inputs is only bounded. -/

namespace Cove

open Checked

namespace P2PFillTerms

/-- The outpoints the terms list: the source and the buyer's coins. -/
def listed (terms : P2PFillTerms) : Finset OutPoint :=
  insert terms.source (terms.buyerFundInputs.map BuyerFundInput.outpoint).toFinset

theorem mem_listed {terms : P2PFillTerms} {o : OutPoint} :
    o ∈ terms.listed ↔ o = terms.source ∨ ∃ f ∈ terms.buyerFundInputs, f.outpoint = o := by
  simp [listed]

theorem prevouts_has (terms : P2PFillTerms) (o : OutPoint) :
    terms.prevouts.has o = true ↔ o ∈ terms.listed := by
  rw [prevouts, Dict.has_setAll, mem_listed, or_comm]
  simp [Dict.has, Dict.get_set]

/-- The values the terms give to the outpoints they list are the ones these hold. -/
structure Truthful (terms : P2PFillTerms) (value : OutPoint → Nat) : Prop where
  source : (value terms.source : Int) = tokenCarrierSats
  funds : ∀ f ∈ terms.buyerFundInputs, (value f.outpoint : Int) = f.valueSats

theorem Truthful.prevouts {terms : P2PFillTerms} {value : OutPoint → Nat}
    (h : terms.Truthful value) {o : OutPoint} {p : ResolvedPrevout}
    (hp : terms.prevouts.get o = some p) : p.valueSats = value o := by
  rcases Dict.get_setAll_cases _ _ _ _ hp with hfund | hsource
  · obtain ⟨f, hf, he⟩ := List.mem_map.mp hfund
    obtain ⟨ho, hpf⟩ := Prod.mk.inj he
    rw [← ho, ← hpf, h.funds f hf]
  · rw [Dict.get_set] at hsource
    by_cases ho : o = terms.source
    · rw [if_pos ho] at hsource
      rw [← Option.some.inj hsource, ho, h.source]
    · simp [ho] at hsource

/-- What the market sums up is the worth of everything listed. -/
theorem Truthful.total {terms : P2PFillTerms} {value : OutPoint → Nat}
    (h : terms.Truthful value) :
    terms.prevouts.total (fun _ p => p.valueSats) = ∑ o ∈ terms.listed, (value o : Int) :=
  Dict.total_eq_sum (fun o => (terms.prevouts_has o).symm) fun _ _ hp => h.prevouts hp

/-- What the transfer validator sums up is the worth of the inputs, all of them listed. -/
theorem Truthful.resolvedTotal {terms : P2PFillTerms} {value : OutPoint → Nat}
    (h : terms.Truthful value) {ins : List TxIn} {totalIn : Int}
    (hr : resolvedTotal terms.prevouts ins = .ok totalIn) :
    (∀ i ∈ ins, i.outpoint ∈ terms.listed) ∧
      totalIn = (ins.map fun i => (value i.outpoint : Int)).sum := by
  induction ins generalizing totalIn with
  | nil =>
    cases hr
    simp
  | cons i ins ih =>
    simp only [Cove.resolvedTotal, bind_eq_ok, demand_eq_ok, pure_eq_ok] at hr
    obtain ⟨p, hp, rest, hrest, htotal⟩ := hr
    obtain ⟨hins, hsum⟩ := ih hrest
    constructor
    · intro j hj
      rcases List.mem_cons.mp hj with hj | hj
      · rw [hj, ← prevouts_has]
        exact Dict.has_iff.mpr ⟨p, hp⟩
      · exact hins j hj
    · rw [List.map_cons, List.sum_cons, ← htotal, h.prevouts hp, hsum]

end P2PFillTerms

/-- The inputs beyond the first of each outpoint; no transaction that can be mined has any. -/
def Transaction.repeatedSpends (tx : Transaction) : Multiset OutPoint :=
  (tx.spends : Multiset OutPoint) - (tx.spends : Multiset OutPoint).dedup

theorem Transaction.repeatedSpends_eq_zero {tx : Transaction} (h : tx.spends.Nodup) :
    tx.repeatedSpends = 0 := by
  rw [repeatedSpends, Multiset.dedup_eq_self.mpr (Multiset.coe_nodup.mpr h), tsub_self]

/-- The worth of the inputs, counted outpoint by outpoint. -/
theorem Transaction.sum_spends (tx : Transaction) (value : OutPoint → Nat) :
    (tx.spends.map value).sum =
      ∑ o ∈ tx.spends.toFinset, value o + (tx.repeatedSpends.map value).sum := by
  have hsplit : (tx.spends : Multiset OutPoint).dedup + tx.repeatedSpends =
      (tx.spends : Multiset OutPoint) := by
    rw [repeatedSpends, add_tsub_cancel_of_le (Multiset.dedup_le _)]
  have hsum := congrArg (fun s => (Multiset.map value s).sum) hsplit
  simp only [Multiset.map_add, Multiset.sum_add, Multiset.map_coe, Multiset.sum_coe] at hsum
  rw [← hsum]
  rfl

/-- An accepted fill spends listed outpoints only. Its real fee is the one agreed on exactly when
the listed outpoints it leaves unspent are worth what its repeated inputs are: for distinct
inputs, when nothing of worth is left unspent. -/
theorem fill_fee_exact_iff {C : Crypto} {tx : Transaction} {terms : P2PFillTerms}
    {view : CoveCanonicalView} {r : ValidatedP2PFill} {value : OutPoint → Nat}
    (h : validateFinalizedP2PFill C tx terms view = .ok r) (htrue : terms.Truthful value) :
    (∀ o ∈ tx.spends, o = terms.source ∨ ∃ f ∈ terms.buyerFundInputs, f.outpoint = o) ∧
    (((tx.spends.map value).sum : Int) - tx.totalOut = terms.minerFeeSats ↔
      ∑ o ∈ terms.listed \ tx.spends.toFinset, value o = (tx.repeatedSpends.map value).sum) ∧
    (tx.spends.Nodup →
      (((tx.spends.map value).sum : Int) - tx.totalOut = terms.minerFeeSats ↔
        ∀ o ∈ terms.listed, o ∉ tx.spends → value o = 0)) := by
  obtain ⟨tokenId, hv, -⟩ := validateFinalizedP2PFill_eq_ok.mp h
  have hfee := hv.minerFee
  simp only [checkMinerFee, bind_eq_ok, ensure_eq_ok] at hfee
  obtain ⟨totalIn, htotal, -⟩ := hfee
  obtain ⟨hlisted, -⟩ := htrue.resolvedTotal htotal
  have hspends : ∀ o ∈ tx.spends, o ∈ terms.listed := by
    intro o ho
    obtain ⟨i, hi, hio⟩ := List.mem_map.mp ho
    rw [← hio]
    exact hlisted i hi
  have hexact := hv.values
  simp only [checkFillValues, bind_eq_ok, ensure_eq_ok, htrue.total] at hexact
  obtain ⟨_, -, _, -, hexact⟩ := hexact
  have hsub : tx.spends.toFinset ⊆ terms.listed := by
    intro o ho
    exact hspends o (List.mem_toFinset.mp ho)
  have hsplit := Finset.sum_sdiff (f := value) hsub
  have hsum := tx.sum_spends value
  have hiff : ((tx.spends.map value).sum : Int) - tx.totalOut = terms.minerFeeSats ↔
      ∑ o ∈ terms.listed \ tx.spends.toFinset, value o = (tx.repeatedSpends.map value).sum := by
    rw [← Nat.cast_sum] at hexact
    omega
  refine ⟨fun o ho => P2PFillTerms.mem_listed.mp (hspends o ho), hiff, ?_⟩
  intro hnodup
  rw [hiff, Transaction.repeatedSpends_eq_zero hnodup, Multiset.map_zero, Multiset.sum_zero,
    Finset.sum_eq_zero_iff]
  constructor
  · intro hzero o ho hunspent
    apply hzero o
    simpa [ho] using hunspent
  · intro hzero o ho
    rw [Finset.mem_sdiff, List.mem_toFinset] at ho
    exact hzero o ho.1 ho.2

/-! A fill whose terms list a coin that the transaction leaves unspent. -/

/-- The listing's source, with a lot of ALPHA on it. -/
def sourceView : CoveCanonicalView where
  getCurrentBackingState _ := none
  getBackingOutpoint _ := none
  getTokenUtxo o :=
    if o = alphaCarrier then some ⟨alphaCarrier, alphaId, 100000000000, sampleOwner⟩ else none
  getTokenCreatorScript _ := none

def spareCoin : BuyerFundInput := ⟨List.replicate 32 6, 0, sampleOwner, 1500⟩

/-- The coins are first outputs, the carrier is a later one. -/
def coinValues (o : OutPoint) : Nat :=
  if o.vout = 2 then 1000 else if o.txid = buyerCoin.txid then 100000 else 1500

theorem spareCoin_accepted :
    (validateFinalizedP2PFill sampleCrypto (fillTransaction [buyerCoin]) (fillTerms [buyerCoin])
      sourceView).toOption.isSome = true ∧
    (validateFinalizedP2PFill sampleCrypto (fillTransaction [buyerCoin])
      (fillTerms [buyerCoin, spareCoin]) sourceView).toOption.isSome = true := by
  decide +kernel

theorem coinValues_truthful :
    (fillTerms [buyerCoin]).Truthful coinValues ∧
      (fillTerms [buyerCoin, spareCoin]).Truthful coinValues := by
  have hsource (funds : List BuyerFundInput) :
      (coinValues (fillTerms funds).source : Int) = tokenCarrierSats := by
    rw [fillTerms_source]
    decide +kernel
  have hfunds : ∀ f ∈ [buyerCoin, spareCoin], (coinValues f.outpoint : Int) = f.valueSats := by
    decide +kernel
  constructor
  · exact ⟨hsource _, fun f hf => hfunds f (List.mem_append_left [spareCoin] hf)⟩
  · exact ⟨hsource _, hfunds⟩

theorem sourceView_accepts (funds : List BuyerFundInput)
    (h : funds = [buyerCoin] ∨ funds = [buyerCoin, spareCoin]) :
    ∃ r, validateFinalizedP2PFill sampleCrypto (fillTransaction [buyerCoin]) (fillTerms funds)
      sourceView = .ok r := by
  have hboth := spareCoin_accepted
  rcases h with h | h
  · rw [h]
    obtain ⟨r, hr⟩ := Option.isSome_iff_exists.mp hboth.1
    exact ⟨r, toOption_eq_some.mp hr⟩
  · rw [h]
    obtain ⟨r, hr⟩ := Option.isSome_iff_exists.mp hboth.2
    exact ⟨r, toOption_eq_some.mp hr⟩

/-- The terms list 1500 satoshis more than the transaction spends: the fill is accepted with a
miner fee of 2000 where 3500 were agreed on. -/
theorem spare_coin_overstates_fee :
    (∃ r, validateFinalizedP2PFill sampleCrypto (fillTransaction [buyerCoin])
      (fillTerms [buyerCoin, spareCoin]) sourceView = .ok r) ∧
    (fillTerms [buyerCoin, spareCoin]).Truthful coinValues ∧
    (((fillTransaction [buyerCoin]).spends.map coinValues).sum : Int) -
      (fillTransaction [buyerCoin]).totalOut = 2000 ∧
    (fillTerms [buyerCoin, spareCoin]).minerFeeSats = 3500 := by
  refine ⟨sourceView_accepts _ (Or.inr rfl), coinValues_truthful.2, ?_, by decide +kernel⟩
  rw [fillTransaction_spends]
  decide +kernel

/-- With the buyer's one coin listed and spent, the fee is the one agreed on. -/
theorem fill_fee_exact_one_coin :
    (((fillTransaction [buyerCoin]).spends.map coinValues).sum : Int) -
      (fillTransaction [buyerCoin]).totalOut = (fillTerms [buyerCoin]).minerFeeSats := by
  obtain ⟨r, hr⟩ := sourceView_accepts [buyerCoin] (Or.inl rfl)
  have hspends : (fillTransaction [buyerCoin]).spends = [alphaCarrier, buyerCoin.outpoint] :=
    fillTransaction_spends [buyerCoin]
  have hapart : alphaCarrier ≠ buyerCoin.outpoint := by
    intro h
    exact absurd (congrArg OutPoint.vout h) (by decide)
  have hnodup : (fillTransaction [buyerCoin]).spends.Nodup := by
    rw [hspends]
    simpa using hapart
  apply ((fill_fee_exact_iff hr coinValues_truthful.1).2.2 hnodup).mpr
  intro o ho hunspent
  exfalso
  apply hunspent
  rw [hspends]
  rw [P2PFillTerms.mem_listed, fillTerms_source] at ho
  rcases ho with ho | ⟨f, hf, ho⟩
  · simp [ho]
  · have hf : f = buyerCoin := List.mem_singleton.mp hf
    simp [← ho, hf]

end Cove
