import Cove.App.Funding
import Cove.Lib.Greedy

/-! What the choice of coins in `resolveFundingAndFee` finds, and when it gives up. -/

namespace Cove

open Checked Greedy

/-- The `pick` loop, told from one that ran out of turns. -/
def pickWithin (priceAt : Nat → Except Fault ResolvedMinerFee)
    (assetsAt : OutPoint → Except Fault (Option String)) (targetSats : Int)
    (shortfall : List ResolvedFunding → List String → Except Fault Fault) :
    Nat → List ResolvedFunding → List String →
      Option (Except Fault (List ResolvedFunding × ResolvedMinerFee))
  | 0, _, _ => none
  | turns + 1, sorted, skipped =>
    match coveringCoins priceAt targetSats [] sorted with
    | .error e => some (.error e)
    | .ok none => some (do
      let e ← shortfall sorted skipped
      throw e)
    | .ok (some (chosen, priced)) =>
      match firstHeld assetsAt chosen with
      | .error e => some (.error e)
      | .ok none => some (.ok (chosen, priced))
      | .ok (some (f, held)) =>
        pickWithin priceAt assetsAt targetSats shortfall turns (sorted.erase f)
          (skipped ++ [f.outpoint.text ++ " (" ++ held ++ ")"])

/-- The lookup finds nothing at the outpoint. -/
def AssetFree (assetsAt : OutPoint → Except Fault (Option String)) (o : OutPoint) : Prop :=
  ∃ held, assetsAt o = .ok held ∧ held.filter (· ≠ "") = none

section

variable {priceAt : Nat → Except Fault ResolvedMinerFee}
  {assetsAt : OutPoint → Except Fault (Option String)} {targetSats : Int}
  {shortfall : List ResolvedFunding → List String → Except Fault Fault}

/-- A front that is found covers the target and the fee for its size. -/
theorem coveringCoins_some {chosen rest c : List ResolvedFunding} {p : ResolvedMinerFee}
    (h : coveringCoins priceAt targetSats chosen rest = .ok (some (c, p))) :
    priceAt c.length = .ok p ∧ targetSats + p.minerFeeSats ≤ total ResolvedFunding.valueSats c ∧
      ∃ front, front.Sublist rest ∧ c = chosen ++ front := by
  induction rest generalizing chosen with
  | nil => cases h
  | cons utxo rest ih =>
    simp only [coveringCoins, bind_eq_ok] at h
    obtain ⟨priced, hpriced, h⟩ := h
    split at h
    · rename_i hcovers
      obtain ⟨rfl, rfl⟩ := Prod.mk.inj (Option.some.inj (Except.ok.inj h))
      exact ⟨hpriced, hcovers, [utxo], List.singleton_sublist.mpr List.mem_cons_self, rfl⟩
    · obtain ⟨hprice, hcovers, front, hfront, rfl⟩ := ih h
      refine ⟨hprice, hcovers, utxo :: front, hfront.cons_cons utxo, ?_⟩
      rw [List.append_assoc, List.singleton_append]

/-- Where no front is found every one falls short of its own price. -/
theorem coveringCoins_none {chosen rest : List ResolvedFunding}
    (h : coveringCoins priceAt targetSats chosen rest = .ok none) {k : Nat} (hpos : 0 < k)
    (hk : k ≤ rest.length) : ∃ p, priceAt (chosen.length + k) = .ok p ∧
      total ResolvedFunding.valueSats (chosen ++ rest.take k) < targetSats + p.minerFeeSats := by
  induction rest generalizing chosen k with
  | nil =>
    rw [List.length_nil] at hk
    omega
  | cons utxo rest ih =>
    simp only [coveringCoins, bind_eq_ok] at h
    obtain ⟨priced, hpriced, h⟩ := h
    split at h
    · cases h
    · rename_i hshort
      rw [List.length_append, List.length_singleton] at hpriced
      cases k with
      | zero => omega
      | succ k =>
        by_cases hzero : k = 0
        · subst hzero
          exact ⟨priced, hpriced, not_le.mp hshort⟩
        · obtain ⟨p, hp, hless⟩ := ih h (Nat.pos_of_ne_zero hzero) (Nat.le_of_succ_le_succ hk)
          rw [List.length_append, List.length_singleton] at hp
          rw [List.append_assoc, List.singleton_append] at hless
          refine ⟨p, ?_, hless⟩
          rw [← hp]
          congr 1
          omega

theorem firstHeld_none {chosen : List ResolvedFunding} (h : firstHeld assetsAt chosen = .ok none) :
    ∀ f ∈ chosen, AssetFree assetsAt f.outpoint := by
  induction chosen with
  | nil => simp
  | cons f rest ih =>
    simp only [firstHeld, bind_eq_ok] at h
    obtain ⟨held, hheld, h⟩ := h
    split at h
    · cases h
    · rename_i hfree
      intro g hg
      rcases List.mem_cons.mp hg with rfl | hg
      · exact ⟨held, hheld, hfree⟩
      · exact ih h g hg

/-- The coin that is skipped is among the chosen ones, and not free. -/
theorem firstHeld_some {chosen : List ResolvedFunding} {f : ResolvedFunding} {name : String}
    (h : firstHeld assetsAt chosen = .ok (some (f, name))) :
    f ∈ chosen ∧ ¬ AssetFree assetsAt f.outpoint := by
  induction chosen with
  | nil => cases h
  | cons g rest ih =>
    simp only [firstHeld, bind_eq_ok] at h
    obtain ⟨held, hheld, h⟩ := h
    split at h
    · rename_i heq
      obtain ⟨rfl, rfl⟩ := Prod.mk.inj (Option.some.inj (Except.ok.inj h))
      refine ⟨List.mem_cons_self, ?_⟩
      intro hfree
      obtain ⟨held', hheld', hnone⟩ := hfree
      rw [hheld] at hheld'
      rw [← Except.ok.inj hheld', heq] at hnone
      cases hnone
    · obtain ⟨hmem, hheld'⟩ := ih h
      exact ⟨List.mem_cons_of_mem _ hmem, hheld'⟩

/-- Enough turns end the loop, and it ends as the app's own selection does. -/
theorem pickWithin_total {turns more : Nat} {sorted : List ResolvedFunding} {skipped : List String}
    (hturns : sorted.length < turns) (hmore : sorted.length < more) :
    pickWithin priceAt assetsAt targetSats shortfall turns sorted skipped =
      some (pickCoins priceAt assetsAt targetSats shortfall more sorted skipped) := by
  induction turns generalizing more sorted skipped with
  | zero => omega
  | succ turns ih =>
    cases more with
    | zero => omega
    | succ more =>
      simp only [pickWithin, pickCoins]
      cases hcover : coveringCoins priceAt targetSats [] sorted with
      | error e => rfl
      | ok found =>
        cases found with
        | none => rfl
        | some picked =>
          obtain ⟨chosen, priced⟩ := picked
          simp only [bind, Except.bind]
          cases hheld : firstHeld assetsAt chosen with
          | error e => rfl
          | ok held =>
            cases held with
            | none => rfl
            | some entry =>
              obtain ⟨f, name⟩ := entry
              obtain ⟨-, -, front, hfront, hchosen⟩ := coveringCoins_some hcover
              have hmem : f ∈ sorted := by
                apply hfront.subset
                rw [← List.nil_append front, ← hchosen]
                exact (firstHeld_some hheld).1
              have hshorter := List.length_erase_of_mem hmem
              have hpos := List.length_pos_of_mem hmem
              have hturns' : (sorted.erase f).length < turns := by omega
              have hmore' : (sorted.erase f).length < more := by omega
              exact ih hturns' hmore'

/-- What is picked is there, free, and enough. -/
theorem pickCoins_ok {turns : Nat} {sorted : List ResolvedFunding} {skipped : List String}
    {chosen : List ResolvedFunding} {p : ResolvedMinerFee}
    (h : pickCoins priceAt assetsAt targetSats shortfall turns sorted skipped = .ok (chosen, p)) :
    chosen.Sublist sorted ∧ (∀ f ∈ chosen, AssetFree assetsAt f.outpoint) ∧
      priceAt chosen.length = .ok p ∧
        targetSats + p.minerFeeSats ≤ total ResolvedFunding.valueSats chosen := by
  induction turns generalizing sorted skipped with
  | zero => simp [pickCoins] at h
  | succ turns ih =>
    simp only [pickCoins, bind_eq_ok] at h
    obtain ⟨found, hcover, h⟩ := h
    cases found with
    | none => simp at h
    | some picked =>
      obtain ⟨c, priced⟩ := picked
      simp only [bind_eq_ok] at h
      obtain ⟨held, hheld, h⟩ := h
      cases held with
      | none =>
        obtain ⟨rfl, rfl⟩ := Prod.mk.inj (Except.ok.inj h)
        obtain ⟨hprice, hcovers, front, hfront, rfl⟩ := coveringCoins_some hcover
        exact ⟨hfront, firstHeld_none hheld, hprice, hcovers⟩
      | some entry =>
        obtain ⟨hsub, hrest⟩ := ih h
        exact ⟨hsub.trans List.erase_sublist, hrest⟩

/-- The error that says the coins are too few. -/
def IsShortfall (e : Fault) : Prop := e.code = some "INSUFFICIENT_BTC"

theorem coveringCoins_fails (hprice : ∀ k, FailsWith (¬ IsShortfall ·) (priceAt k))
    (chosen rest : List ResolvedFunding) :
    FailsWith (¬ IsShortfall ·) (coveringCoins priceAt targetSats chosen rest) := by
  induction rest generalizing chosen with
  | nil => exact .ok _
  | cons utxo rest ih =>
    apply FailsWith.bind (hprice _)
    intro priced
    split
    · exact .pure _
    · exact ih _

theorem firstHeld_fails (hassets : ∀ o, FailsWith (¬ IsShortfall ·) (assetsAt o))
    (chosen : List ResolvedFunding) :
    FailsWith (¬ IsShortfall ·) (firstHeld assetsAt chosen) := by
  induction chosen with
  | nil => exact .ok _
  | cons f rest ih =>
    apply FailsWith.bind (hassets _)
    intro held
    split
    · exact .pure _
    · exact ih

/-- The loop gives up only where no free coins cover their own price. A coin that is skipped is in
no such pick, so taking it away loses none. -/
theorem pickCoins_shortfall (hprice : ∀ k, FailsWith (¬ IsShortfall ·) (priceAt k))
    (hassets : ∀ o, FailsWith (¬ IsShortfall ·) (assetsAt o)) {turns : Nat}
    {sorted : List ResolvedFunding} {skipped : List String} {e : Fault}
    (hturns : sorted.length < turns) (hfalling : Falling ResolvedFunding.valueSats sorted)
    (h : pickCoins priceAt assetsAt targetSats shortfall turns sorted skipped = .error e)
    (he : IsShortfall e) {coins : List ResolvedFunding} (hcoins : coins.Subperm sorted)
    (hfree : ∀ f ∈ coins, AssetFree assetsAt f.outpoint) (hpos : 0 < coins.length) :
    ∃ p, priceAt coins.length = .ok p ∧
      total ResolvedFunding.valueSats coins < targetSats + p.minerFeeSats := by
  induction turns generalizing sorted skipped with
  | zero => omega
  | succ turns ih =>
    simp only [pickCoins] at h
    cases hcover : coveringCoins priceAt targetSats [] sorted with
    | error e' =>
      rw [hcover] at h
      obtain rfl := Except.error.inj h
      exact absurd he (coveringCoins_fails hprice [] sorted e' hcover)
    | ok found =>
      rw [hcover] at h
      cases found with
      | none =>
        obtain ⟨p, hp, hless⟩ := coveringCoins_none hcover hpos hcoins.length_le
        rw [List.length_nil, Nat.zero_add] at hp
        exact ⟨p, hp, (total_le_front hfalling hcoins).trans_lt hless⟩
      | some picked =>
        obtain ⟨chosen, priced⟩ := picked
        simp only [bind, Except.bind] at h
        cases hheld : firstHeld assetsAt chosen with
        | error e' =>
          rw [hheld] at h
          obtain rfl := Except.error.inj h
          exact absurd he (firstHeld_fails hassets chosen e' hheld)
        | ok held =>
          rw [hheld] at h
          cases held with
          | none => cases h
          | some entry =>
            obtain ⟨f, name⟩ := entry
            obtain ⟨hchosen, hnot⟩ := firstHeld_some hheld
            obtain ⟨-, -, front, hfront, heq⟩ := coveringCoins_some hcover
            have hmem : f ∈ sorted := by
              apply hfront.subset
              rwa [heq, List.nil_append] at hchosen
            have hkept : coins.Subperm (sorted.erase f) := by
              have herase := hcoins.erase f
              rwa [List.erase_of_not_mem fun hf => hnot (hfree f hf)] at herase
            have hshorter := List.length_erase_of_mem hmem
            have hnonempty := List.length_pos_of_mem hmem
            have hturns' : (sorted.erase f).length < turns := by omega
            exact ih hturns' (hfalling.sublist List.erase_sublist) h hkept

end

theorem resolveFundingUtxo_outpoint {ctx : BuildContext} {o : OutPoint} {f : ResolvedFunding}
    (h : resolveFundingUtxo ctx o = .ok f) : f.outpoint = o := by
  simp only [resolveFundingUtxo, bind_eq_ok, demand_eq_ok, pure_eq_ok] at h
  obtain ⟨_, -, _, -, rfl⟩ := h
  rfl

theorem resolveFundingUtxos_ok {ctx : BuildContext} {candidates : List OutPoint}
    {resolved : List ResolvedFunding}
    (h : candidates.mapM (resolveFundingUtxo ctx) = .ok resolved) :
    resolved.map ResolvedFunding.outpoint = candidates ∧
      ∀ f ∈ resolved, resolveFundingUtxo ctx f.outpoint = .ok f := by
  induction candidates generalizing resolved with
  | nil =>
    obtain rfl := Except.ok.inj h
    exact ⟨rfl, by simp⟩
  | cons o rest ih =>
    simp only [List.mapM_cons, bind_eq_ok, pure_eq_ok] at h
    obtain ⟨f, hf, fs, hfs, rfl⟩ := h
    obtain ⟨houtpoints, hresolved⟩ := ih hfs
    have ho := resolveFundingUtxo_outpoint hf
    refine ⟨by rw [List.map_cons, ho, houtpoints], ?_⟩
    intro g hg
    rcases List.mem_cons.mp hg with rfl | hg
    · rwa [ho]
    · exact hresolved g hg

/-- Coins are told apart by their outpoints. -/
theorem subperm_resolved {ctx : BuildContext} {candidates : List OutPoint}
    {resolved coins : List ResolvedFunding}
    (h : candidates.mapM (resolveFundingUtxo ctx) = .ok resolved)
    (hfrom : (coins.map ResolvedFunding.outpoint).Subperm candidates)
    (hcoins : ∀ f ∈ coins, resolveFundingUtxo ctx f.outpoint = .ok f) :
    coins.Subperm resolved := by
  obtain ⟨houtpoints, hresolved⟩ := resolveFundingUtxos_ok h
  have hback {l : List ResolvedFunding} (hl : ∀ f ∈ l, resolveFundingUtxo ctx f.outpoint = .ok f) :
      (l.map ResolvedFunding.outpoint).filterMap (fun o => (resolveFundingUtxo ctx o).toOption) =
        l := by
    induction l with
    | nil => rfl
    | cons f l ih =>
      have hrest := ih fun g hg => hl g (List.mem_cons_of_mem f hg)
      have hhead := toOption_eq_some.mpr (hl f List.mem_cons_self)
      rw [List.map_cons, List.filterMap_cons, hhead, hrest]
  obtain ⟨part, hperm, hsub⟩ := hfrom
  rw [← hback hcoins, ← hback hresolved, houtpoints]
  exact ⟨_, hperm.filterMap _, hsub.filterMap _⟩

theorem resolveMinerFee_fails (rateSatPerVb explicitSats : Option Int) (size : Nat)
    (rates : FeeRates) (maxMinerFeeSats : Int) : FailsWith (¬ IsShortfall ·)
      (resolveMinerFee rateSatPerVb explicitSats size rates maxMinerFeeSats) := by
  have hlow (message : String) : ¬ IsShortfall (appError "MINER_FEE_TOO_LOW" message) := by
    simp [IsShortfall, appError]
  have hhigh (message : String) : ¬ IsShortfall (appError "MINER_FEE_TOO_HIGH" message) := by
    simp [IsShortfall, appError]
  unfold resolveMinerFee
  dsimp only
  cases rateSatPerVb with
  | some rate =>
    refine .bind (.ensure (hlow _)) ?_
    intro _
    refine .bind (.pure _) ?_
    intro minerFeeSats
    exact .bind (.ensure (hlow _)) fun _ => .bind (.ensure (hhigh _)) fun _ =>
      .bind (.ensure (hhigh _)) fun _ => .pure _
  | none =>
    cases explicitSats with
    | some explicit =>
      refine .bind (.pure _) ?_
      intro minerFeeSats
      exact .bind (.ensure (hlow _)) fun _ => .bind (.ensure (hhigh _)) fun _ =>
        .bind (.ensure (hhigh _)) fun _ => .pure _
    | none => exact .error (hlow _)

section

variable {app : V3AppService} {ctx : BuildContext} {req : FundingRequest}

theorem priceAt_fails (fundingInputs : Nat) :
    FailsWith (¬ IsShortfall ·) (app.priceAt ctx req fundingInputs) :=
  resolveMinerFee_fails _ _ _ _ _

theorem assetsAt_fails (o : OutPoint) : FailsWith (¬ IsShortfall ·) (app.assetsAt o) := by
  unfold V3AppService.assetsAt
  split
  · exact .ok _
  · apply FailsWith.mapError
    intro e
    simp [IsShortfall, appError]

theorem resolveFundingUtxo_fails (hplain : ∀ o e, ctx.getTxout o = .error e → e.code = none)
    (o : OutPoint) : FailsWith (¬ IsShortfall ·) (resolveFundingUtxo ctx o) := by
  apply FailsWith.bind
  · intro e he hcode
    rw [IsShortfall, hplain o e he] at hcode
    cases hcode
  · intro txout
    cases txout with
    | none =>
      apply FailsWith.error
      simp [IsShortfall, appError]
    | some found => exact .ok _

/-- The coin as an input the wallet can sign. -/
def FundingRequest.toInput (req : FundingRequest) (f : ResolvedFunding) : ResolvedInput :=
  { txid := f.txid, vout := f.vout, script := f.script, valueSats := f.valueSats
    publicKey := req.wallet.payments.publicKey }

variable (app ctx req) in
/-- A coin that may pay: unspent, at the payment address, with no tokens and no other assets, and
confirmed where the vault is spent. -/
structure Eligible (f : ResolvedFunding) : Prop where
  unspent : resolveFundingUtxo ctx f.outpoint = .ok f
  script : f.script = req.wallet.payments.script
  notCarrier : getLiveTokenUtxosAtDb app.db [f.outpoint] = []
  confirmed : req.op.spendsVault = true → 1 ≤ f.confirmations
  assetFree : AssetFree app.assetsAt f.outpoint

/-- The candidates that are not held back, the largest first. -/
def sortedCandidates (req : FundingRequest) (resolved : List ResolvedFunding) :
    List ResolvedFunding :=
  (if req.op.spendsVault then resolved.filter fun f => 1 ≤ f.confirmations
    else resolved).insertionSort ResolvedFunding.before

theorem sortedCandidates_falling (resolved : List ResolvedFunding) :
    Falling ResolvedFunding.valueSats (sortedCandidates req resolved) := by
  apply falling_insertionSort
  · intro a b h
    rcases h with h | ⟨h, -⟩
    · exact h.le
    · exact h.ge
  · intro a b h
    exact not_lt.mp fun hlt => h (.inl hlt)

theorem sortedCandidates_subperm (resolved : List ResolvedFunding) :
    (sortedCandidates req resolved).Subperm resolved := by
  refine (List.perm_insertionSort _ _).subperm.trans ?_
  split
  · exact List.filter_sublist.subperm
  · exact List.Subperm.refl resolved

theorem sortedCandidates_confirmed {resolved : List ResolvedFunding} {f : ResolvedFunding}
    (h : f ∈ sortedCandidates req resolved) (hvault : req.op.spendsVault = true) :
    1 ≤ f.confirmations := by
  rw [sortedCandidates, List.mem_insertionSort, if_pos hvault, List.mem_filter] at h
  exact of_decide_eq_true h.2

/-- No eligible coins are held back. -/
theorem subperm_sortedCandidates {resolved coins : List ResolvedFunding}
    (h : coins.Subperm resolved) (hcoins : ∀ f ∈ coins, Eligible app ctx req f) :
    coins.Subperm (sortedCandidates req resolved) := by
  refine List.Subperm.trans ?_ (List.perm_insertionSort _ _).symm.subperm
  split
  · rename_i hvault
    have hkept := h.filter fun f => decide (1 ≤ f.confirmations)
    rwa [List.filter_eq_self.mpr fun f hf => decide_eq_true ((hcoins f hf).confirmed hvault)]
      at hkept
  · exact h

theorem resolveFundingAndFee_chosen {inputs : List ResolvedInput} {minerFeeSats : Int}
    (h : app.resolveFundingAndFee ctx req = .ok (inputs, minerFeeSats)) :
    ∃ chosen priced, inputs = chosen.map req.toInput ∧
      (chosen.map ResolvedFunding.outpoint).Subperm req.candidates ∧
      (∀ f ∈ chosen, Eligible app ctx req f) ∧
      app.priceAt ctx req chosen.length = .ok priced ∧ minerFeeSats = priced.minerFeeSats ∧
      req.targetSats + minerFeeSats ≤ total ResolvedFunding.valueSats chosen := by
  simp only [V3AppService.resolveFundingAndFee, bind_eq_ok, ensure_eq_ok] at h
  obtain ⟨resolved, hresolved, _, hscripts, h⟩ := h
  obtain ⟨houtpoints, hunspent⟩ := resolveFundingUtxos_ok hresolved
  split at h
  · simp at h
  · rename_i hcarriers
    simp only [bind_eq_ok] at h
    obtain ⟨noFunding, hnone, h⟩ := h
    split at h
    · rename_i hcovered
      obtain ⟨rfl, rfl⟩ := Prod.mk.inj (Except.ok.inj h)
      exact ⟨[], noFunding, rfl, List.nil_subperm, by simp, hnone, rfl, hcovered⟩
    · simp only [bind_eq_ok, Prod.exists, pure_eq_ok, Prod.mk.injEq] at h
      obtain ⟨chosen, priced, hpick, rfl, rfl⟩ := h
      obtain ⟨hsub, hfree, hprice, hcovers⟩ := pickCoins_ok hpick
      have hsorted : chosen.Subperm (sortedCandidates req resolved) := hsub.subperm
      have hfrom := hsorted.trans (sortedCandidates_subperm resolved)
      refine ⟨chosen, priced, rfl, ?_, ?_, hprice, rfl, hcovers⟩
      · obtain ⟨part, hperm, hpart⟩ := hfrom
        rw [← houtpoints]
        exact ⟨_, hperm.map _, hpart.map _⟩
      · intro f hf
        have hmem := hfrom.subset hf
        have hcandidate : f.outpoint ∈ req.candidates := by
          rw [← houtpoints]
          exact List.mem_map_of_mem hmem
        have hcarrier := List.filter_eq_nil_iff.mp hcarriers _ hcandidate
        rw [decide_eq_true_eq, not_not] at hcarrier
        exact ⟨hunspent f hmem, hscripts f hmem, hcarrier,
          sortedCandidates_confirmed (hsorted.subset hf), hfree f hf⟩

/-- Every coin that pays is the wallet's. -/
theorem resolveFundingAndFee_ok {inputs : List ResolvedInput} {minerFeeSats : Int}
    (h : app.resolveFundingAndFee ctx req = .ok (inputs, minerFeeSats)) :
    ∀ i ∈ inputs, i.script = req.wallet.payments.script := by
  obtain ⟨chosen, priced, rfl, -, heligible, -⟩ := resolveFundingAndFee_chosen h
  intro i hi
  obtain ⟨f, hf, rfl⟩ := List.mem_map.mp hi
  exact (heligible f hf).script

/-- Too few coins are reported only where no eligible ones cover the need of their number. -/
theorem resolveFundingAndFee_shortfall (hplain : ∀ o e, ctx.getTxout o = .error e → e.code = none)
    {e : Fault} (h : app.resolveFundingAndFee ctx req = .error e) (he : IsShortfall e)
    {coins : List ResolvedFunding}
    (hfrom : (coins.map ResolvedFunding.outpoint).Subperm req.candidates)
    (hcoins : ∀ f ∈ coins, Eligible app ctx req f) :
    ∃ priced, app.priceAt ctx req coins.length = .ok priced ∧
      total ResolvedFunding.valueSats coins < req.targetSats + priced.minerFeeSats := by
  have hsources (os : List OutPoint) :
      FailsWith (¬ IsShortfall ·) (os.mapM (resolveFundingUtxo ctx)) := by
    induction os with
    | nil => exact .ok _
    | cons o os ih =>
      rw [List.mapM_cons]
      exact .bind (resolveFundingUtxo_fails hplain o) fun _ => .bind ih fun _ => .pure _
  simp only [V3AppService.resolveFundingAndFee, bind_eq_error, ensure_eq_error] at h
  obtain h | ⟨resolved, hresolved, ⟨-, rfl⟩ | ⟨_, -, h⟩⟩ := h
  · exact absurd he (hsources _ e h)
  · simp [IsShortfall, appError] at he
  · have hkept := subperm_sortedCandidates
      (subperm_resolved hresolved hfrom fun f hf => (hcoins f hf).unspent) hcoins
    split at h
    · obtain rfl := Except.error.inj h
      simp [IsShortfall, appError] at he
    · obtain h | ⟨noFunding, hnone, h⟩ := bind_eq_error.mp h
      · exact absurd he (priceAt_fails 0 e h)
      · split at h
        · cases h
        · rename_i hneeded
          obtain h | ⟨r, -, h⟩ := bind_eq_error.mp h
          · cases coins with
            | nil => exact ⟨noFunding, hnone, not_le.mp hneeded⟩
            | cons f rest =>
              exact pickCoins_shortfall priceAt_fails assetsAt_fails (Nat.lt_succ_self _)
                (sortedCandidates_falling resolved) h he hkept (fun f hf => (hcoins f hf).assetFree)
                (Nat.succ_pos rest.length)
          · cases h

variable (app ctx req) in
/-- What `resolveFundingAndFee` promises: the picking ends, what it picks may pay and is enough, and
it reports too few coins only where no eligible ones cover the need of their number. -/
structure FundingRight : Prop where
  ends (targetSats : Int) (shortfall : List ResolvedFunding → List String → Except Fault Fault)
    (turns : Nat) (sorted : List ResolvedFunding) (skipped : List String) :
    sorted.length < turns →
      pickWithin (app.priceAt ctx req) app.assetsAt targetSats shortfall turns sorted skipped =
        some (pickCoins (app.priceAt ctx req) app.assetsAt targetSats shortfall
          (sorted.length + 1) sorted skipped)
  sound (inputs : List ResolvedInput) (minerFeeSats : Int) :
    app.resolveFundingAndFee ctx req = .ok (inputs, minerFeeSats) →
      ∃ chosen priced, inputs = chosen.map req.toInput ∧
        (chosen.map ResolvedFunding.outpoint).Subperm req.candidates ∧
        (∀ f ∈ chosen, Eligible app ctx req f) ∧
        app.priceAt ctx req chosen.length = .ok priced ∧ minerFeeSats = priced.minerFeeSats ∧
        req.targetSats + minerFeeSats ≤ total ResolvedFunding.valueSats chosen
  complete (e : Fault) :
    app.resolveFundingAndFee ctx req = .error e → e.code = some "INSUFFICIENT_BTC" →
      ∀ coins : List ResolvedFunding,
        (coins.map ResolvedFunding.outpoint).Subperm req.candidates →
        (∀ f ∈ coins, Eligible app ctx req f) →
          ∃ priced, app.priceAt ctx req coins.length = .ok priced ∧
            total ResolvedFunding.valueSats coins < req.targetSats + priced.minerFeeSats

def coinsApp : V3AppService :=
  { quietApp false with
    sources := { confirmedSources with
      assets := some fun o => .ok (if o.vout = 0 then some "rune" else none) } }

def coinsContext : BuildContext where
  guards := .ok ()
  getTxout o := .ok (some ⟨sampleOwner, if o.vout = 0 then 90000 else 9000 * o.vout, 6⟩)
  rates := ⟨1, 1000, 2⟩
  scriptForKind _ _ := throw ⟨none, "no key is asked for"⟩
  carrierOrder := []

def coinsRequest (targetSats : Int) : FundingRequest where
  op := .backingBuy
  wallet :=
    { payments := { script := sampleOwner, publicKey := none, kind := .p2wpkh }
      ordinals := { script := sampleOwner, publicKey := none, kind := .p2wpkh }
      scripts := [sampleOwner] }
  candidates := [0, 1, 2].map fun vout => ⟨List.replicate 32 0x44, vout⟩
  targetSats
  feeRateSatPerVb := none
  explicitMinerFeeSats := none

/-- The coin with the rune would have been enough. -/
example : (match coinsApp.resolveFundingAndFee coinsContext (coinsRequest 40000) with
    | .error e => e.code
    | .ok _ => none) = some "INSUFFICIENT_BTC" := by
  decide +kernel

end

end Cove
