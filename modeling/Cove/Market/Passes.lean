import Cove.Market.Writes

/-! A run of `reconcileMarket` that has the tables and the chain for itself, as six passes: each
reads its rows, and every row calls for at most one write. -/

namespace Cove

open Checked

/-- A task that runs to its end alone, while the chain stays as it is. -/
inductive Completes (env : MarketEnv) (c : ChainView) : Task → MarketDb → MarketDb → Prop
  | done (db : MarketDb) : Completes env c .done db db
  | turn {order : RowOrder} {t t' : Task} {db db₁ db' : MarketDb}
      (h : t.turn env c order db = .ok (db₁, t')) (hrest : Completes env c t' db₁ db') :
      Completes env c t db db'

def ChainView.clock (c : ChainView) : Clock := ⟨c.tip, c.now⟩

/-- A run of `reconcileMarket` that completes. -/
def Reconciles (env : MarketEnv) (c : ChainView) (db db' : MarketDb) : Prop :=
  Completes env c (.reconcile c.clock) db db'

/-- The writes in turn, up to the first that fails. -/
def runAll (cfg : MarketConfig) (c : ChainView) (ws : List Write) (db : MarketDb) :
    Except Fault MarketDb :=
  ws.foldlM (fun db w => w.run cfg c db) db

/-- The writes of `reconcileMarket`. -/
def Write.reconciles : Write → Prop
  | .promoteFill _ _ _ _ _ | .reorgFill _ _ | .invalidateListing _ | .reactivateListing _
  | .rependFill _ _ | .expireFill _ _ | .expireListing _ => True
  | _ => False

/-- A fill without its status. -/
def Fill.terms (f : Fill) : Fill := f.set .reserved

/-- The same rows, but for their statuses. -/
structure SameTerms (db db' : MarketDb) : Prop where
  fills : ∀ k, (db'.fills.get k).map Fill.terms = (db.fills.get k).map Fill.terms
  listings : ∀ k, (db'.listings.get k).map Listing.toListingV1 =
    (db.listings.get k).map Listing.toListingV1

/-- Actions that each do one thing or nothing do it once. -/
theorem foldl_once {α β : Type} {P : α → Prop} {act : β → α → α} {g : α → α} {hit : β → Prop}
    [DecidablePred hit] {bs : List β}
    (hact : ∀ b ∈ bs, ∀ x, P x → act b x = if hit b then g x else x)
    (hP : ∀ x, P x → P (g x)) (hg : ∀ x, P x → g (g x) = g x) {x : α} (hx : P x) :
    bs.foldl (fun x b => act b x) x = if ∃ b ∈ bs, hit b then g x else x := by
  induction bs generalizing x with
  | nil => simp
  | cons b bs ih =>
    have ih' := @ih fun b hb => hact b (List.mem_cons_of_mem _ hb)
    rw [List.foldl_cons, hact b List.mem_cons_self x hx]
    by_cases hb : hit b
    · have hex : ∃ b' ∈ b :: bs, hit b' := ⟨b, List.mem_cons_self, hb⟩
      rw [if_pos hb, if_pos hex, ih' (hP x hx), hg x hx, ite_self]
    · rw [if_neg hb, ih' hx]
      simp [hb]

section

variable {env : MarketEnv} {cfg : MarketConfig} {c : ChainView} {db db₁ db' : MarketDb} {w : Write}
  {ws : List Write}

theorem SameTerms.refl (db : MarketDb) : SameTerms db db := ⟨fun _ => rfl, fun _ => rfl⟩

theorem SameTerms.symm (h : SameTerms db db') : SameTerms db' db :=
  ⟨fun k => (h.fills k).symm, fun k => (h.listings k).symm⟩

theorem SameTerms.trans (h : SameTerms db db₁) (h' : SameTerms db₁ db') : SameTerms db db' :=
  ⟨fun k => (h'.fills k).trans (h.fills k), fun k => (h'.listings k).trans (h.listings k)⟩

theorem SameTerms.fill (h : SameTerms db db') {k : Nat} {f : Fill} (hf : db.fills.get k = some f) :
    ∃ f', db'.fills.get k = some f' ∧ f'.terms = f.terms := by
  have hk := h.fills k
  rw [hf] at hk
  obtain ⟨f', hf', heq⟩ := Option.map_eq_some_iff.mp hk
  exact ⟨f', hf', heq⟩

theorem SameTerms.listing (h : SameTerms db db') {k : Bytes} {l : Listing}
    (hl : db.listings.get k = some l) :
    ∃ l', db'.listings.get k = some l' ∧ l'.toListingV1 = l.toListingV1 := by
  have hk := h.listings k
  rw [hl] at hk
  obtain ⟨l', hl', heq⟩ := Option.map_eq_some_iff.mp hk
  exact ⟨l', hl', heq⟩

theorem Fill.terms_listingId {f f' : Fill} (h : f'.terms = f.terms) :
    f'.listingId = f.listingId := by
  show f'.terms.listingId = f.terms.listingId
  rw [h]

theorem Fill.terms_txid {f f' : Fill} (h : f'.terms = f.terms) : f'.txid = f.txid := by
  show f'.terms.txid = f.terms.txid
  rw [h]

theorem Fill.terms_createdAt {f f' : Fill} (h : f'.terms = f.terms) :
    f'.createdAt = f.createdAt := by
  show f'.terms.createdAt = f.terms.createdAt
  rw [h]

/-! One write, and writes in turn. -/

theorem Write.onFill_terms (hw : w.reconciles) (k : Nat) (f : Fill) :
    (w.onFill cfg c.now k f).terms = f.terms := by
  cases w with
  | createListing | cancelListing | reserveListing | buildFillPsbt | submitBuyerSignedPsbt
  | submitSellerSignedPsbt | finalizeP2PFill | broadcastP2PFill => exact hw.elim
  | promoteFill | reorgFill | invalidateListing | rependFill | expireFill =>
    simp only [onFill]
    split <;> rfl
  | reactivateListing | expireListing => rfl

theorem Write.reconciles_fills (hw : w.reconciles) (h : w.run cfg c db = .ok db') (k : Nat) :
    db'.fills.get k = (db.fills.get k).map (w.onFill cfg c.now k) := by
  rcases w.run_fills h k with heq | ⟨fill, hres⟩
  · exact heq
  · obtain ⟨_, _, _, _, rfl, -⟩ := hres.input
    exact hw.elim

theorem Write.reconciles_listings (hw : w.reconciles) (h : w.run cfg c db = .ok db') (k : Bytes) :
    db'.listings.get k = (db.listings.get k).map (w.onListing k) := by
  rcases w.run_listings h k with heq | ⟨_, rfl, -⟩
  · exact heq
  · exact hw.elim

theorem runAll_cons_eq_ok :
    runAll cfg c (w :: ws) db = .ok db' ↔
      ∃ db₁, w.run cfg c db = .ok db₁ ∧ runAll cfg c ws db₁ = .ok db' := by
  rw [runAll, List.foldlM_cons, bind_eq_ok]
  rfl

theorem runAll_append_eq_ok {ws' : List Write} :
    runAll cfg c (ws ++ ws') db = .ok db' ↔
      ∃ db₁, runAll cfg c ws db = .ok db₁ ∧ runAll cfg c ws' db₁ = .ok db' := by
  rw [runAll, List.foldlM_append, bind_eq_ok]
  rfl

theorem runAll_fills (hws : ∀ w ∈ ws, w.reconciles) (h : runAll cfg c ws db = .ok db') (k : Nat) :
    db'.fills.get k =
      (db.fills.get k).map (ws.foldl fun f w => w.onFill cfg c.now k f) := by
  induction ws generalizing db with
  | nil =>
    obtain rfl : db = db' := Except.ok.inj h
    cases db.fills.get k <;> rfl
  | cons w ws ih =>
    obtain ⟨db₁, hrun, hrest⟩ := runAll_cons_eq_ok.mp h
    rw [ih (fun w hw => hws w (List.mem_cons_of_mem _ hw)) hrest,
      Write.reconciles_fills (hws w List.mem_cons_self) hrun, Option.map_map]
    rfl

theorem runAll_listings (hws : ∀ w ∈ ws, w.reconciles) (h : runAll cfg c ws db = .ok db')
    (k : Bytes) :
    db'.listings.get k = (db.listings.get k).map (ws.foldl fun l w => w.onListing k l) := by
  induction ws generalizing db with
  | nil =>
    obtain rfl : db = db' := Except.ok.inj h
    cases db.listings.get k <;> rfl
  | cons w ws ih =>
    obtain ⟨db₁, hrun, hrest⟩ := runAll_cons_eq_ok.mp h
    rw [ih (fun w hw => hws w (List.mem_cons_of_mem _ hw)) hrest,
      Write.reconciles_listings (hws w List.mem_cons_self) hrun, Option.map_map]
    rfl

theorem Write.reconciles_sameTerms (hw : w.reconciles) (h : w.run cfg c db = .ok db') :
    SameTerms db db' := by
  constructor
  · intro k
    rw [w.reconciles_fills hw h, Option.map_map]
    congr 1
    funext f
    exact w.onFill_terms hw k f
  · intro k
    rw [w.reconciles_listings hw h, Option.map_map]
    congr 1
    funext l
    exact w.onListing_terms k l

theorem runAll_sameTerms (hws : ∀ w ∈ ws, w.reconciles) (h : runAll cfg c ws db = .ok db') :
    SameTerms db db' := by
  induction ws generalizing db with
  | nil =>
    obtain rfl : db = db' := Except.ok.inj h
    exact .refl db
  | cons w ws ih =>
    obtain ⟨db₁, hrun, hrest⟩ := runAll_cons_eq_ok.mp h
    exact (w.reconciles_sameTerms (hws w List.mem_cons_self) hrun).trans
      (ih (fun w hw => hws w (List.mem_cons_of_mem _ hw)) hrest)

/-! A task's own steps. -/

theorem Completes.of_done (h : Completes env c .done db db') : db' = db := by
  generalize ht : Task.done = t at h
  induction h with
  | done => rfl
  | turn hturn hrest ih =>
    subst ht
    rcases Task.turn_cases hturn with ⟨w, heq, -⟩ | ⟨hread, rfl⟩
    · cases heq
    · exact ih (Except.ok.inj hread)

theorem Completes.of_write {next : Task} (h : Completes env c (.write w next) db db') :
    ∃ db₁, w.run env.config c db = .ok db₁ ∧ Completes env c next db₁ db' := by
  cases h with
  | turn hturn hrest =>
    simp only [Task.turn, bind_eq_ok, pure_eq_ok, Prod.mk.injEq] at hturn
    obtain ⟨db₁, hrun, rfl, rfl⟩ := hturn
    exact ⟨db₁, hrun, hrest⟩

/-- A task that has neither ended nor a write to make reads. -/
theorem Completes.of_read {t : Task} (h : Completes env c t db db') (hd : t ≠ .done)
    (hw : ∀ w next, t ≠ .write w next) :
    ∃ order t', t.read env c order db = .ok t' ∧ Completes env c t' db db' := by
  cases h with
  | done => exact absurd rfl hd
  | @turn order _ _ _ _ _ hturn hrest =>
    rcases Task.turn_cases hturn with ⟨w, heq, -⟩ | ⟨hread, rfl⟩
    · exact absurd heq (hw _ _)
    · exact ⟨order, _, hread, hrest⟩

/-- A loop whose rows each call for at most one write, which no write of the run changes. -/
theorem Completes.loop {α : Type} {T : List α → Task} {dec : MarketDb → α → Option Write}
    (hrow : ∀ a rest db, Completes env c (T (a :: rest)) db db' →
      ∃ db₁, runAll env.config c (dec db a).toList db = .ok db₁ ∧
        Completes env c (T rest) db₁ db')
    (hrec : ∀ db a, ∀ w ∈ dec db a, w.reconciles)
    (hsame : ∀ db db₁, SameTerms db db₁ → dec db₁ = dec db) {rows : List α}
    (h : Completes env c (T rows) db db') :
    ∃ db₁, runAll env.config c (rows.filterMap (dec db)) db = .ok db₁ ∧
      Completes env c (T []) db₁ db' := by
  induction rows generalizing db with
  | nil => exact ⟨db, rfl, h⟩
  | cons a rest ih =>
    obtain ⟨db₁, hrun, hrest⟩ := hrow a rest db h
    have hterms : SameTerms db db₁ :=
      runAll_sameTerms (fun w hw => hrec db a w (Option.mem_toList.mp hw)) hrun
    obtain ⟨db₂, hruns, hend⟩ := ih hrest
    rw [hsame db db₁ hterms] at hruns
    refine ⟨db₂, ?_, hend⟩
    have hcons : (a :: rest).filterMap (dec db) =
        (dec db a).toList ++ rest.filterMap (dec db) := by
      rw [List.filterMap_cons]
      cases dec db a <;> rfl
    rw [hcons]
    exact runAll_append_eq_ok.mpr ⟨db₁, hrun, hruns⟩

end

/-- A task run for so many statements, with the rows in one order. -/
def Task.finish (env : MarketEnv) (c : ChainView) (order : RowOrder) :
    Nat → Task → MarketDb → Option MarketDb
  | 0, t, db => if t = .done then some db else none
  | n + 1, t, db =>
    if t = .done then some db
    else (t.turn env c order db).toOption.bind fun r => Task.finish env c order n r.2 r.1

theorem Completes.of_finish {env : MarketEnv} {c : ChainView} {order : RowOrder} {n : Nat} {t : Task}
    {db db' : MarketDb} (h : Task.finish env c order n t db = some db') :
    Completes env c t db db' := by
  induction n generalizing t db with
  | zero =>
    rw [Task.finish, Option.ite_none_right_eq_some] at h
    obtain ⟨rfl, heq⟩ := h
    rw [← Option.some.inj heq]
    exact .done db
  | succ n ih =>
    rw [Task.finish] at h
    split at h
    · rename_i hdone
      rw [hdone, ← Option.some.inj h]
      exact .done db
    · obtain ⟨⟨db₁, t'⟩, hturn, hrest⟩ := Option.bind_eq_some_iff.mp h
      exact .turn (toOption_eq_some.mp hturn) (ih hrest)

/-! The transaction of a listing's latest fill. -/

/-- No later than the other in time, and by id at the same time. -/
def NotLater (a b : Nat × Fill) : Prop :=
  a.2.createdAt < b.2.createdAt ∨ a.2.createdAt = b.2.createdAt ∧ a.1 ≤ b.1

structure IsLatest (db : MarketDb) (listingId : Bytes) (k : Nat) (f : Fill) : Prop where
  row : db.fills.get k = some f
  listing : f.listingId = listingId
  last : ∀ k' f', db.fills.get k' = some f' → f'.listingId = listingId → NotLater (k', f') (k, f)

def IsOurTxid (db : MarketDb) (listingId txid : Bytes) : Prop :=
  ∃ k f, IsLatest db listingId k f ∧ f.txid = some txid

open Classical in
noncomputable def ourTxid (db : MarketDb) (listingId : Bytes) : Option Bytes :=
  if h : ∃ txid, IsOurTxid db listingId txid then some h.choose else none

section

variable {db db' : MarketDb} {listingId : Bytes}

theorem laterFill_cases (a b : Nat × Fill) :
    (laterFill a b = a ∧ NotLater b a) ∨ (laterFill a b = b ∧ NotLater a b) := by
  unfold laterFill NotLater
  split
  · exact Or.inr ⟨rfl, by omega⟩
  · exact Or.inl ⟨rfl, by omega⟩

theorem NotLater.trans {a b d : Nat × Fill} (h : NotLater a b) (h' : NotLater b d) :
    NotLater a d := by
  unfold NotLater at *
  omega

theorem foldl_laterFill (rows : List (Nat × Fill)) (e : Nat × Fill) :
    rows.foldl laterFill e ∈ e :: rows ∧
      ∀ a ∈ e :: rows, NotLater a (rows.foldl laterFill e) := by
  induction rows generalizing e with
  | nil => simp [NotLater]
  | cons b rows ih =>
    obtain ⟨hmem, hlast⟩ := ih (laterFill e b)
    rw [List.foldl_cons]
    have hfirst := hlast _ List.mem_cons_self
    have hrest : ∀ a ∈ rows, NotLater a (rows.foldl laterFill (laterFill e b)) :=
      fun a ha => hlast a (List.mem_cons_of_mem _ ha)
    rcases laterFill_cases e b with ⟨heq, hle⟩ | ⟨heq, hle⟩
    · rw [heq] at hmem hfirst hrest ⊢
      constructor
      · simp only [List.mem_cons] at hmem ⊢
        tauto
      · simp only [List.mem_cons]
        intro a ha
        rcases ha with rfl | rfl | ha
        · exact hfirst
        · exact hle.trans hfirst
        · exact hrest a ha
    · rw [heq] at hmem hfirst hrest ⊢
      constructor
      · exact List.mem_cons_of_mem _ hmem
      · simp only [List.mem_cons]
        intro a ha
        rcases ha with rfl | rfl | ha
        · exact hle.trans hfirst
        · exact hfirst
        · exact hrest a ha

theorem IsLatest.unique {k k' : Nat} {f f' : Fill} (h : IsLatest db listingId k f)
    (h' : IsLatest db listingId k' f') : f = f' := by
  have hle := h'.last k f h.row h.listing
  have hge := h.last k' f' h'.row h'.listing
  have hk : k = k' := by
    unfold NotLater at hle hge
    omega
  subst hk
  exact Option.some.inj (h.row.symm.trans h'.row)

theorem ourTxid_eq_some {txid : Bytes} :
    ourTxid db listingId = some txid ↔ IsOurTxid db listingId txid := by
  unfold ourTxid
  split
  · rename_i hex
    constructor
    · intro h
      rw [← Option.some.inj h]
      exact hex.choose_spec
    · intro h
      obtain ⟨k, f, hlatest, htxid⟩ := h
      obtain ⟨k', f', hlatest', htxid'⟩ := hex.choose_spec
      rw [← htxid', ← htxid, hlatest'.unique hlatest]
  · rename_i hnone
    constructor
    · intro h
      cases h
    · intro h
      exact absurd ⟨txid, h⟩ hnone

/-- The latest of a listing's rows, in whatever order they come. -/
theorem latestFill_isLatest {rows : List (Nat × Fill)}
    (hrows : ∀ k f, (k, f) ∈ rows ↔ db.fills.get k = some f ∧ f.listingId = listingId)
    {k : Nat} {f : Fill} (h : latestFill rows = some (k, f)) : IsLatest db listingId k f := by
  cases rows with
  | nil => cases h
  | cons e rows =>
    obtain ⟨hmem, hlast⟩ := foldl_laterFill rows e
    rw [Option.some.inj h] at hmem hlast
    obtain ⟨hrow, hid⟩ := (hrows k f).mp hmem
    exact ⟨hrow, hid, fun k' f' hf' hid' => hlast _ ((hrows k' f').mpr ⟨hf', hid'⟩)⟩

theorem latestFill_txid {order : RowOrder} {rows : List (Nat × Fill)}
    (h : selectRows order.fills db.fills (·.listingId = listingId) = .ok rows) :
    (latestFill rows).bind (·.2.txid) = ourTxid db listingId := by
  have hrows : ∀ k f, (k, f) ∈ rows ↔ db.fills.get k = some f ∧ f.listingId = listingId := by
    intro k f
    rw [selectRows_mem h, decide_eq_true_iff]
  ext txid
  rw [ourTxid_eq_some, Option.bind_eq_some_iff]
  constructor
  · intro hbind
    obtain ⟨⟨k, f⟩, hlatest, htxid⟩ := hbind
    exact ⟨k, f, latestFill_isLatest hrows hlatest, htxid⟩
  · intro hours
    obtain ⟨k, f, hlatest, htxid⟩ := hours
    have hmem := (hrows k f).mpr ⟨hlatest.row, hlatest.listing⟩
    have hsome : ∃ e, latestFill rows = some e := by
      cases rows with
      | nil => cases hmem
      | cons e rows => exact ⟨_, rfl⟩
    obtain ⟨⟨k', f'⟩, he⟩ := hsome
    refine ⟨(k', f'), he, ?_⟩
    rw [(latestFill_isLatest hrows he).unique hlatest]
    exact htxid

theorem IsLatest.of_sameTerms (hs : SameTerms db db') {k : Nat} {f f' : Fill}
    (h : IsLatest db listingId k f) (hf' : db'.fills.get k = some f') (ht : f'.terms = f.terms) :
    IsLatest db' listingId k f' := by
  refine ⟨hf', (Fill.terms_listingId ht).trans h.listing, ?_⟩
  intro k₁ g' hg' hid
  obtain ⟨g, hg, htg⟩ := hs.symm.fill hg'
  have hle := h.last k₁ g hg ((Fill.terms_listingId htg).trans hid)
  unfold NotLater at hle ⊢
  rw [Fill.terms_createdAt ht, ← Fill.terms_createdAt htg]
  exact hle

theorem IsOurTxid.of_sameTerms (hs : SameTerms db db') {txid : Bytes}
    (h : IsOurTxid db listingId txid) : IsOurTxid db' listingId txid := by
  obtain ⟨k, f, hlatest, htxid⟩ := h
  obtain ⟨f', hf', ht⟩ := hs.fill hlatest.row
  exact ⟨k, f', hlatest.of_sameTerms hs hf' ht, (Fill.terms_txid ht).trans htxid⟩

theorem ourTxid_of_sameTerms (hs : SameTerms db db') : ourTxid db' listingId = ourTxid db listingId := by
  ext txid
  rw [ourTxid_eq_some, ourTxid_eq_some]
  exact ⟨fun h => h.of_sameTerms hs.symm, fun h => h.of_sameTerms hs⟩

theorem listingFillTxid_of_sameTerms (hs : SameTerms db db') (txid : Bytes) :
    listingFillTxid db' listingId txid = listingFillTxid db listingId txid := by
  have himp : ∀ {db db' : MarketDb}, SameTerms db db' →
      listingFillTxid db listingId txid = true → listingFillTxid db' listingId txid = true := by
    intro db db' hs h
    obtain ⟨k, f, hf, hid, htxid⟩ := of_decide_eq_true h
    obtain ⟨f', hf', ht⟩ := hs.fill hf
    exact decide_eq_true ⟨k, f', hf', (Fill.terms_listingId ht).trans hid,
      (Fill.terms_txid ht).trans htxid⟩
  exact Bool.eq_iff_iff.mpr ⟨himp hs.symm, himp hs⟩

end

/-! What each row calls for. -/

/-- Pass (A). -/
def promoteWrite (c : ChainView) (db : MarketDb) (e : Nat × Fill) : Option Write :=
  ((db.listings.get e.2.listingId).map Listing.toListingV1).bind fun l =>
    (spentBy c l e.2.txid).map fun utxo => .promoteFill e.1 e.2 l utxo c.tip

/-- Pass (B). -/
def reorgWrite (c : ChainView) (db : MarketDb) (e : Nat × Fill) : Option Write :=
  ((db.listings.get e.2.listingId).map Listing.toListingV1).bind fun l =>
    if spentBy c l e.2.txid = none then some (.reorgFill e.1 e.2) else none

/-- The confirmed transaction that spends a listing's source. -/
def confirmedSpender (c : ChainView) (l : ListingV1) : Option Bytes :=
  (sourceUtxoRow c l.source).bind UtxoRow.spentByTxid

/-- Pass (C). -/
noncomputable def surveyWrite (c : ChainView) (db : MarketDb) (e : Bytes × Listing) : Option Write :=
  match confirmedSpender c e.2.toListingV1 with
  | some spentByTxid =>
    if listingFillTxid db e.1 spentByTxid then none else some (.invalidateListing e.1)
  | none =>
    match c.txouts.get e.2.source with
    | some _ => if e.2.status = .reorged then some (.reactivateListing e.1) else none
    | none =>
      match (ourTxid db e.1).filter (· ∈ c.transactions) with
      | some txid => if e.2.status = .reorged then some (.rependFill e.1 txid) else none
      | none => some (.invalidateListing e.1)

/-- One of the buyer's coins is spent. -/
def FundsSpent (c : ChainView) (inputs : List BuyerFundInput) : Prop :=
  ∃ i ∈ inputs, c.txouts.get i.outpoint = none

instance (c : ChainView) : DecidablePred (FundsSpent c) := fun inputs =>
  inferInstanceAs (Decidable (∃ i ∈ inputs, c.txouts.get i.outpoint = none))

/-- Pass (C2). -/
def sweepWrite (c : ChainView) (_ : MarketDb) (e : Nat × Fill) : Option Write :=
  if FundsSpent c e.2.buyerFundInputs then some (.expireFill e.1 e.2.listingId) else none

/-- Pass (D). -/
def expireListingWrite (_ : MarketDb) (e : Bytes × Listing) : Option Write :=
  some (.expireListing e.1)

def expireFillWrite (_ : MarketDb) (e : Nat × Fill) : Option Write :=
  some (.expireFill e.1 e.2.listingId)

section

variable {env : MarketEnv} {c : ChainView} {clock : Clock} {db db₁ db' : MarketDb}

section

variable {e : Bytes × Listing}

theorem surveyWrite_spent {spentByTxid : Bytes}
    (hs : confirmedSpender c e.2.toListingV1 = some spentByTxid) :
    surveyWrite c db e =
      if listingFillTxid db e.1 spentByTxid then none else some (.invalidateListing e.1) := by
  simp only [surveyWrite, hs]

theorem surveyWrite_unspent {txout : TxOut} (hs : confirmedSpender c e.2.toListingV1 = none)
    (ht : c.txouts.get e.2.source = some txout) :
    surveyWrite c db e =
      if e.2.status = .reorged then some (.reactivateListing e.1) else none := by
  simp only [surveyWrite, hs, ht]

theorem surveyWrite_ours {txid : Bytes} (hs : confirmedSpender c e.2.toListingV1 = none)
    (ht : c.txouts.get e.2.source = none)
    (ho : (ourTxid db e.1).filter (· ∈ c.transactions) = some txid) :
    surveyWrite c db e =
      if e.2.status = .reorged then some (.rependFill e.1 txid) else none := by
  simp only [surveyWrite, hs, ht, ho]

theorem surveyWrite_external (hs : confirmedSpender c e.2.toListingV1 = none)
    (ht : c.txouts.get e.2.source = none)
    (ho : (ourTxid db e.1).filter (· ∈ c.transactions) = none) :
    surveyWrite c db e = some (.invalidateListing e.1) := by
  simp only [surveyWrite, hs, ht, ho]

end

theorem runAll_some {w : Write} (h : w.run env.config c db = .ok db₁) :
    runAll env.config c (some w).toList db = .ok db₁ := by
  rw [Option.toList_some, runAll_cons_eq_ok]
  exact ⟨db₁, h, rfl⟩

theorem Completes.promote_row (a : Nat × Fill) (rest : List (Nat × Fill)) (db : MarketDb)
    (h : Completes env c (.promote c.clock (a :: rest)) db db') :
    ∃ db₁, runAll env.config c (promoteWrite c db a).toList db = .ok db₁ ∧
      Completes env c (.promote c.clock rest) db₁ db' := by
  obtain ⟨order, t, hread, hrest⟩ := h.of_read (by simp) (by simp)
  simp only [Task.read] at hread
  unfold promoteWrite
  split at hread
  · rename_i hnone
    rw [hnone]
    rw [← Except.ok.inj hread] at hrest
    exact ⟨db, rfl, hrest⟩
  · rename_i l hl
    rw [hl]
    split at hread
    · rename_i utxo hutxo
      rw [← Except.ok.inj hread] at hrest
      obtain ⟨db₁, hrun, hend⟩ := hrest.of_write
      refine ⟨db₁, ?_, hend⟩
      rw [Option.map_some, Option.bind_some, hutxo]
      exact runAll_some hrun
    · rename_i hutxo
      rw [← Except.ok.inj hread] at hrest
      refine ⟨db, ?_, hrest⟩
      rw [Option.map_some, Option.bind_some, hutxo]
      rfl

theorem Completes.reorg_row (a : Nat × Fill) (rest : List (Nat × Fill)) (db : MarketDb)
    (h : Completes env c (.reorg c.clock (a :: rest)) db db') :
    ∃ db₁, runAll env.config c (reorgWrite c db a).toList db = .ok db₁ ∧
      Completes env c (.reorg c.clock rest) db₁ db' := by
  obtain ⟨order, t, hread, hrest⟩ := h.of_read (by simp) (by simp)
  simp only [Task.read] at hread
  unfold reorgWrite
  split at hread
  · rename_i hnone
    rw [hnone]
    rw [← Except.ok.inj hread] at hrest
    exact ⟨db, rfl, hrest⟩
  · rename_i l hl
    rw [hl]
    split at hread
    · rename_i utxo hutxo
      rw [← Except.ok.inj hread] at hrest
      refine ⟨db, ?_, hrest⟩
      rw [Option.map_some, Option.bind_some, hutxo, if_neg (by simp)]
      rfl
    · rename_i hutxo
      rw [← Except.ok.inj hread] at hrest
      obtain ⟨db₁, hrun, hend⟩ := hrest.of_write
      refine ⟨db₁, ?_, hend⟩
      rw [Option.map_some, Option.bind_some, if_pos hutxo]
      exact runAll_some hrun

theorem Completes.survey_row (a : Bytes × Listing) (rest : List (Bytes × Listing)) (db : MarketDb)
    (h : Completes env c (.survey c.clock (a :: rest)) db db') :
    ∃ db₁, runAll env.config c (surveyWrite c db a).toList db = .ok db₁ ∧
      Completes env c (.survey c.clock rest) db₁ db' := by
  obtain ⟨order, t, hread, hrest⟩ := h.of_read (by simp) (by simp)
  simp only [Task.read] at hread
  split at hread
  · rename_i spentByTxid hspent
    rw [surveyWrite_spent hspent]
    rw [← Except.ok.inj hread] at hrest
    obtain ⟨order, t, hread, hrest⟩ := hrest.of_read (by simp) (by simp)
    simp only [Task.read] at hread
    split at hread
    · rename_i hours
      rw [← Except.ok.inj hread] at hrest
      exact ⟨db, by rw [if_pos hours]; rfl, hrest⟩
    · rename_i hours
      rw [← Except.ok.inj hread] at hrest
      obtain ⟨db₁, hrun, hend⟩ := hrest.of_write
      exact ⟨db₁, by rw [if_neg hours]; exact runAll_some hrun, hend⟩
  · rename_i hspent
    rw [← Except.ok.inj hread] at hrest
    obtain ⟨order, t, hread, hrest⟩ := hrest.of_read (by simp) (by simp)
    simp only [Task.read] at hread
    split at hread
    · rename_i txout htxout
      rw [surveyWrite_unspent hspent htxout]
      split at hread
      · rename_i hreorged
        rw [← Except.ok.inj hread] at hrest
        obtain ⟨db₁, hrun, hend⟩ := hrest.of_write
        exact ⟨db₁, by rw [if_pos hreorged]; exact runAll_some hrun, hend⟩
      · rename_i hreorged
        rw [← Except.ok.inj hread] at hrest
        exact ⟨db, by rw [if_neg hreorged]; rfl, hrest⟩
    · rename_i htxout
      rw [← Except.ok.inj hread] at hrest
      obtain ⟨order, t, hread, hrest⟩ := hrest.of_read (by simp) (by simp)
      simp only [Task.read, bind_eq_ok, pure_eq_ok] at hread
      obtain ⟨rows, hrows, rfl⟩ := hread
      rw [latestFill_txid hrows] at hrest
      obtain ⟨order, t, hread, hrest⟩ := hrest.of_read (by simp) (by simp)
      simp only [Task.read] at hread
      split at hread
      · rename_i txid htxid
        rw [surveyWrite_ours hspent htxout htxid]
        split at hread
        · rename_i hreorged
          rw [← Except.ok.inj hread] at hrest
          obtain ⟨db₁, hrun, hend⟩ := hrest.of_write
          exact ⟨db₁, by rw [if_pos hreorged]; exact runAll_some hrun, hend⟩
        · rename_i hreorged
          rw [← Except.ok.inj hread] at hrest
          exact ⟨db, by rw [if_neg hreorged]; rfl, hrest⟩
      · rename_i htxid
        rw [surveyWrite_external hspent htxout htxid]
        rw [← Except.ok.inj hread] at hrest
        obtain ⟨db₁, hrun, hend⟩ := hrest.of_write
        exact ⟨db₁, runAll_some hrun, hend⟩

/-- The buyer's coins one by one, up to the first that is spent. -/
theorem Completes.sweepFunds {fillId : Nat} {fill : Fill} {inputs : List BuyerFundInput}
    {rest : List (Nat × Fill)}
    (h : Completes env c (.sweepFunds c.clock fillId fill inputs rest) db db') :
    if FundsSpent c inputs then
      Completes env c (.write (.expireFill fillId fill.listingId) (.sweep c.clock rest)) db db'
    else Completes env c (.sweep c.clock rest) db db' := by
  induction inputs with
  | nil =>
    obtain ⟨order, t, hread, hrest⟩ := h.of_read (by simp) (by simp)
    rw [← Except.ok.inj hread] at hrest
    rw [if_neg (by simp [FundsSpent])]
    exact hrest
  | cons i inputs ih =>
    obtain ⟨order, t, hread, hrest⟩ := h.of_read (by simp) (by simp)
    simp only [Task.read] at hread
    split at hread
    · rename_i txout htxout
      rw [← Except.ok.inj hread] at hrest
      have hiff : FundsSpent c (i :: inputs) ↔ FundsSpent c inputs := by
        simp [FundsSpent, htxout]
      simp only [hiff]
      exact ih hrest
    · rename_i htxout
      rw [← Except.ok.inj hread] at hrest
      rw [if_pos ⟨i, List.mem_cons_self, htxout⟩]
      exact hrest

theorem Completes.sweep_row (a : Nat × Fill) (rest : List (Nat × Fill)) (db : MarketDb)
    (h : Completes env c (.sweep c.clock (a :: rest)) db db') :
    ∃ db₁, runAll env.config c (sweepWrite c db a).toList db = .ok db₁ ∧
      Completes env c (.sweep c.clock rest) db₁ db' := by
  obtain ⟨order, t, hread, hrest⟩ := h.of_read (by simp) (by simp)
  rw [← Except.ok.inj hread] at hrest
  have hfunds := hrest.sweepFunds
  unfold sweepWrite
  split at hfunds
  · rename_i hspent
    obtain ⟨db₁, hrun, hend⟩ := hfunds.of_write
    exact ⟨db₁, by rw [if_pos hspent]; exact runAll_some hrun, hend⟩
  · rename_i hspent
    exact ⟨db, by rw [if_neg hspent]; rfl, hfunds⟩

theorem Completes.expireListings_row (a : Bytes × Listing) (rest : List (Bytes × Listing))
    (db : MarketDb) (h : Completes env c (.expireListings c.clock (a :: rest)) db db') :
    ∃ db₁, runAll env.config c (expireListingWrite db a).toList db = .ok db₁ ∧
      Completes env c (.expireListings c.clock rest) db₁ db' := by
  obtain ⟨order, t, hread, hrest⟩ := h.of_read (by simp) (by simp)
  rw [← Except.ok.inj hread] at hrest
  obtain ⟨db₁, hrun, hend⟩ := hrest.of_write
  exact ⟨db₁, runAll_some hrun, hend⟩

theorem Completes.expireFills_row (a : Nat × Fill) (rest : List (Nat × Fill))
    (db : MarketDb) (h : Completes env c (.expireFills c.clock (a :: rest)) db db') :
    ∃ db₁, runAll env.config c (expireFillWrite db a).toList db = .ok db₁ ∧
      Completes env c (.expireFills c.clock rest) db₁ db' := by
  obtain ⟨order, t, hread, hrest⟩ := h.of_read (by simp) (by simp)
  rw [← Except.ok.inj hread] at hrest
  obtain ⟨db₁, hrun, hend⟩ := hrest.of_write
  exact ⟨db₁, runAll_some hrun, hend⟩

end

/-! The passes. -/

/-- A pass over the rows of a table that meet a test. -/
def Pass {K R : Type} [DecidableEq K] (cfg : MarketConfig) (c : ChainView)
    (table : MarketDb → Dict K R) (p : R → Prop) (dec : MarketDb → K × R → Option Write)
    (db db' : MarketDb) : Prop :=
  ∃ rows : List (K × R), (∀ k r, (k, r) ∈ rows ↔ (table db).get k = some r ∧ p r) ∧
    runAll cfg c (rows.filterMap (dec db)) db = .ok db'

section

variable (cfg : MarketConfig) (c : ChainView)

def Promotes : MarketDb → MarketDb → Prop :=
  Pass cfg c (fun db => db.fills) (fun f => f.status = .broadcast) (promoteWrite c)

def Reorgs : MarketDb → MarketDb → Prop :=
  Pass cfg c (fun db => db.fills) (fun f => f.status = .confirmed) (reorgWrite c)

def Surveys : MarketDb → MarketDb → Prop :=
  Pass cfg c (fun db => db.listings) (fun l => l.status.isOpen) (surveyWrite c)

def Sweeps : MarketDb → MarketDb → Prop :=
  Pass cfg c (fun db => db.fills) (fun f => f.status = .buyerSigned) (sweepWrite c)

def ExpiresListings : MarketDb → MarketDb → Prop :=
  Pass cfg c (fun db => db.listings) (fun l => l.status = .active ∧ l.expiryHeight ≤ c.tip)
    expireListingWrite

def ExpiresFills : MarketDb → MarketDb → Prop :=
  Pass cfg c (fun db => db.fills) (fun f => reservationOver c.now f = true) expireFillWrite

end

section

variable {env : MarketEnv} {cfg : MarketConfig} {c : ChainView} {db db₁ db' : MarketDb}

theorem promoteWrite_reconciles (db : MarketDb) (e : Nat × Fill) :
    ∀ w ∈ promoteWrite c db e, w.reconciles := by
  intro w hw
  simp only [promoteWrite, Option.mem_def, Option.bind_eq_some_iff, Option.map_eq_some_iff] at hw
  obtain ⟨_, -, _, -, rfl⟩ := hw
  trivial

theorem reorgWrite_reconciles (db : MarketDb) (e : Nat × Fill) :
    ∀ w ∈ reorgWrite c db e, w.reconciles := by
  intro w hw
  simp only [reorgWrite, Option.mem_def, Option.bind_eq_some_iff, Option.ite_none_right_eq_some,
    Option.some.injEq] at hw
  obtain ⟨_, -, -, rfl⟩ := hw
  trivial

/-- The writes of pass (C) are about their own listing. -/
theorem surveyWrite_cases {e : Bytes × Listing} {w : Write} (hw : surveyWrite c db e = some w) :
    w = .invalidateListing e.1 ∨
      (e.2.status = .reorged ∧ w = .reactivateListing e.1) ∨
      ∃ txid, e.2.status = .reorged ∧ w = .rependFill e.1 txid := by
  unfold surveyWrite at hw
  split at hw
  · split at hw
    · cases hw
    · exact Or.inl (Option.some.inj hw).symm
  · split at hw
    · split at hw
      · exact Or.inr (Or.inl ⟨‹_›, (Option.some.inj hw).symm⟩)
      · cases hw
    · split at hw
      · split at hw
        · exact Or.inr (Or.inr ⟨_, ‹_›, (Option.some.inj hw).symm⟩)
        · cases hw
      · exact Or.inl (Option.some.inj hw).symm

theorem surveyWrite_reconciles (db : MarketDb) (e : Bytes × Listing) :
    ∀ w ∈ surveyWrite c db e, w.reconciles := by
  intro w hw
  rcases surveyWrite_cases hw with rfl | ⟨-, rfl⟩ | ⟨_, -, rfl⟩ <;> trivial

theorem sweepWrite_reconciles (db : MarketDb) (e : Nat × Fill) :
    ∀ w ∈ sweepWrite c db e, w.reconciles := by
  intro w hw
  simp only [sweepWrite, Option.mem_def, Option.ite_none_right_eq_some, Option.some.injEq] at hw
  obtain ⟨-, rfl⟩ := hw
  trivial

theorem expireListingWrite_reconciles (db : MarketDb) (e : Bytes × Listing) :
    ∀ w ∈ expireListingWrite db e, w.reconciles := by
  intro w hw
  cases hw
  trivial

theorem expireFillWrite_reconciles (db : MarketDb) (e : Nat × Fill) :
    ∀ w ∈ expireFillWrite db e, w.reconciles := by
  intro w hw
  cases hw
  trivial

theorem promoteWrite_of_sameTerms (h : SameTerms db db') :
    promoteWrite c db' = promoteWrite c db := by
  funext e
  rw [promoteWrite, promoteWrite, h.listings]

theorem reorgWrite_of_sameTerms (h : SameTerms db db') : reorgWrite c db' = reorgWrite c db := by
  funext e
  rw [reorgWrite, reorgWrite, h.listings]

theorem surveyWrite_of_sameTerms (h : SameTerms db db') :
    surveyWrite c db' = surveyWrite c db := by
  funext e
  simp only [surveyWrite, listingFillTxid_of_sameTerms h, ourTxid_of_sameTerms h]

/-- A loop over selected rows is a pass. -/
theorem Completes.pass {K R : Type} [DecidableEq K] (table : MarketDb → Dict K R) {p : R → Bool}
    {T : List (K × R) → Task} {dec : MarketDb → K × R → Option Write} {order : List K}
    (hrow : ∀ a rest db, Completes env c (T (a :: rest)) db db' →
      ∃ db₁, runAll env.config c (dec db a).toList db = .ok db₁ ∧
        Completes env c (T rest) db₁ db')
    (hrec : ∀ db a, ∀ w ∈ dec db a, w.reconciles)
    (hsame : ∀ db db₁, SameTerms db db₁ → dec db₁ = dec db) {rows : List (K × R)}
    (hrows : selectRows order (table db) p = .ok rows) (h : Completes env c (T rows) db db') :
    ∃ db₁, Pass env.config c table (fun r => p r = true) dec db db₁ ∧
      Completes env c (T []) db₁ db' := by
  obtain ⟨db₁, hruns, hend⟩ := h.loop hrow hrec hsame
  exact ⟨db₁, ⟨rows, fun k r => selectRows_mem hrows, hruns⟩, hend⟩

theorem Pass.mono {K R : Type} [DecidableEq K] {table : MarketDb → Dict K R} {p q : R → Prop}
    {dec : MarketDb → K × R → Option Write} (h : Pass cfg c table p dec db db')
    (hpq : ∀ r, p r ↔ q r) : Pass cfg c table q dec db db' := by
  obtain ⟨rows, hrows, hruns⟩ := h
  refine ⟨rows, ?_, hruns⟩
  intro k r
  rw [hrows, hpq]

/-- A run that completes is its six passes, one after the other. -/
theorem reconcile_passes (h : Reconciles env c db db') :
    ∃ db₁ db₂ db₃ db₄ db₅, Promotes env.config c db db₁ ∧ Reorgs env.config c db₁ db₂ ∧
      Surveys env.config c db₂ db₃ ∧ Sweeps env.config c db₃ db₄ ∧
      ExpiresListings env.config c db₄ db₅ ∧ ExpiresFills env.config c db₅ db' := by
  obtain ⟨order, t, hread, hrest⟩ := Completes.of_read h (by simp) (by simp)
  simp only [Task.read, bind_eq_ok, pure_eq_ok] at hread
  obtain ⟨rows, hrows, rfl⟩ := hread
  obtain ⟨db₁, hpromote, hrest⟩ := Completes.pass (fun db => db.fills) Completes.promote_row
    promoteWrite_reconciles (fun _ _ => promoteWrite_of_sameTerms) hrows hrest
  obtain ⟨order, t, hread, hrest⟩ := hrest.of_read (by simp) (by simp)
  simp only [Task.read, bind_eq_ok, pure_eq_ok] at hread
  obtain ⟨rows, hrows, rfl⟩ := hread
  obtain ⟨db₂, hreorg, hrest⟩ := Completes.pass (fun db => db.fills) Completes.reorg_row
    reorgWrite_reconciles (fun _ _ => reorgWrite_of_sameTerms) hrows hrest
  obtain ⟨order, t, hread, hrest⟩ := hrest.of_read (by simp) (by simp)
  simp only [Task.read, bind_eq_ok, pure_eq_ok] at hread
  obtain ⟨rows, hrows, rfl⟩ := hread
  obtain ⟨db₃, hsurvey, hrest⟩ := Completes.pass (fun db => db.listings) Completes.survey_row
    surveyWrite_reconciles (fun _ _ => surveyWrite_of_sameTerms) hrows hrest
  obtain ⟨order, t, hread, hrest⟩ := hrest.of_read (by simp) (by simp)
  simp only [Task.read, bind_eq_ok, pure_eq_ok] at hread
  obtain ⟨rows, hrows, rfl⟩ := hread
  obtain ⟨db₄, hsweep, hrest⟩ := Completes.pass (fun db => db.fills) Completes.sweep_row
    sweepWrite_reconciles (fun _ _ _ => rfl) hrows hrest
  obtain ⟨order, t, hread, hrest⟩ := hrest.of_read (by simp) (by simp)
  simp only [Task.read, bind_eq_ok, pure_eq_ok] at hread
  obtain ⟨rows, hrows, rfl⟩ := hread
  obtain ⟨db₅, hlistings, hrest⟩ := Completes.pass (fun db => db.listings)
    Completes.expireListings_row expireListingWrite_reconciles (fun _ _ _ => rfl) hrows hrest
  obtain ⟨order, t, hread, hrest⟩ := hrest.of_read (by simp) (by simp)
  simp only [Task.read, bind_eq_ok, pure_eq_ok] at hread
  obtain ⟨rows, hrows, rfl⟩ := hread
  obtain ⟨db₆, hfills, hrest⟩ := Completes.pass (fun db => db.fills) Completes.expireFills_row
    expireFillWrite_reconciles (fun _ _ _ => rfl) hrows hrest
  obtain ⟨order, t, hread, hrest⟩ := hrest.of_read (by simp) (by simp)
  rw [← Except.ok.inj hread] at hrest
  obtain rfl := hrest.of_done
  exact ⟨db₁, db₂, db₃, db₄, db₅, hpromote.mono fun _ => decide_eq_true_iff,
    hreorg.mono fun _ => decide_eq_true_iff, hsurvey.mono fun _ => decide_eq_true_iff,
    hsweep.mono fun _ => decide_eq_true_iff, hlistings.mono fun _ => decide_eq_true_iff, hfills⟩

/-! What a pass does to a row. -/

section

variable {K R : Type} [DecidableEq K] {table : MarketDb → Dict K R} {p : R → Prop}
  {dec : MarketDb → K × R → Option Write}

theorem Pass.sameTerms (h : Pass cfg c table p dec db db')
    (hrec : ∀ db a, ∀ w ∈ dec db a, w.reconciles) : SameTerms db db' := by
  obtain ⟨rows, -, hruns⟩ := h
  refine runAll_sameTerms ?_ hruns
  intro w hw
  obtain ⟨a, -, hdec⟩ := List.mem_filterMap.mp hw
  exact hrec db a w hdec

/-- A row that calls for a write. -/
def Calls (table : MarketDb → Dict K R) (p : R → Prop) (dec : MarketDb → K × R → Option Write)
    (db : MarketDb) (e : K × R) : Prop :=
  (table db).get e.1 = some e.2 ∧ p e.2 ∧ dec db e ≠ none

open Classical in
/-- The writes of a pass, on one value each of them changes in one way or not at all. -/
theorem Pass.foldl {α : Type} {P : α → Prop} {act : Write → α → α} {g : α → α}
    {hit : K × R → Prop} {rows : List (K × R)}
    (hrows : ∀ k r, (k, r) ∈ rows ↔ (table db).get k = some r ∧ p r)
    (hact : ∀ e w, (table db).get e.1 = some e.2 → p e.2 → dec db e = some w →
      ∀ x, P x → act w x = if hit e then g x else x)
    (hP : ∀ x, P x → P (g x)) (hg : ∀ x, P x → g (g x) = g x) {x : α} (hx : P x) :
    (rows.filterMap (dec db)).foldl (fun x w => act w x) x =
      if ∃ e, Calls table p dec db e ∧ hit e then g x else x := by
  have hrow : ∀ e ∈ rows, ∀ x, P x →
      ((dec db e).elim x fun w => act w x) = if dec db e ≠ none ∧ hit e then g x else x := by
    intro e he x hx
    obtain ⟨hget, hp⟩ := (hrows e.1 e.2).mp he
    cases hdec : dec db e with
    | none => simp
    | some w => simp [hact e w hget hp hdec x hx]
  have hiff : (∃ e ∈ rows, dec db e ≠ none ∧ hit e) ↔ ∃ e, Calls table p dec db e ∧ hit e := by
    constructor
    · intro hex
      obtain ⟨e, he, hdec, hhit⟩ := hex
      obtain ⟨hget, hp⟩ := (hrows e.1 e.2).mp he
      exact ⟨e, ⟨hget, hp, hdec⟩, hhit⟩
    · intro hex
      obtain ⟨e, ⟨hget, hp, hdec⟩, hhit⟩ := hex
      exact ⟨e, (hrows e.1 e.2).mpr ⟨hget, hp⟩, hdec, hhit⟩
  have hfold : (rows.filterMap (dec db)).foldl (fun x w => act w x) x =
      rows.foldl (fun x e => (dec db e).elim x fun w => act w x) x := by
    rw [List.foldl_filterMap]
    congr 1
    funext x e
    cases dec db e <;> rfl
  rw [hfold, foldl_once hrow hP hg hx]
  simp only [hiff]

variable (h : Pass cfg c table p dec db db') (hrec : ∀ db a, ∀ w ∈ dec db a, w.reconciles)
  (hit : K × R → Prop)

include h hrec

open Classical in
theorem Pass.fill (g : Fill → Fill) {k : Nat} {f : Fill} (hf : db.fills.get k = some f)
    (hact : ∀ e w, (table db).get e.1 = some e.2 → p e.2 → dec db e = some w →
      ∀ f', f'.terms = f.terms → w.onFill cfg c.now k f' = if hit e then g f' else f')
    (hP : ∀ f', (g f').terms = f'.terms) (hg : ∀ f', g (g f') = g f') :
    db'.fills.get k = some (if ∃ e, Calls table p dec db e ∧ hit e then g f else f) := by
  obtain ⟨rows, hrows, hruns⟩ := h
  have hws : ∀ w ∈ rows.filterMap (dec db), w.reconciles := by
    intro w hw
    obtain ⟨a, -, hdec⟩ := List.mem_filterMap.mp hw
    exact hrec db a w hdec
  rw [runAll_fills hws hruns, hf, Option.map_some]
  congr 1
  exact Pass.foldl hrows hact (fun f' hf' => (hP f').trans hf') (fun f' _ => hg f') rfl

open Classical in
theorem Pass.listing (g : Listing → Listing) {k : Bytes} {l : Listing}
    (hl : db.listings.get k = some l)
    (hact : ∀ e w, (table db).get e.1 = some e.2 → p e.2 → dec db e = some w →
      ∀ l', w.onListing k l' = if hit e then g l' else l')
    (hg : ∀ l', g (g l') = g l') :
    db'.listings.get k = some (if ∃ e, Calls table p dec db e ∧ hit e then g l else l) := by
  obtain ⟨rows, hrows, hruns⟩ := h
  have hws : ∀ w ∈ rows.filterMap (dec db), w.reconciles := by
    intro w hw
    obtain ⟨a, -, hdec⟩ := List.mem_filterMap.mp hw
    exact hrec db a w hdec
  rw [runAll_listings hws hruns, hl, Option.map_some]
  congr 1
  exact Pass.foldl hrows (P := fun _ => True) (fun e w hget hp hdec l' _ => hact e w hget hp hdec l')
    (fun _ _ => trivial) (fun l' _ => hg l') trivial

end

end

end Cove
