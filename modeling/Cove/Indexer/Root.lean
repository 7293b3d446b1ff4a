import Cove.Lib.Separated
import Cove.Indexer.Classify
import Cove.Indexer.LedgerRun
import Cove.Indexer.Projection
import Cove.Indexer.UndoJson

/-! The state root as a canonical form: two ledgers have one root text exactly when the records
it is made of are the same. -/

namespace Cove

open Checked

/-- What the root text keeps of a record, in the order it writes the fields. -/
inductive RootRecord
  | token (tokenId ticker : Bytes) (policyVersion : Nat) (tokenNonce deployTxid : Bytes)
      (deployHeight : Nat) (creatorScript : Bytes)
  | backing (tokenId stateHash txid : Bytes) (vout : Nat) (btcValue : Int)
  | utxo (txid : Bytes) (vout : Nat) (tokenId : Bytes) (amountAtoms : Int) (scriptPubKey : Bytes)

def V3TokenMeta.record (t : V3TokenMeta) : RootRecord :=
  .token t.tokenId t.ticker t.policyVersion t.tokenNonce t.deployTxid t.deployHeight t.creatorScript

def V3Backing.record (b : V3Backing) : RootRecord :=
  .backing b.tokenId b.stateHash b.outpoint.txid b.outpoint.vout b.btcValue

def V3TokenUtxo.record (u : V3TokenUtxo) : RootRecord :=
  .utxo u.txid u.vout u.tokenId u.amountAtoms u.scriptPubKey

/-- The projected records of a map. -/
def projected {K V : Type} [DecidableEq K] (record : V → RootRecord) (m : Dict K V) :
    Set RootRecord := {r | ∃ k v, m.get k = some v ∧ record v = r}

structure SameRecords (σ σ' : Ledger) : Prop where
  tokens : projected V3TokenMeta.record σ.tokens = projected V3TokenMeta.record σ'.tokens
  backing : projected V3Backing.record σ.backing = projected V3Backing.record σ'.backing
  tokenUtxos : projected V3TokenUtxo.record σ.tokenUtxos = projected V3TokenUtxo.record σ'.tokenUtxos

/-- Records stand under their own keys, and tickers have the shape a deploy gives them. -/
structure Ledger.Admissible (σ : Ledger) : Prop where
  meta_key : ∀ t m, σ.tokens.get t = some m → m.tokenId = t
  ticker : ∀ t m, σ.tokens.get t = some m → tickerShape m.ticker = true
  backing_key : ∀ t b, σ.backing.get t = some b → b.tokenId = t
  keyed : Keyed σ.tokenUtxos

/-- The records of the maps in some order of insertion. -/
structure Ledger.Listing (σ : Ledger) where
  tokens : List V3TokenMeta
  backing : List V3Backing
  tokenUtxos : List V3TokenUtxo
  tokens_eq : (tokens : Multiset V3TokenMeta) = σ.tokens.values
  backing_eq : (backing : Multiset V3Backing) = σ.backing.values
  tokenUtxos_eq : (tokenUtxos : Multiset V3TokenUtxo) = σ.tokenUtxos.values

instance (σ : Ledger) : Nonempty σ.Listing :=
  ⟨σ.tokens.values.toList, σ.backing.values.toList, σ.tokenUtxos.values.toList,
    Multiset.coe_toList _, Multiset.coe_toList _, Multiset.coe_toList _⟩

/-- The hashed text, from maps whose values come in that order. -/
def Ledger.Listing.text {σ : Ledger} (l : σ.Listing) : Bytes :=
  let lines := l.tokens.map tokenLine ++ l.backing.map backingLine ++ l.tokenUtxos.map utxoLine
  Bytes.ascii "Cove/IndexerState/v3" ++ Bytes.ascii "\n" ++
    Bytes.join (Bytes.ascii "\n") (lines.insertionSort Bytes.le)

theorem Ledger.Listing.text_eq {σ : Ledger} (l : σ.Listing) : l.text = rootText σ := by
  obtain ⟨tokens, backing, tokenUtxos, htokens, hbacking, hutxos⟩ := l
  rw [rootText, ← htokens, ← hbacking, ← hutxos]
  rfl

/-! A line can be read back. -/

def RootRecord.parts : RootRecord → List Bytes
  | .token tokenId ticker policyVersion tokenNonce deployTxid deployHeight creatorScript =>
    [Bytes.ascii "TOKEN", tokenId.hexText, ticker, Bytes.decimalText policyVersion,
      tokenNonce.hexText, deployTxid.hexText, Bytes.decimalText deployHeight, creatorScript.hexText]
  | .backing tokenId stateHash txid vout btcValue =>
    [Bytes.ascii "BACKING", tokenId.hexText, stateHash.hexText, txid.hexText,
      Bytes.decimalText vout, Bytes.decimalText btcValue]
  | .utxo txid vout tokenId amountAtoms scriptPubKey =>
    [Bytes.ascii "UTXO", txid.hexText, Bytes.decimalText vout, tokenId.hexText,
      Bytes.decimalText amountAtoms, scriptPubKey.hexText]

def RootRecord.line (r : RootRecord) : Bytes := rootLine r.parts

def RootRecord.Writable : RootRecord → Prop
  | .token _ ticker _ _ _ _ _ => tickerShape ticker = true
  | _ => True

/-- A text with neither a field separator nor a line break. -/
def Unbroken (p : Bytes) : Prop := 0x7c ∉ p ∧ 0x0a ∉ p

instance (p : Bytes) : Decidable (Unbroken p) :=
  inferInstanceAs (Decidable (0x7c ∉ p ∧ 0x0a ∉ p))

theorem unbroken_iff {p : Bytes} : Unbroken p ↔ ∀ c ∈ p, c ≠ 0x7c ∧ c ≠ 0x0a := by
  constructor
  · intro h c hc
    exact ⟨fun he => h.1 (he ▸ hc), fun he => h.2 (he ▸ hc)⟩
  · intro h
    exact ⟨fun hc => (h _ hc).1 rfl, fun hc => (h _ hc).2 rfl⟩

theorem unbroken_hexDigit :
    ∀ n < 16, Bytes.hexDigit n ≠ 0x7c ∧ Bytes.hexDigit n ≠ 0x0a := by decide

theorem unbroken_hexText (b : Bytes) : Unbroken b.hexText := by
  apply unbroken_iff.mpr
  intro c hc
  obtain ⟨x, -, hx⟩ := List.mem_flatMap.mp hc
  have hlt := x.toNat_lt
  rcases List.mem_cons.mp hx with rfl | hx
  · exact unbroken_hexDigit _ (by omega)
  · rw [List.mem_singleton.mp hx]
    exact unbroken_hexDigit _ (by omega)

/-- A text of bytes of a class that neither separator belongs to. -/
theorem unbroken_of_class {p : Bytes} (f : UInt8 → Bool) (hsep : f 0x7c = false)
    (hbreak : f 0x0a = false) (h : ∀ c ∈ p, f c = true) : Unbroken p := by
  constructor
  · intro hc
    exact absurd (h _ hc) (by rw [hsep]; decide)
  · intro hc
    exact absurd (h _ hc) (by rw [hbreak]; decide)

theorem unbroken_decimalText (n : Int) : Unbroken (Bytes.decimalText n) := by
  obtain ⟨ds, hds, he⟩ := Json.decimalText_signed n
  apply unbroken_of_class (fun c => c == 0x2d || Json.isDecimal c) (by decide) (by decide)
  intro c hc
  rw [he] at hc
  have hdigit : ∀ d ∈ ds, (d == 0x2d || Json.isDecimal d) = true := by
    intro d hd
    rw [hds.decimal d hd, Bool.or_true]
  split at hc
  · rcases List.mem_cons.mp hc with rfl | hc
    · rfl
    · exact hdigit c hc
  · exact hdigit c hc

theorem unbroken_ticker {ticker : Bytes} (h : tickerShape ticker = true) : Unbroken ticker := by
  apply unbroken_of_class (fun c => isLetter c || isDigit c) (by decide) (by decide)
  cases ticker with
  | nil => simp
  | cons c cs =>
    simp only [tickerShape, Bool.and_eq_true, List.all_eq_true] at h
    intro d hd
    rcases List.mem_cons.mp hd with rfl | hd
    · simp [h.1.1]
    · exact h.1.2 d hd

namespace RootRecord

variable {r r' : RootRecord}

theorem parts_unbroken (h : r.Writable) : ∀ p ∈ r.parts, Unbroken p := by
  have htoken : Unbroken (Bytes.ascii "TOKEN") := by decide
  have hbacking : Unbroken (Bytes.ascii "BACKING") := by decide
  have hutxo : Unbroken (Bytes.ascii "UTXO") := by decide
  cases r with
  | token tokenId ticker policyVersion tokenNonce deployTxid deployHeight creatorScript =>
    have hticker := unbroken_ticker h
    simp [parts, htoken, hticker, unbroken_hexText, unbroken_decimalText]
  | backing tokenId stateHash txid vout btcValue =>
    simp [parts, hbacking, unbroken_hexText, unbroken_decimalText]
  | utxo txid vout tokenId amountAtoms scriptPubKey =>
    simp [parts, hutxo, unbroken_hexText, unbroken_decimalText]

theorem parts_ne_nil : r.parts ≠ [] := by
  cases r <;> exact List.cons_ne_nil _ _

theorem hexText_inj {a b : Bytes} : a.hexText = b.hexText ↔ a = b := by
  constructor
  · intro h
    have hpairs := hexPairs_hexText a
    rw [h, hexPairs_hexText] at hpairs
    exact (Option.some.inj hpairs).symm
  · intro h
    rw [h]

theorem decimalText_inj {m n : Int} : Bytes.decimalText m = Bytes.decimalText n ↔ m = n := by
  constructor
  · intro h
    have hread := bigIntOf_decimalText m
    rw [h, bigIntOf_decimalText] at hread
    exact (Option.some.inj hread).symm
  · intro h
    rw [h]

theorem kinds_differ : Bytes.ascii "TOKEN" ≠ Bytes.ascii "BACKING" ∧
    Bytes.ascii "TOKEN" ≠ Bytes.ascii "UTXO" ∧ Bytes.ascii "BACKING" ≠ Bytes.ascii "UTXO" := by
  decide

theorem parts_inj (h : r.parts = r'.parts) : r = r' := by
  obtain ⟨htb, htu, hbu⟩ := kinds_differ
  cases r <;> cases r' <;>
    simp only [parts, List.cons.injEq, htb, htu, hbu, htb.symm, htu.symm, hbu.symm, hexText_inj,
      decimalText_inj, Nat.cast_inj, true_and, and_true, false_and] at h
  · obtain ⟨h₁, h₂, h₃, h₄, h₅, h₆, h₇⟩ := h
    rw [h₁, h₂, h₃, h₄, h₅, h₆, h₇]
  · obtain ⟨h₁, h₂, h₃, h₄, h₅⟩ := h
    rw [h₁, h₂, h₃, h₄, h₅]
  · obtain ⟨h₁, h₂, h₃, h₄, h₅⟩ := h
    rw [h₁, h₂, h₃, h₄, h₅]

theorem line_inj (h : r.Writable) (h' : r'.Writable) (he : r.line = r'.line) : r = r' := by
  apply parts_inj
  exact Bytes.join_inj (fun p hp => (parts_unbroken h p hp).1)
    (fun p hp => (parts_unbroken h' p hp).1) parts_ne_nil parts_ne_nil he

theorem line_no_break (h : r.Writable) : 0x0a ∉ r.line := by
  intro hbreak
  rcases Bytes.mem_join hbreak with hsep | ⟨p, hp, hin⟩
  · revert hsep
    decide
  · exact (parts_unbroken h p hp).2 hin

theorem line_ne_nil : r.line ≠ [] := by
  cases r <;> simp [line, rootLine, parts, Bytes.join, Bytes.ascii]

end RootRecord

/-! The records as one collection. -/

def Ledger.recordBag (σ : Ledger) : Multiset RootRecord :=
  σ.tokens.values.map V3TokenMeta.record + σ.backing.values.map V3Backing.record +
    σ.tokenUtxos.values.map V3TokenUtxo.record

theorem rootText_eq (σ : Ledger) :
    rootText σ = Bytes.ascii "Cove/IndexerState/v3" ++ Bytes.ascii "\n" ++
      Bytes.join (Bytes.ascii "\n") (Bytes.sorted (σ.recordBag.map RootRecord.line)) := by
  rw [rootText, Ledger.recordBag, Multiset.map_add, Multiset.map_add, Multiset.map_map,
    Multiset.map_map, Multiset.map_map]
  rfl

section Map

variable {K V : Type} [DecidableEq K] {m m' : Dict K V} {record : V → RootRecord}

theorem mem_map_values {r : RootRecord} :
    r ∈ m.values.map record ↔ r ∈ projected record m := by
  rw [Multiset.mem_map]
  constructor
  · intro h
    obtain ⟨v, hv, hr⟩ := h
    obtain ⟨k, hg⟩ := Dict.mem_values.mp hv
    exact ⟨k, v, hg, hr⟩
  · intro h
    obtain ⟨k, v, hg, hr⟩ := h
    exact ⟨v, Dict.mem_values.mpr ⟨k, hg⟩, hr⟩

/-- Where a record tells its key, a map holds it once. -/
theorem nodup_map_values (key : RootRecord → K)
    (hkey : ∀ k v, m.get k = some v → key (record v) = k) : (m.values.map record).Nodup := by
  apply Multiset.Nodup.of_map key
  have hkeys : (m.values.map record).map key = m.entries.map Prod.fst := by
    rw [Dict.values, Multiset.map_map, Multiset.map_map]
    apply Multiset.map_congr rfl
    intro e he
    exact hkey e.1 e.2 (Dict.mem_entries.mp he)
  rw [hkeys]
  exact m.keys_nodup

theorem map_values_eq (key : RootRecord → K)
    (hkey : ∀ k v, m.get k = some v → key (record v) = k)
    (hkey' : ∀ k v, m'.get k = some v → key (record v) = k)
    (h : projected record m = projected record m') :
    m.values.map record = m'.values.map record := by
  apply (Multiset.Nodup.ext (nodup_map_values key hkey) (nodup_map_values key hkey')).mpr
  intro r
  rw [mem_map_values, mem_map_values, h]

end Map

section Bag

variable {σ σ' : Ledger}

theorem mem_recordBag {r : RootRecord} : r ∈ σ.recordBag ↔
    r ∈ projected V3TokenMeta.record σ.tokens ∨ r ∈ projected V3Backing.record σ.backing ∨
      r ∈ projected V3TokenUtxo.record σ.tokenUtxos := by
  rw [Ledger.recordBag, Multiset.mem_add, Multiset.mem_add, mem_map_values, mem_map_values,
    mem_map_values, or_assoc]

theorem Ledger.Admissible.writable (h : σ.Admissible) {r : RootRecord} (hr : r ∈ σ.recordBag) :
    r.Writable := by
  rcases mem_recordBag.mp hr with ⟨t, m, hg, rfl⟩ | ⟨t, b, hg, rfl⟩ | ⟨k, u, hg, rfl⟩
  · exact h.ticker t m hg
  · exact trivial
  · exact trivial

/-- A record's kind says which map it comes from. -/
theorem sameRecords_of_mem (h : ∀ r, r ∈ σ.recordBag ↔ r ∈ σ'.recordBag) : SameRecords σ σ' := by
  simp only [mem_recordBag] at h
  refine ⟨?_, ?_, ?_⟩
  · ext r
    have hr := h r
    cases r with
    | token => simpa [projected, V3TokenMeta.record, V3Backing.record, V3TokenUtxo.record] using hr
    | backing => simp [projected, V3TokenMeta.record]
    | utxo => simp [projected, V3TokenMeta.record]
  · ext r
    have hr := h r
    cases r with
    | token => simp [projected, V3Backing.record]
    | backing => simpa [projected, V3TokenMeta.record, V3Backing.record, V3TokenUtxo.record] using hr
    | utxo => simp [projected, V3Backing.record]
  · ext r
    have hr := h r
    cases r with
    | token => simp [projected, V3TokenUtxo.record]
    | backing => simp [projected, V3TokenUtxo.record]
    | utxo => simpa [projected, V3TokenMeta.record, V3Backing.record, V3TokenUtxo.record] using hr

/-- Equal lines are lines of equal records. -/
theorem mem_of_lines (hσ : σ.Admissible) (hσ' : σ'.Admissible)
    (h : σ.recordBag.map RootRecord.line = σ'.recordBag.map RootRecord.line) {r : RootRecord}
    (hr : r ∈ σ.recordBag) : r ∈ σ'.recordBag := by
  have hline : r.line ∈ σ'.recordBag.map RootRecord.line := h ▸ Multiset.mem_map_of_mem _ hr
  obtain ⟨r', hr', he⟩ := Multiset.mem_map.mp hline
  rw [RootRecord.line_inj (hσ.writable hr) (hσ'.writable hr') he.symm]
  exact hr'

def RootRecord.tokenKey : RootRecord → Bytes
  | .token tokenId _ _ _ _ _ _ => tokenId
  | .backing tokenId _ _ _ _ => tokenId
  | .utxo _ _ tokenId _ _ => tokenId

def RootRecord.outpointKey : RootRecord → OutPoint
  | .utxo txid vout _ _ _ => ⟨txid, vout⟩
  | _ => ⟨[], 0⟩

theorem Ledger.Admissible.outpointKey (h : σ.Admissible) : ∀ k u, σ.tokenUtxos.get k = some u →
    u.record.outpointKey = k := h.keyed

theorem recordBag_eq (hσ : σ.Admissible) (hσ' : σ'.Admissible) (h : SameRecords σ σ') :
    σ.recordBag = σ'.recordBag := by
  have htokens := map_values_eq RootRecord.tokenKey hσ.meta_key hσ'.meta_key h.tokens
  have hbacking := map_values_eq RootRecord.tokenKey hσ.backing_key hσ'.backing_key h.backing
  have hutxos := map_values_eq RootRecord.outpointKey hσ.outpointKey hσ'.outpointKey h.tokenUtxos
  rw [Ledger.recordBag, Ledger.recordBag, htokens, hbacking, hutxos]

theorem rootText_inj (hσ : σ.Admissible) (hσ' : σ'.Admissible) :
    rootText σ = rootText σ' ↔ SameRecords σ σ' := by
  have hlines (σ : Ledger) (hσ : σ.Admissible) :
      ∀ p ∈ Bytes.sorted (σ.recordBag.map RootRecord.line), 0x0a ∉ p ∧ p ≠ [] := by
    intro p hp
    rw [← Multiset.mem_coe, Bytes.coe_sorted, Multiset.mem_map] at hp
    obtain ⟨r, hr, rfl⟩ := hp
    exact ⟨RootRecord.line_no_break (hσ.writable hr), RootRecord.line_ne_nil⟩
  constructor
  · intro h
    rw [rootText_eq, rootText_eq] at h
    have hsorted := Bytes.join_inj_of_ne_nil (hlines σ hσ) (hlines σ' hσ')
      (List.append_cancel_left h)
    have hbag := Bytes.sorted_inj.mp hsorted
    exact sameRecords_of_mem fun r => ⟨mem_of_lines hσ hσ' hbag, mem_of_lines hσ' hσ hbag.symm⟩
  · intro h
    rw [rootText_eq, rootText_eq, recordBag_eq hσ hσ' h]

end Bag

/-! Which states are admissible. -/

section Reach

variable {C : Crypto} {cfg : V3IndexerConfig}

/-- Every recorded ticker is one a deploy envelope carries. -/
def TickersShaped (σ : Ledger) : Prop :=
  ∀ t m, σ.tokens.get t = some m → tickerShape m.ticker = true

theorem tickerShape_of_parse {tx : Transaction} {policyVersion : Nat} {ticker tokenNonce : Bytes}
    (h : parseCoveTx tx = .cove (.deploy policyVersion ticker tokenNonce)) :
    tickerShape ticker = true := by
  obtain ⟨payload, -, hencode, -⟩ := parseCoveTx_cove_iff.mp h
  simp only [reencodeV2, encodeDeployV2, bind_eq_ok, ensure_eq_ok, canonicalTicker_eq_ok] at hencode
  obtain ⟨_, -, _, -, tick, ⟨hshape, -⟩, -⟩ := hencode
  exact hshape

theorem Outcome.tickersShaped {block : V3BlockInput} {σ : Ledger} {tx : Transaction}
    (o : Outcome C cfg block σ tx) (h : TickersShaped σ) : TickersShaped o.next := by
  cases o with
  | nonCove _ => exact h
  | refused _ _ _ _ => exact h
  | accepted envelope hp a =>
    intro t m hm
    have hm : (σ.perform a.effect).tokens.get t = some m := hm
    rcases perform_tokens_get hm with ⟨-, hnew⟩ | hold
    · cases a with
      | deploy a =>
        obtain rfl := Option.some.inj hnew
        exact tickerShape_of_parse hp
      | mint a => cases hnew
      | transfer a => cases hnew
      | redeem a => cases hnew
    · exact h t m hold

theorem LedgerRun.tickersShaped {σ σ' : Ledger} {txs : List Transaction}
    (h : LedgerRun C cfg σ txs σ') (hσ : TickersShaped σ) : TickersShaped σ' := by
  induction h with
  | nil => exact hσ
  | cons o _ ih => exact ih (o.tickersShaped hσ)

theorem Replays.admissible {chain : List V3BlockInput} {σ : V3IndexerState}
    (h : Replays C cfg chain σ) : σ.toLedger.Admissible := by
  have hI := h.inv.ledger
  have hrun : LedgerRun C cfg (V3IndexerState.new C cfg).toLedger (chainTxs chain) σ.toLedger :=
    Replays.ledgerRun .new h
  refine ⟨hI.meta_key, ?_, fun t b hb => (hI.backing_sound t b hb).tokenId_eq, hI.keyed⟩
  apply hrun.tickersShaped
  intro t m hm
  cases hm

end Reach

/-- The hashed text does not depend on the order of the maps or on the history behind them, and
tells any two sets of records apart. -/
theorem state_root_canonical (C : Crypto) (cfg : V3IndexerConfig) :
    (∀ chain σ, Reachable C cfg chain σ → σ.toLedger.Admissible) ∧
    (∀ chain σ db sel h, Lockstep C cfg chain σ db → Selects db sel →
      hydrateState C cfg sel = .ok h → h.toLedger.Admissible) ∧
    ∀ σ σ' : Ledger, σ.Admissible → σ'.Admissible →
      ∀ (l : σ.Listing) (l' : σ'.Listing), l.text = l'.text ↔ SameRecords σ σ' := by
  refine ⟨fun chain σ h => h.replays.admissible, ?_, ?_⟩
  · intro chain σ db sel h hlock hsel hh
    obtain ⟨h', hh', hsame⟩ := (hlock.synced.projects hlock.inv).hydrates sel hsel
    rw [hh] at hh'
    obtain rfl := Except.ok.inj hh'
    rw [hsame.ledger]
    exact hlock.replays.admissible
  · intro σ σ' hσ hσ' l l'
    rw [l.text_eq, l'.text_eq]
    exact rootText_inj hσ hσ'

theorem state_root_canonical_sample : ∃ σ,
    Reachable sampleCrypto sampleConfig [deployBlock, mintBlock] σ ∧
    (∀ l l' : σ.toLedger.Listing, l.text = l'.text) ∧
    ∀ (l : σ.toLedger.Listing) (l' : Ledger.Listing ⟨∅, ∅, ∅⟩), l.text ≠ l'.text := by
  obtain ⟨σ, tokenMeta, hσ, hmeta⟩ := sample_reachable
  obtain ⟨hreach, -, hcanonical⟩ := state_root_canonical sampleCrypto sampleConfig
  have hadm := hreach _ σ hσ
  have hempty := hreach [] _ .new
  refine ⟨σ, hσ, fun l l' => (hcanonical _ _ hadm hadm l l').mpr ⟨rfl, rfl, rfl⟩, ?_⟩
  intro l l' htext
  have hsame := (hcanonical _ _ hadm hempty l l').mp htext
  have hin : tokenMeta.record ∈ projected V3TokenMeta.record σ.tokens :=
    ⟨alphaId, tokenMeta, hmeta, rfl⟩
  rw [hsame.tokens] at hin
  obtain ⟨k, v, hg, -⟩ := hin
  cases hg

end Cove
