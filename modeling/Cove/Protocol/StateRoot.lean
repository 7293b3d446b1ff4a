import Cove.Indexer.Root
import Cove.Lib.Sections
import Cove.Lib.Sha256
import Cove.Protocol.Indexer

/-! The V1 state root as a canonical form: `packages/protocol/src/cove/state-root.ts`, with
`configDomain` of `config.ts`. -/

namespace Cove

namespace Protocol

def Network.name : Network → String
  | .signet => "signet"
  | .regtest => "regtest"
  | .mutinynet => "mutinynet"
  | .mainnet => "mainnet"

def colons (parts : List Bytes) : Bytes := Bytes.join (Bytes.ascii ":") parts

/-- The two parts of the first field already hold the separator between them. -/
def configDomain (cfg : CoveConfig) : Bytes :=
  colons [Bytes.ascii "cove:1", Bytes.ascii cfg.network.name, Bytes.decimalText cfg.genesisHeight,
    cfg.settlementScript.hexText, cfg.treasuryScript.hexText, Bytes.decimalText cfg.launchFeeSats,
    Bytes.decimalText cfg.primaryMintFeeBps, Bytes.decimalText cfg.minContributionSats]

def tokenRecord (id : Bytes) (t : CoveToken) : Bytes :=
  colons [id.hexText, t.ticker, t.creator.hexText, Bytes.decimalText t.confirmedSupplyAtoms,
    Bytes.decimalText t.currentStage]

def tickerRecord (tick id : Bytes) : Bytes := colons [tick, id.hexText]

def balanceRecord (owner dep : Bytes) (b : CoveBalance) : Bytes :=
  colons [owner.hexText, dep.hexText, Bytes.decimalText b.availableAtoms]

def tokenRecords (state : CoveState) : Multiset Bytes :=
  state.tokens.entries.map fun e => tokenRecord e.1 e.2

def tickerRecords (state : CoveState) : Multiset Bytes :=
  state.tickerIndex.entries.map fun e => tickerRecord e.1 e.2

def balanceRecords (state : CoveState) : Multiset Bytes :=
  state.balances.entries.bind fun e => e.2.entries.map fun b => balanceRecord e.1 b.1 b.2

/-- The hashed text: six sections, with a bar between each two. -/
def stateRootText (state : CoveState) (domain : Bytes) : Bytes :=
  let lines (records : Multiset Bytes) : Bytes := Bytes.join (Bytes.ascii "\n") (Bytes.sorted records)
  Bytes.join (Bytes.ascii "\n---\n") [domain, lines (tokenRecords state),
    lines (tickerRecords state), lines (balanceRecords state), Bytes.decimalText state.reserveSats,
    Bytes.decimalText state.platformTreasurySats]

def computeStateRoot (state : CoveState) (domain : Bytes) : Bytes :=
  (Sha256.sha256 (stateRootText state domain)).hexText

def CoveIndexer.getStateRoot (config : CoveConfig) (ix : CoveIndexer) : Bytes :=
  computeStateRoot ix.state (configDomain config)

/-! The fields of a record. -/

/-- A text with neither a colon nor a line break. -/
def Plain (p : Bytes) : Prop := 0x3a ∉ p ∧ 0x0a ∉ p

instance (p : Bytes) : Decidable (Plain p) :=
  inferInstanceAs (Decidable (0x3a ∉ p ∧ 0x0a ∉ p))

/-- A text of bytes of a class that neither separator belongs to. -/
theorem plain_of_class {p : Bytes} (f : UInt8 → Bool) (hcolon : f 0x3a = false)
    (hbreak : f 0x0a = false) (h : ∀ c ∈ p, f c = true) : Plain p := by
  constructor
  · intro hc
    have hf := h _ hc
    rw [hcolon] at hf
    cases hf
  · intro hc
    have hf := h _ hc
    rw [hbreak] at hf
    cases hf

theorem plain_hexDigit : ∀ n < 16, Bytes.hexDigit n ≠ 0x3a ∧ Bytes.hexDigit n ≠ 0x0a := by decide

theorem plain_hexText (b : Bytes) : Plain b.hexText := by
  apply plain_of_class (fun c => c != 0x3a && c != 0x0a) (by decide) (by decide)
  intro c hc
  obtain ⟨x, -, hx⟩ := List.mem_flatMap.mp hc
  have hlt := x.toNat_lt
  have hdigit : ∃ n < 16, c = Bytes.hexDigit n := by
    rcases List.mem_cons.mp hx with rfl | hx
    · exact ⟨_, by omega, rfl⟩
    · exact ⟨_, by omega, List.mem_singleton.mp hx⟩
  obtain ⟨n, hn, rfl⟩ := hdigit
  have hne := plain_hexDigit n hn
  simp [hne.1, hne.2]

theorem plain_decimalText (n : Int) : Plain (Bytes.decimalText n) := by
  obtain ⟨ds, hds, he⟩ := Json.decimalText_signed n
  apply plain_of_class (fun c => c == 0x2d || Json.isDecimal c) (by decide) (by decide)
  intro c hc
  rw [he] at hc
  have hdigit : ∀ d ∈ ds, (d == 0x2d || Json.isDecimal d) = true := by
    intro d hd
    rw [hds.decimal d hd, Bool.or_true]
  split at hc
  · rcases List.mem_cons.mp hc with rfl | hc
    · rfl
    · exact hdigit c hc
  · exact hdigit c hc

theorem plain_ticker {tick : Bytes} (h : tickerText tick = true) : Plain tick := by
  simp only [tickerText, Bool.and_eq_true, List.all_eq_true] at h
  exact plain_of_class
    (fun c => (0x41 ≤ c && c ≤ 0x5a) || (0x30 ≤ c && c ≤ 0x39)) (by decide) (by decide) h.2

theorem colons_inj {parts parts' : List Bytes} (h : ∀ p ∈ parts, Plain p)
    (h' : ∀ p ∈ parts', Plain p) (hne : parts ≠ []) (hne' : parts' ≠ [])
    (heq : colons parts = colons parts') : parts = parts' :=
  Bytes.join_inj (fun p hp => (h p hp).1) (fun p hp => (h' p hp).1) hne hne' heq

/-- A record of two fields or more is a line of its own, and no bar. -/
theorem colons_line {p q : Bytes} {rest : List Bytes} (h : ∀ x ∈ p :: q :: rest, Plain x) :
    0x0a ∉ colons (p :: q :: rest) ∧ colons (p :: q :: rest) ≠ Bytes.ascii "---" ∧
      colons (p :: q :: rest) ≠ [] := by
  have hcolon : 0x3a ∈ colons (p :: q :: rest) := by
    rw [colons, Bytes.join]
    exact List.mem_append_left _ (List.mem_append_right _ (by decide))
  refine ⟨?_, ?_, ?_⟩
  · intro hbreak
    rcases Bytes.mem_join hbreak with hsep | ⟨x, hx, hin⟩
    · revert hsep
      decide
    · exact (h x hx).2 hin
  · intro hbar
    rw [hbar] at hcolon
    revert hcolon
    decide
  · intro hnil
    rw [hnil] at hcolon
    cases hcolon

/-! The sections of the text. -/

/-- A line that is neither empty nor the bar. -/
structure IsLine (l : Bytes) : Prop where
  unbroken : 0x0a ∉ l
  not_bar : l ≠ Bytes.ascii "---"
  ne_nil : l ≠ []

theorem isLine_colons {p q : Bytes} {rest : List Bytes} (h : ∀ x ∈ p :: q :: rest, Plain x) :
    IsLine (colons (p :: q :: rest)) := by
  obtain ⟨hbreak, hbar, hnil⟩ := colons_line h
  exact ⟨hbreak, hbar, hnil⟩

/-- The lines of a section; an empty section is one empty line. -/
def sectionLines (records : Multiset Bytes) : List Bytes :=
  if Bytes.sorted records = [] then [[]] else Bytes.sorted records

theorem join_sectionLines (sep : Bytes) (records : Multiset Bytes) :
    Bytes.join sep (sectionLines records) = Bytes.join sep (Bytes.sorted records) := by
  unfold sectionLines
  split_ifs with h
  · rw [h]
    rfl
  · rfl

theorem mem_sorted {records : Multiset Bytes} {l : Bytes} :
    l ∈ Bytes.sorted records ↔ l ∈ records := by
  rw [← Multiset.mem_coe, Bytes.coe_sorted]

theorem sectionLines_inj {records records' : Multiset Bytes} (h : ∀ l ∈ records, IsLine l)
    (h' : ∀ l ∈ records', IsLine l) (heq : sectionLines records = sectionLines records') :
    records = records' := by
  apply Bytes.sorted_inj.mp
  have hnil {r : Multiset Bytes} (hr : ∀ l ∈ r, IsLine l) : Bytes.sorted r ≠ [[]] := by
    intro hone
    have hin : [] ∈ r := mem_sorted.mp (by rw [hone]; exact List.mem_cons_self)
    exact (hr [] hin).ne_nil rfl
  unfold sectionLines at heq
  split_ifs at heq with hempty hempty' hempty'
  · rw [hempty, hempty']
  · exact absurd heq.symm (hnil h')
  · exact absurd heq (hnil h)
  · exact heq

def rootSections (state : CoveState) (domain : Bytes) : List (List Bytes) :=
  [[domain], sectionLines (tokenRecords state), sectionLines (tickerRecords state),
    sectionLines (balanceRecords state), [Bytes.decimalText state.reserveSats],
    [Bytes.decimalText state.platformTreasurySats]]

theorem stateRootText_eq (state : CoveState) (domain : Bytes) :
    stateRootText state domain = Bytes.join ([0x0a] ++ Bytes.ascii "---" ++ [0x0a])
      ((rootSections state domain).map (Bytes.join [0x0a])) := by
  simp only [rootSections, List.map_cons, List.map_nil, join_sectionLines]
  rfl

/-- Every record is a line. -/
structure Recorded (state : CoveState) : Prop where
  tokens : ∀ l ∈ tokenRecords state, IsLine l
  tickers : ∀ l ∈ tickerRecords state, IsLine l
  balances : ∀ l ∈ balanceRecords state, IsLine l

theorem rootSections_lines {state : CoveState} {domain : Bytes} (h : Recorded state)
    (hdomain : IsLine domain) :
    ∀ ls ∈ rootSections state domain, ls ≠ [] ∧ ∀ l ∈ ls, 0x0a ∉ l ∧ l ≠ Bytes.ascii "---" := by
  have hsection {records : Multiset Bytes} (hr : ∀ l ∈ records, IsLine l) :
      sectionLines records ≠ [] ∧
        ∀ l ∈ sectionLines records, 0x0a ∉ l ∧ l ≠ Bytes.ascii "---" := by
    unfold sectionLines
    split_ifs with hempty
    · refine ⟨List.cons_ne_nil _ _, ?_⟩
      intro l hl
      rw [List.mem_singleton.mp hl]
      decide
    · refine ⟨hempty, ?_⟩
      intro l hl
      have hline := hr l (mem_sorted.mp hl)
      exact ⟨hline.unbroken, hline.not_bar⟩
  have hnumber (n : Int) : 0x0a ∉ Bytes.decimalText n ∧ Bytes.decimalText n ≠ Bytes.ascii "---" := by
    refine ⟨(plain_decimalText n).2, ?_⟩
    intro hbar
    have hread := bigIntOf_decimalText n
    have hnone : bigIntOf (Bytes.ascii "---") = none := by decide
    rw [hbar, hnone] at hread
    cases hread
  intro ls hls
  simp only [rootSections, List.mem_cons, List.not_mem_nil, or_false] at hls
  rcases hls with rfl | rfl | rfl | rfl | rfl | rfl
  · refine ⟨List.cons_ne_nil _ _, fun l hl => ?_⟩
    rw [List.mem_singleton.mp hl]
    exact ⟨hdomain.unbroken, hdomain.not_bar⟩
  · exact hsection h.tokens
  · exact hsection h.tickers
  · exact hsection h.balances
  · exact ⟨List.cons_ne_nil _ _, fun l hl => by rw [List.mem_singleton.mp hl]; exact hnumber _⟩
  · exact ⟨List.cons_ne_nil _ _, fun l hl => by rw [List.mem_singleton.mp hl]; exact hnumber _⟩

theorem stateRootText_inj {σ σ' : CoveState} {domain domain' : Bytes} (h : Recorded σ)
    (h' : Recorded σ') (hd : IsLine domain) (hd' : IsLine domain')
    (heq : stateRootText σ domain = stateRootText σ' domain') :
    domain = domain' ∧ tokenRecords σ = tokenRecords σ' ∧ tickerRecords σ = tickerRecords σ' ∧
      balanceRecords σ = balanceRecords σ' ∧ σ.reserveSats = σ'.reserveSats ∧
      σ.platformTreasurySats = σ'.platformTreasurySats := by
  rw [stateRootText_eq, stateRootText_eq] at heq
  have hlines := rootSections_lines h hd
  have hlines' := rootSections_lines h' hd'
  have hsections := Bytes.sections_inj (by decide) (fun ls hls => (hlines ls hls).1)
    (fun ls hls => (hlines' ls hls).1) (fun ls hls => (hlines ls hls).2)
    (fun ls hls => (hlines' ls hls).2) (List.cons_ne_nil _ _) (List.cons_ne_nil _ _) heq
  simp only [rootSections, List.cons.injEq, and_true] at hsections
  obtain ⟨hdomain, htokens, htickers, hbalances, hreserve, htreasury⟩ := hsections
  exact ⟨hdomain, sectionLines_inj h.tokens h'.tokens htokens,
    sectionLines_inj h.tickers h'.tickers htickers,
    sectionLines_inj h.balances h'.balances hbalances, RootRecord.decimalText_inj.mp hreserve,
    RootRecord.decimalText_inj.mp htreasury⟩

/-! The maps behind the records. -/

section

variable {σ σ' : CoveState} {seen seen' : List Bytes}

theorem tokenRecord_plain (h : CoveInv seen σ) {id : Bytes} {t : CoveToken}
    (ht : σ.tokens.get id = some t) :
    ∀ p ∈ [id.hexText, t.ticker, t.creator.hexText, Bytes.decimalText t.confirmedSupplyAtoms,
      Bytes.decimalText t.currentStage], Plain p := by
  have hticker := plain_ticker (h.tokens id t ht).ticker
  simp [plain_hexText, plain_decimalText, hticker]

theorem tickerRecord_plain (h : CoveInv seen σ) {tick id : Bytes}
    (hi : σ.tickerIndex.get tick = some id) : ∀ p ∈ [tick, id.hexText], Plain p := by
  obtain ⟨t, ht, htick⟩ := h.resolves tick id hi
  have hticker := plain_ticker (h.tokens id t ht).ticker
  rw [htick] at hticker
  simp [plain_hexText, hticker]

theorem balanceRecord_plain (owner dep : Bytes) (b : CoveBalance) :
    ∀ p ∈ [owner.hexText, dep.hexText, Bytes.decimalText b.availableAtoms], Plain p := by
  simp [plain_hexText, plain_decimalText]

theorem mem_tokenRecords {l : Bytes} : l ∈ tokenRecords σ ↔
    ∃ id t, σ.tokens.get id = some t ∧ tokenRecord id t = l := by
  rw [tokenRecords, Multiset.mem_map]
  constructor
  · rintro ⟨e, he, hl⟩
    exact ⟨e.1, e.2, Dict.mem_entries.mp he, hl⟩
  · rintro ⟨id, t, ht, hl⟩
    exact ⟨(id, t), Dict.mem_entries.mpr ht, hl⟩

theorem mem_tickerRecords {l : Bytes} : l ∈ tickerRecords σ ↔
    ∃ tick id, σ.tickerIndex.get tick = some id ∧ tickerRecord tick id = l := by
  rw [tickerRecords, Multiset.mem_map]
  constructor
  · rintro ⟨e, he, hl⟩
    exact ⟨e.1, e.2, Dict.mem_entries.mp he, hl⟩
  · rintro ⟨tick, id, hi, hl⟩
    exact ⟨(tick, id), Dict.mem_entries.mpr hi, hl⟩

theorem mem_balanceRecords {l : Bytes} : l ∈ balanceRecords σ ↔
    ∃ owner m dep b, σ.balances.get owner = some m ∧ m.get dep = some b ∧
      balanceRecord owner dep b = l := by
  rw [balanceRecords, Multiset.mem_bind]
  constructor
  · rintro ⟨e, he, hl⟩
    obtain ⟨b, hb, hl⟩ := Multiset.mem_map.mp hl
    exact ⟨e.1, e.2, b.1, b.2, Dict.mem_entries.mp he, Dict.mem_entries.mp hb, hl⟩
  · rintro ⟨owner, m, dep, b, hm, hb, hl⟩
    exact ⟨(owner, m), Dict.mem_entries.mpr hm,
      Multiset.mem_map.mpr ⟨(dep, b), Dict.mem_entries.mpr hb, hl⟩⟩

theorem CoveInv.recorded (h : CoveInv seen σ) : Recorded σ := by
  refine ⟨?_, ?_, ?_⟩
  · intro l hl
    obtain ⟨id, t, ht, rfl⟩ := mem_tokenRecords.mp hl
    exact isLine_colons (tokenRecord_plain h ht)
  · intro l hl
    obtain ⟨tick, id, hi, rfl⟩ := mem_tickerRecords.mp hl
    exact isLine_colons (tickerRecord_plain h hi)
  · intro l hl
    obtain ⟨owner, m, dep, b, -, -, rfl⟩ := mem_balanceRecords.mp hl
    exact isLine_colons (balanceRecord_plain owner dep b)

/-- A token another ledger has a record of stands in it just so. -/
theorem token_of_records (h : CoveInv seen σ) (h' : CoveInv seen' σ')
    (heq : tokenRecords σ = tokenRecords σ') {id : Bytes} {t : CoveToken}
    (ht : σ.tokens.get id = some t) : σ'.tokens.get id = some t := by
  have hin : tokenRecord id t ∈ tokenRecords σ' := by
    rw [← heq]
    exact mem_tokenRecords.mpr ⟨id, t, ht, rfl⟩
  obtain ⟨id', t', ht', hrecord⟩ := mem_tokenRecords.mp hin
  have hparts := colons_inj (tokenRecord_plain h' ht') (tokenRecord_plain h ht)
    (List.cons_ne_nil _ _) (List.cons_ne_nil _ _) hrecord
  simp only [List.cons.injEq, RootRecord.hexText_inj, RootRecord.decimalText_inj, Nat.cast_inj,
    and_true] at hparts
  obtain ⟨rfl, hticker, hcreator, hsupply, hstage⟩ := hparts
  have hid := (h.tokens _ t ht).deploymentId
  have hid' := (h'.tokens _ t' ht').deploymentId
  have hcap := (h.tokens _ t ht).cap
  have hcap' := (h'.tokens _ t' ht').cap
  rw [ht']
  obtain ⟨deploymentId, ticker, creator, confirmed, publicSupply, stage⟩ := t
  obtain ⟨deploymentId', ticker', creator', confirmed', publicSupply', stage'⟩ := t'
  simp only at hticker hcreator hsupply hstage hid hid' hcap hcap'
  rw [hid, hid', hticker, hcreator, hsupply, hstage, hcap, hcap']

theorem ticker_of_records (h : CoveInv seen σ) (h' : CoveInv seen' σ')
    (heq : tickerRecords σ = tickerRecords σ') {tick id : Bytes}
    (hi : σ.tickerIndex.get tick = some id) : σ'.tickerIndex.get tick = some id := by
  have hin : tickerRecord tick id ∈ tickerRecords σ' := by
    rw [← heq]
    exact mem_tickerRecords.mpr ⟨tick, id, hi, rfl⟩
  obtain ⟨tick', id', hi', hrecord⟩ := mem_tickerRecords.mp hin
  have hparts := colons_inj (tickerRecord_plain h' hi') (tickerRecord_plain h hi)
    (List.cons_ne_nil _ _) (List.cons_ne_nil _ _) hrecord
  simp only [List.cons.injEq, RootRecord.hexText_inj, and_true] at hparts
  rw [← hparts.1, ← hparts.2]
  exact hi'

theorem balance_of_records (heq : balanceRecords σ = balanceRecords σ') {owner dep : Bytes}
    {m : Dict Bytes CoveBalance} {b : CoveBalance} (hm : σ.balances.get owner = some m)
    (hb : m.get dep = some b) :
    ∃ m', σ'.balances.get owner = some m' ∧ m'.get dep = some b := by
  have hin : balanceRecord owner dep b ∈ balanceRecords σ' := by
    rw [← heq]
    exact mem_balanceRecords.mpr ⟨owner, m, dep, b, hm, hb, rfl⟩
  obtain ⟨owner', m', dep', b', hm', hb', hrecord⟩ := mem_balanceRecords.mp hin
  have hparts := colons_inj (balanceRecord_plain owner' dep' b') (balanceRecord_plain owner dep b)
    (List.cons_ne_nil _ _) (List.cons_ne_nil _ _) hrecord
  simp only [List.cons.injEq, RootRecord.hexText_inj, RootRecord.decimalText_inj, and_true] at hparts
  obtain ⟨rfl, rfl, hatoms⟩ := hparts
  refine ⟨m', hm', ?_⟩
  rw [hb']
  exact congrArg (fun n => some (CoveBalance.mk n)) hatoms

/-- Pruning leaves no owner without a record, so the records are all there is. -/
theorem balances_of_records (h : BalancesInv σ) (heq : balanceRecords σ = balanceRecords σ')
    {owner : Bytes} {m : Dict Bytes CoveBalance} (hm : σ.balances.get owner = some m) :
    σ'.balances.get owner = some m := by
  obtain ⟨dep, b, hb⟩ : ∃ dep b, m.get dep = some b := by
    by_contra hnone
    apply h.nonempty owner m hm
    apply Dict.ext_get
    intro k
    rw [Dict.get_empty]
    cases hk : m.get k with
    | none => rfl
    | some v => exact absurd ⟨k, v, hk⟩ hnone
  obtain ⟨m', hm', -⟩ := balance_of_records heq hm hb
  rw [hm']
  apply congrArg some
  apply Dict.ext_get
  intro k
  have hto : ∀ v, m.get k = some v → m'.get k = some v := by
    intro v hv
    obtain ⟨m₁, hm₁, hv₁⟩ := balance_of_records heq hm hv
    rw [hm'] at hm₁
    cases hm₁
    exact hv₁
  have hback : ∀ v, m'.get k = some v → m.get k = some v := by
    intro v hv
    obtain ⟨m₁, hm₁, hv₁⟩ := balance_of_records heq.symm hm' hv
    rw [hm] at hm₁
    cases hm₁
    exact hv₁
  exact Option.ext fun v => ⟨hback v, hto v⟩

theorem state_of_records (h : CoveInv seen σ) (h' : CoveInv seen' σ')
    (htokens : tokenRecords σ = tokenRecords σ') (htickers : tickerRecords σ = tickerRecords σ')
    (hbalances : balanceRecords σ = balanceRecords σ') (hreserve : σ.reserveSats = σ'.reserveSats)
    (htreasury : σ.platformTreasurySats = σ'.platformTreasurySats) : σ = σ' := by
  refine CoveState.ext ?_ ?_ ?_ hreserve htreasury
  · exact Dict.ext_get fun k => Option.ext fun v =>
      ⟨token_of_records h h' htokens, token_of_records h' h htokens.symm⟩
  · exact Dict.ext_get fun k => Option.ext fun v =>
      ⟨ticker_of_records h h' htickers, ticker_of_records h' h htickers.symm⟩
  · exact Dict.ext_get fun k => Option.ext fun v =>
      ⟨balances_of_records h.balances hbalances,
        balances_of_records h'.balances hbalances.symm⟩

end

/-! The domain. -/

/-- The rules a state was validated under; the ceilings on fees are not among them. -/
structure SameRules (cfg cfg' : CoveConfig) : Prop where
  network : cfg.network = cfg'.network
  genesisHeight : cfg.genesisHeight = cfg'.genesisHeight
  settlementScript : cfg.settlementScript = cfg'.settlementScript
  treasuryScript : cfg.treasuryScript = cfg'.treasuryScript
  launchFeeSats : cfg.launchFeeSats = cfg'.launchFeeSats
  primaryMintFeeBps : cfg.primaryMintFeeBps = cfg'.primaryMintFeeBps
  minContributionSats : cfg.minContributionSats = cfg'.minContributionSats

theorem network_name_plain (n : Network) : Plain (Bytes.ascii n.name) := by
  cases n <;> decide

theorem network_name_inj {n n' : Network} (h : Bytes.ascii n.name = Bytes.ascii n'.name) :
    n = n' := by
  revert h
  cases n <;> cases n' <;> decide

def domainParts (cfg : CoveConfig) : List Bytes :=
  [Bytes.ascii "cove", Bytes.ascii "1", Bytes.ascii cfg.network.name,
    Bytes.decimalText cfg.genesisHeight, cfg.settlementScript.hexText, cfg.treasuryScript.hexText,
    Bytes.decimalText cfg.launchFeeSats, Bytes.decimalText cfg.primaryMintFeeBps,
    Bytes.decimalText cfg.minContributionSats]

theorem configDomain_eq (cfg : CoveConfig) : configDomain cfg = colons (domainParts cfg) := by
  have hhead : Bytes.ascii "cove:1" = Bytes.ascii "cove" ++ Bytes.ascii ":" ++ Bytes.ascii "1" := by
    decide
  simp only [configDomain, domainParts, colons, Bytes.join, hhead, List.append_assoc]

theorem domainParts_plain (cfg : CoveConfig) : ∀ p ∈ domainParts cfg, Plain p := by
  have hcove : Plain (Bytes.ascii "cove") := by decide
  have hversion : Plain (Bytes.ascii "1") := by decide
  simp [domainParts, hcove, hversion, network_name_plain, plain_hexText, plain_decimalText]

theorem configDomain_inj {cfg cfg' : CoveConfig} :
    configDomain cfg = configDomain cfg' ↔ SameRules cfg cfg' := by
  rw [configDomain_eq, configDomain_eq]
  constructor
  · intro h
    have hparts := colons_inj (domainParts_plain cfg) (domainParts_plain cfg')
      (List.cons_ne_nil _ _) (List.cons_ne_nil _ _) h
    simp only [domainParts, List.cons.injEq, RootRecord.hexText_inj, RootRecord.decimalText_inj,
      and_true, true_and] at hparts
    obtain ⟨hnetwork, hgenesis, hsettlement, htreasury, hlaunch, hbps, hmin⟩ := hparts
    exact ⟨network_name_inj hnetwork, hgenesis, hsettlement, htreasury, hlaunch, hbps, hmin⟩
  · intro h
    simp only [domainParts, h.network, h.genesisHeight, h.settlementScript, h.treasuryScript,
      h.launchFeeSats, h.primaryMintFeeBps, h.minContributionSats]

/-- Two indexers that hash the same text stand at the same ledger under the same rules, whatever
blocks led each of them there; and the other way round. -/
theorem state_root_exact {cfg cfg' : CoveConfig}
    {chain chain' : List (Int × List BitcoinProtocolTx)} {ix ix' : CoveIndexer}
    (hfee : 0 ≤ cfg.primaryMintFeeBps) (hfee' : 0 ≤ cfg'.primaryMintFeeBps)
    (h : Indexed cfg chain ix) (h' : Indexed cfg' chain' ix') :
    stateRootText ix.state (configDomain cfg) = stateRootText ix'.state (configDomain cfg') ↔
      SameRules cfg cfg' ∧ ix.state = ix'.state := by
  have hledger := (h.inv hfee).ledger
  have hledger' := (h'.inv hfee').ledger
  have hline (c : CoveConfig) : IsLine (configDomain c) := by
    rw [configDomain_eq]
    exact isLine_colons (domainParts_plain c)
  constructor
  · intro heq
    obtain ⟨hdomain, htokens, htickers, hbalances, hreserve, htreasury⟩ :=
      stateRootText_inj hledger.recorded hledger'.recorded (hline cfg) (hline cfg') heq
    exact ⟨configDomain_inj.mp hdomain,
      state_of_records hledger hledger' htokens htickers hbalances hreserve htreasury⟩
  · rintro ⟨hrules, hstate⟩
    rw [configDomain_inj.mpr hrules, hstate]

/-- The regtest run, and a run that has read nothing. -/
theorem state_root_exact_sample : ∃ ix new : CoveIndexer,
    Indexed coveV1RegtestConfig [(1, [sampleDeploy, sampleMint])] ix ∧
    Indexed coveV1RegtestConfig [] new ∧
    stateRootText ix.state (configDomain coveV1RegtestConfig) ≠
      stateRootText new.state (configDomain coveV1RegtestConfig) := by
  obtain ⟨ix, hix, hreserve⟩ := sample_indexed
  obtain ⟨new, hnew, hempty⟩ : ∃ new, CoveIndexer.new coveV1RegtestConfig = .ok new ∧
      new.state.reserveSats = 0 := ⟨_, rfl, rfl⟩
  refine ⟨ix, new, hix, .new hnew, fun htext => ?_⟩
  have hsame := (state_root_exact (by decide) (by decide) hix (.new hnew)).mp htext
  rw [hsame.2, hempty] at hreserve
  revert hreserve
  decide

end Protocol

end Cove
