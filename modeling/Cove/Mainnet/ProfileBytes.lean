import Cove.Lib.Delimited
import Cove.Mainnet.HexText
import Cove.Mainnet.Profile
import Cove.Vault.Recovery

/-! The bytes a mainnet profile is hashed as: `canonicalMainnetProfileBytes` of
`packages/cove-mainnet/src/profile.ts`. -/

namespace Cove.Mainnet

open Checked

/-- The `RangeError` of Node's integer writers. -/
def outOfRange : Fault := ⟨some "ERR_OUT_OF_RANGE", "The value of \"value\" is out of range."⟩

/-- `writeUInt8`, `writeUInt16BE`, `writeUInt32BE` and `writeBigUInt64BE`. -/
def writeUInt (size : Nat) (n : Int) : Except Fault Bytes := do
  ensure (0 ≤ n ∧ n < 256 ^ size) outOfRange
  return Bytes.ofNatBE size n.toNat

/-- A text, or bytes, behind its length. -/
def str (s : Bytes) : Except Fault Bytes := do
  let len ← writeUInt 2 s.length
  return len ++ s

def h32 (hex : Bytes) : Bytes :=
  match hex with
  | 0x30 :: 0x78 :: rest => bufferFromHex rest
  | text => bufferFromHex text

/-- A flag, and the value when there is one. -/
def opt {α : Type} (write : α → Except Fault Bytes) : Option α → Except Fault Bytes
  | none => .ok [0]
  | some a => do
    let b ← write a
    return 1 :: b

/-- `Buffer.concat` of parts, the first of which that throws ends it. -/
def concatParts : List (Except Fault Bytes) → Except Fault Bytes
  | [] => .ok []
  | part :: parts => do
    let b ← part
    let rest ← concatParts parts
    return b ++ rest

theorem concatParts_append (parts parts' : List (Except Fault Bytes)) :
    concatParts (parts ++ parts') = do
      let b ← concatParts parts
      let rest ← concatParts parts'
      return b ++ rest := by
  induction parts with
  | nil =>
    show concatParts parts' = (concatParts parts' >>= fun rest => pure ([] ++ rest))
    cases concatParts parts' with
    | error e => rfl
    | ok b => rfl
  | cons part parts ih =>
    rw [List.cons_append, concatParts, concatParts, ih]
    cases part with
    | error e => rfl
    | ok b =>
      cases concatParts parts with
      | error e => rfl
      | ok rest =>
        cases concatParts parts' with
        | error e => rfl
        | ok last =>
          show Except.ok (b ++ (rest ++ last)) = Except.ok (b ++ rest ++ last)
          rw [List.append_assoc]

/-- Keys in the order of their texts in small letters. -/
def normalizePubkeys (pubkeys : List Bytes) : List Bytes :=
  pubkeys.insertionSort fun a b => Bytes.le (toLowerCase a) (toLowerCase b)

/-- Texts in small letters, in order. -/
def lowered (texts : List Bytes) : List Bytes := (texts.map toLowerCase).insertionSort Bytes.le

section

variable (p : MainnetProfile)

def headParts : List (Except Fault Bytes) := [
  writeUInt 4 p.profileVersion,
  str p.chainIdentity,
  opt (writeUInt 8) p.activationHeight,
  writeUInt 4 p.policyVersion,
  str p.vaultProfileVersion,
  opt str ((p.guardianXOnly.filter fun key => key ≠ []).map toLowerCase),
  writeUInt 1 p.recovery.threshold,
  opt (writeUInt 4) p.recovery.csvBlocks,
  writeUInt 1 p.recovery.pubkeys.length]

def middleParts : List (Except Fault Bytes) := [
  opt str (p.feeScript.map bufferFromHex),
  opt (writeUInt 2) p.buyFeeBps,
  opt (writeUInt 2) p.redeemFeeBps,
  opt (writeUInt 2) p.p2pFeeBps,
  writeUInt 8 p.carrierSats,
  writeUInt 8 p.anchorSats,
  writeUInt 8 p.maxProtocolSupplyAtoms,
  writeUInt 8 p.reserveAllocationAtoms,
  .ok (h32 p.mintCmr),
  .ok (h32 p.redeemCmr),
  opt (writeUInt 8) p.canary.maxBackingSats,
  opt (writeUInt 8) p.canary.maxSingleBuySats,
  opt (writeUInt 8) p.canary.maxSingleRedeemPayoutSats,
  opt (writeUInt 8) p.canary.maxP2pSettlementSats,
  opt (writeUInt 8) p.canary.maxMintAtoms,
  opt (writeUInt 8) p.canary.minMintGrossSats,
  writeUInt 2 p.canary.allowedWalletScripts.length]

def canonicalMainnetProfileBytes : Except Fault Bytes :=
  concatParts (headParts p ++
    (normalizePubkeys p.recovery.pubkeys).map (fun k => .ok (h32 k)) ++ middleParts p ++
    (lowered p.canary.allowedWalletScripts).map str ++
    [writeUInt 2 p.canary.allowedTokenIds.length] ++
    (lowered p.canary.allowedTokenIds).map (fun t => .ok (h32 t)))

end

/-! What a part writes, and when. -/

/-- Bytes are written under a condition; without it the part throws. -/
def Writes (part : Except Fault Bytes) (c : Prop) (b : Bytes) : Prop :=
  (c → part = .ok b) ∧ (¬ c → ∃ e, part = .error e)

namespace Writes

variable {part : Except Fault Bytes} {parts parts' : List (Except Fault Bytes)} {c c' : Prop}
  {b b' : Bytes}

theorem ok (b : Bytes) : Writes (.ok b) True b := ⟨fun _ => rfl, fun h => absurd trivial h⟩

theorem bind {f : Bytes → Bytes} (h : Writes part c b) :
    Writes (part >>= fun b => pure (f b)) c (f b) := by
  constructor
  · intro hc
    rw [h.1 hc]
    rfl
  · intro hc
    obtain ⟨e, he⟩ := h.2 hc
    exact ⟨e, by rw [he]; rfl⟩

theorem uint (size : Nat) (n : Int) :
    Writes (writeUInt size n) (0 ≤ n ∧ n < 256 ^ size) (Bytes.ofNatBE size n.toNat) := by
  constructor
  · intro h
    simp [writeUInt, ensure, h]
  · intro h
    exact ⟨outOfRange, by simp [writeUInt, ensure, h]⟩

theorem str (s : Bytes) :
    Writes (str s) (s.length < 256 ^ 2) (Bytes.ofNatBE 2 s.length ++ s) := by
  have h := bind (f := fun len => len ++ s) (uint 2 s.length)
  have hiff : (0 ≤ (s.length : Int) ∧ (s.length : Int) < 256 ^ 2) ↔ s.length < 256 ^ 2 := by
    omega
  rw [hiff] at h
  exact h

theorem some {α : Type} {write : α → Except Fault Bytes} {a : α} (h : Writes (write a) c b) :
    Writes (opt write (some a)) c (1 :: b) := bind h

theorem congr (h : Writes part c b) (hc : c ↔ c') (hb : b = b') : Writes part c' b' := by
  rw [← hc, ← hb]
  exact h

theorem nil : Writes (concatParts []) True [] := ok []

/-- Both are written, one behind the other. -/
theorem seq {part' : Except Fault Bytes} (h : Writes part c b) (h' : Writes part' c' b') :
    Writes (part >>= fun b => part' >>= fun rest => pure (b ++ rest)) (c ∧ c') (b ++ b') := by
  constructor
  · intro hc
    rw [h.1 hc.1, h'.1 hc.2]
    rfl
  · intro hc
    by_cases hfirst : c
    · obtain ⟨e, he⟩ := h'.2 fun hrest => hc ⟨hfirst, hrest⟩
      exact ⟨e, by rw [h.1 hfirst, he]; rfl⟩
    · obtain ⟨e, he⟩ := h.2 hfirst
      exact ⟨e, by rw [he]; rfl⟩

theorem cons (h : Writes part c b) (h' : Writes (concatParts parts) c' b') :
    Writes (concatParts (part :: parts)) (c ∧ c') (b ++ b') := h.seq h'

theorem append (h : Writes (concatParts parts) c b) (h' : Writes (concatParts parts') c' b') :
    Writes (concatParts (parts ++ parts')) (c ∧ c') (b ++ b') := by
  rw [concatParts_append]
  exact h.seq h'

theorem map {α : Type} {write : α → Except Fault Bytes} {cond : α → Prop} {code : α → Bytes}
    (h : ∀ a, Writes (write a) (cond a) (code a)) (l : List α) :
    Writes (concatParts (l.map write)) (∀ a ∈ l, cond a) (l.flatMap code) := by
  induction l with
  | nil => exact ⟨fun _ => rfl, fun h => absurd (by simp) h⟩
  | cons a l ih =>
    have hcons := cons (h a) ih
    rw [← List.forall_mem_cons] at hcons
    exact hcons

end Writes

/-! What a validated profile is written as. -/

/-- The values the bytes hold, of the fields a profile can differ in. -/
structure CanonicalProfile where
  activationHeight : Nat
  guardianXOnly : Bytes
  threshold : Nat
  csvBlocks : Nat
  pubkeys : List Bytes
  feeScript : Bytes
  buyFeeBps : Nat
  redeemFeeBps : Nat
  p2pFeeBps : Nat
  maxBackingSats : Nat
  maxSingleBuySats : Nat
  maxSingleRedeemPayoutSats : Nat
  maxP2pSettlementSats : Nat
  maxMintAtoms : Nat
  minMintGrossSats : Nat
  allowedWalletScripts : List Bytes
  allowedTokenIds : List Bytes
  deriving DecidableEq, Repr

def strCode (s : Bytes) : Bytes := Bytes.ofNatBE 2 s.length ++ s

def optCode (size n : Nat) : Bytes := 1 :: Bytes.ofNatBE size n

/-- The protocol's own fields. -/
def protocolCode : Bytes :=
  Bytes.ofNatBE 8 tokenCarrierSats.toNat ++ (Bytes.ofNatBE 8 reserveAnchorSats.toNat ++
    (Bytes.ofNatBE 8 publicSupplyAtoms.toNat ++ (Bytes.ofNatBE 8 graduationReserveAtoms.toNat ++
      (mintCmrV3 ++ redeemCmrV3))))

namespace CanonicalProfile

variable (c : CanonicalProfile)

def code : Bytes :=
  (Bytes.ofNatBE 4 1 ++ strCode chainBitcoinMainnet) ++ (optCode 8 c.activationHeight ++
  ((Bytes.ofNatBE 4 covePolicyV3 ++ strCode vaultProfileMainnet1) ++
  ((1 :: strCode c.guardianXOnly) ++ (Bytes.ofNatBE 1 c.threshold ++ (optCode 4 c.csvBlocks ++
  ((Bytes.ofNatBE 1 c.pubkeys.length ++ c.pubkeys.flatMap id) ++
  ((1 :: strCode c.feeScript) ++ (optCode 2 c.buyFeeBps ++ (optCode 2 c.redeemFeeBps ++
  (optCode 2 c.p2pFeeBps ++ (protocolCode ++ (optCode 8 c.maxBackingSats ++
  (optCode 8 c.maxSingleBuySats ++ (optCode 8 c.maxSingleRedeemPayoutSats ++
  (optCode 8 c.maxP2pSettlementSats ++ (optCode 8 c.maxMintAtoms ++
  (optCode 8 c.minMintGrossSats ++
  ((Bytes.ofNatBE 2 c.allowedWalletScripts.length ++ c.allowedWalletScripts.flatMap strCode) ++
  (Bytes.ofNatBE 2 c.allowedTokenIds.length ++
    c.allowedTokenIds.flatMap id)))))))))))))))))))

/-- The values fit their fields. -/
structure Fits : Prop where
  activationHeight : c.activationHeight < 256 ^ 8
  guardianXOnly : c.guardianXOnly.length < 256 ^ 2
  threshold : c.threshold < 256 ^ 1
  csvBlocks : c.csvBlocks < 256 ^ 4
  pubkeys : c.pubkeys.length < 256 ^ 1 ∧ ∀ k ∈ c.pubkeys, k.length = 32
  feeScript : c.feeScript.length < 256 ^ 2
  buyFeeBps : c.buyFeeBps < 256 ^ 2
  redeemFeeBps : c.redeemFeeBps < 256 ^ 2
  p2pFeeBps : c.p2pFeeBps < 256 ^ 2
  maxBackingSats : c.maxBackingSats < 256 ^ 8
  maxSingleBuySats : c.maxSingleBuySats < 256 ^ 8
  maxSingleRedeemPayoutSats : c.maxSingleRedeemPayoutSats < 256 ^ 8
  maxP2pSettlementSats : c.maxP2pSettlementSats < 256 ^ 8
  maxMintAtoms : c.maxMintAtoms < 256 ^ 8
  minMintGrossSats : c.minMintGrossSats < 256 ^ 8
  wallets : c.allowedWalletScripts.length < 256 ^ 2 ∧
    ∀ s ∈ c.allowedWalletScripts, s.length < 256 ^ 2
  tokens : c.allowedTokenIds.length < 256 ^ 2 ∧ ∀ t ∈ c.allowedTokenIds, t.length = 32

theorem strCode_delimited : Delimited (fun s : Bytes => s.length < 256 ^ 2) strCode :=
  Delimited.prefixed (Delimited.natBE 2)

/-- A code behind a flag. -/
theorem flagged {α : Type} {P : α → Prop} {enc : α → Bytes} (h : Delimited P enc) :
    Delimited P (fun a => 1 :: enc a) := by
  intro a b ha hb s t he
  exact h ha hb (List.cons.inj he).2

theorem optCode_delimited (size : Nat) : Delimited (fun n => n < 256 ^ size) (optCode size) :=
  flagged (Delimited.natBE size)

variable {c} in
/-- The bytes tell the values apart. -/
theorem code_inj {d : CanonicalProfile} (hc : c.Fits) (hd : d.Fits) (h : c.code = d.code) :
    c = d := by
  unfold code at h
  have hkeys : Delimited (fun l : List Bytes => l.length < 256 ^ 1 ∧ ∀ k ∈ l, k.length = 32)
      (fun l => Bytes.ofNatBE 1 l.length ++ l.flatMap id) :=
    Delimited.list (Delimited.natBE 1) (Delimited.field 32)
  have hwallets := Delimited.list (Delimited.natBE 2) strCode_delimited
  have htokens : Delimited (fun l : List Bytes => l.length < 256 ^ 2 ∧ ∀ t ∈ l, t.length = 32)
      (fun l => Bytes.ofNatBE 2 l.length ++ l.flatMap id) :=
    Delimited.list (Delimited.natBE 2) (Delimited.field 32)
  have h := List.append_cancel_left h
  obtain ⟨hheight, h⟩ := optCode_delimited 8 hc.activationHeight hd.activationHeight h
  have h := List.append_cancel_left h
  obtain ⟨hguardian, h⟩ := flagged strCode_delimited hc.guardianXOnly hd.guardianXOnly h
  obtain ⟨hthreshold, h⟩ := Delimited.natBE 1 hc.threshold hd.threshold h
  obtain ⟨hcsv, h⟩ := optCode_delimited 4 hc.csvBlocks hd.csvBlocks h
  obtain ⟨hpubkeys, h⟩ := hkeys hc.pubkeys hd.pubkeys h
  obtain ⟨hfee, h⟩ := flagged strCode_delimited hc.feeScript hd.feeScript h
  obtain ⟨hbuy, h⟩ := optCode_delimited 2 hc.buyFeeBps hd.buyFeeBps h
  obtain ⟨hredeem, h⟩ := optCode_delimited 2 hc.redeemFeeBps hd.redeemFeeBps h
  obtain ⟨hp2p, h⟩ := optCode_delimited 2 hc.p2pFeeBps hd.p2pFeeBps h
  have h := List.append_cancel_left h
  obtain ⟨hbacking, h⟩ := optCode_delimited 8 hc.maxBackingSats hd.maxBackingSats h
  obtain ⟨hsingle, h⟩ := optCode_delimited 8 hc.maxSingleBuySats hd.maxSingleBuySats h
  obtain ⟨hpayout, h⟩ :=
    optCode_delimited 8 hc.maxSingleRedeemPayoutSats hd.maxSingleRedeemPayoutSats h
  obtain ⟨hsettle, h⟩ := optCode_delimited 8 hc.maxP2pSettlementSats hd.maxP2pSettlementSats h
  obtain ⟨hmint, h⟩ := optCode_delimited 8 hc.maxMintAtoms hd.maxMintAtoms h
  obtain ⟨hminimum, h⟩ := optCode_delimited 8 hc.minMintGrossSats hd.minMintGrossSats h
  obtain ⟨hscripts, h⟩ := hwallets hc.wallets hd.wallets h
  have hids := htokens.inj hc.tokens hd.tokens h
  cases c
  cases d
  simp_all

end CanonicalProfile

/-- The values of a profile. -/
def canonicalOf (p : MainnetProfile) : CanonicalProfile where
  activationHeight := (p.activationHeight.getD 0).toNat
  guardianXOnly := toLowerCase (p.guardianXOnly.getD [])
  threshold := p.recovery.threshold.toNat
  csvBlocks := (p.recovery.csvBlocks.getD 0).toNat
  pubkeys := (normalizePubkeys p.recovery.pubkeys).map h32
  feeScript := bufferFromHex (p.feeScript.getD [])
  buyFeeBps := (p.buyFeeBps.getD 0).toNat
  redeemFeeBps := (p.redeemFeeBps.getD 0).toNat
  p2pFeeBps := (p.p2pFeeBps.getD 0).toNat
  maxBackingSats := (p.canary.maxBackingSats.getD 0).toNat
  maxSingleBuySats := (p.canary.maxSingleBuySats.getD 0).toNat
  maxSingleRedeemPayoutSats := (p.canary.maxSingleRedeemPayoutSats.getD 0).toNat
  maxP2pSettlementSats := (p.canary.maxP2pSettlementSats.getD 0).toNat
  maxMintAtoms := (p.canary.maxMintAtoms.getD 0).toNat
  minMintGrossSats := (p.canary.minMintGrossSats.getD 0).toNat
  allowedWalletScripts := lowered p.canary.allowedWalletScripts
  allowedTokenIds := (lowered p.canary.allowedTokenIds).map h32

/-- The values the validator bounds by nothing fit their fields. -/
structure Encodable (p : MainnetProfile) : Prop where
  sats : ∀ n ∈ [p.activationHeight, p.canary.maxBackingSats, p.canary.maxSingleBuySats,
    p.canary.maxSingleRedeemPayoutSats, p.canary.maxP2pSettlementSats,
    p.canary.minMintGrossSats], ∀ m ∈ n, m < 2 ^ 64
  walletCount : p.canary.allowedWalletScripts.length < 2 ^ 16
  walletScripts : ∀ s ∈ p.canary.allowedWalletScripts, s.length < 2 ^ 16
  tokenCount : p.canary.allowedTokenIds.length < 2 ^ 16

section

variable {C : Crypto} {p : MainnetProfile}

theorem allHex_of_isHex {text : Bytes} (h : isHex text = true) : AllHex text := by
  simp only [isHex, Bool.and_eq_true, List.all_eq_true] at h
  exact h.2

theorem allHex_of_hex64 {text : Bytes} (h : hex64 text = true) :
    AllHex text ∧ text.length = 64 := by
  simp only [hex64, Bool.and_eq_true, List.all_eq_true, decide_eq_true_eq] at h
  exact ⟨h.2, h.1⟩

/-- A text of digits has no prefix to strip. -/
theorem h32_eq {text : Bytes} (h : AllHex text) : h32 text = bufferFromHex text := by
  unfold h32
  split
  · have hx := h 0x78 (by simp)
    exact absurd hx (by decide)
  · rfl

theorem lowered_length (texts : List Bytes) : (lowered texts).length = texts.length := by
  rw [lowered, List.length_insertionSort, List.length_map]

theorem mem_lowered {texts : List Bytes} {t : Bytes} :
    t ∈ lowered texts ↔ ∃ s ∈ texts, toLowerCase s = t := by
  rw [lowered, List.mem_insertionSort, List.mem_map]

theorem mem_normalizePubkeys {pubkeys : List Bytes} {k : Bytes} :
    k ∈ normalizePubkeys pubkeys ↔ k ∈ pubkeys := List.mem_insertionSort _

theorem bounds_of_bpsValid {bps : Int} (h : bpsValid bps = true) : 0 ≤ bps ∧ bps ≤ 10000 := by
  simpa [bpsValid] using h

theorem bounds_of_csvValid {csv : Int} (h : csvValid csv = true) : 1 ≤ csv ∧ csv ≤ 65535 := by
  simpa [csvValid] using h

theorem ValidProfile.guardianText (h : ValidProfile C p) : ∃ key, p.guardianXOnly = some key ∧
    key ≠ [] ∧ key.length = 64 := by
  obtain ⟨key, hkey, hpoint⟩ := h.guardianXOnly
  simp only [isXOnlyKey, Bool.and_eq_true] at hpoint
  have hlength := (allHex_of_hex64 hpoint.1).2
  exact ⟨key, hkey, List.ne_nil_of_length_pos (by omega), hlength⟩

theorem normalizePubkeys_length (pubkeys : List Bytes) :
    (normalizePubkeys pubkeys).length = pubkeys.length := List.length_insertionSort _ _

theorem writes_head (h : ValidProfile C p) : Writes (concatParts (headParts p))
    (∀ m ∈ p.activationHeight, m < 2 ^ 64)
    (Bytes.ofNatBE 4 1 ++ (strCode chainBitcoinMainnet ++
      (optCode 8 (canonicalOf p).activationHeight ++ (Bytes.ofNatBE 4 covePolicyV3 ++
        (strCode vaultProfileMainnet1 ++ ((1 :: strCode (canonicalOf p).guardianXOnly) ++
          (Bytes.ofNatBE 1 (canonicalOf p).threshold ++ (optCode 4 (canonicalOf p).csvBlocks ++
            Bytes.ofNatBE 1 (canonicalOf p).pubkeys.length)))))))) := by
  obtain ⟨height, hheight, hpos⟩ := h.activationHeight
  obtain ⟨key, hkey, hne, hlength⟩ := h.guardianText
  obtain ⟨csv, hcsv, hvalid⟩ := h.csvBlocks
  have hrange := bounds_of_csvValid hvalid
  have hshape := h.recoveryShape
  have hguardian : ((p.guardianXOnly.filter fun key => key ≠ []).map toLowerCase) =
      some (toLowerCase key) := by
    simp [hkey, hne]
  rw [headParts, hheight, hguardian, hcsv, h.profileVersion, h.chainIdentity, h.policyVersion,
    h.vaultProfileVersion]
  refine ((Writes.uint 4 _).cons <| (Writes.str _).cons <| (Writes.uint 8 height).some.cons <|
    (Writes.uint 4 _).cons <| (Writes.str _).cons <| (Writes.str _).some.cons <|
    (Writes.uint 1 _).cons <| (Writes.uint 4 csv).some.cons <|
    (Writes.uint 1 _).cons Writes.nil).congr ?_ ?_
  · have hchain : chainBitcoinMainnet.length < 256 ^ 2 := by decide +kernel
    have hvault : vaultProfileMainnet1.length < 256 ^ 2 := by decide +kernel
    have hpolicy : 0 ≤ (covePolicyV3 : Int) ∧ (covePolicyV3 : Int) < 256 ^ 4 := by decide
    simp only [Option.mem_some_iff, forall_eq', toLowerCase_length, and_true]
    omega
  · simp [canonicalOf, optCode, strCode, hheight, hkey, hcsv, normalizePubkeys_length]

theorem h32_of_toLowerCase {text b : Bytes} (h : toLowerCase text = b.hexText) : h32 text = b := by
  obtain ⟨hall, hb⟩ := bufferFromHex_of_toLowerCase h
  rw [h32_eq hall, hb]

theorem isStandardMainnetScript_spec {text : Bytes} (h : isStandardMainnetScript text = true) :
    AllHex text ∧ (bufferFromHex text).length ≤ 34 := by
  simp only [isStandardMainnetScript, Bool.and_eq_true, Bool.or_eq_true] at h
  obtain ⟨hhex, hshape⟩ := h
  refine ⟨allHex_of_isHex hhex, ?_⟩
  simp only [isP2WPKH, isP2TR, isP2WSH, isP2PKH, isP2SH, Bool.and_eq_true,
    decide_eq_true_eq] at hshape
  omega

theorem writes_middle (h : ValidProfile C p) : Writes (concatParts (middleParts p))
    ((∀ n ∈ [p.canary.maxBackingSats, p.canary.maxSingleBuySats,
      p.canary.maxSingleRedeemPayoutSats, p.canary.maxP2pSettlementSats,
      p.canary.minMintGrossSats], ∀ m ∈ n, m < 2 ^ 64) ∧
        p.canary.allowedWalletScripts.length < 2 ^ 16)
    ((1 :: strCode (canonicalOf p).feeScript) ++ (optCode 2 (canonicalOf p).buyFeeBps ++
      (optCode 2 (canonicalOf p).redeemFeeBps ++ (optCode 2 (canonicalOf p).p2pFeeBps ++
        (protocolCode ++ (optCode 8 (canonicalOf p).maxBackingSats ++
          (optCode 8 (canonicalOf p).maxSingleBuySats ++
            (optCode 8 (canonicalOf p).maxSingleRedeemPayoutSats ++
              (optCode 8 (canonicalOf p).maxP2pSettlementSats ++
                (optCode 8 (canonicalOf p).maxMintAtoms ++
                  (optCode 8 (canonicalOf p).minMintGrossSats ++
                    Bytes.ofNatBE 2 (canonicalOf p).allowedWalletScripts.length))))))))))) := by
  obtain ⟨script, hscript, hstandard⟩ := h.feeScript
  obtain ⟨buy, hbuy, hbuyValid⟩ := h.buyFeeBps
  obtain ⟨redeem, hredeem, hredeemValid⟩ := h.redeemFeeBps
  obtain ⟨p2p, hp2p, hp2pValid⟩ := h.p2pFeeBps
  obtain ⟨backing, hbacking, hbackingPos⟩ := h.maxBackingSats
  obtain ⟨single, hsingle, hsinglePos⟩ := h.maxSingleBuySats
  obtain ⟨payout, hpayout, hpayoutPos⟩ := h.maxSingleRedeemPayoutSats
  obtain ⟨settle, hsettle, hsettlePos⟩ := h.maxP2pSettlementSats
  obtain ⟨mint, hmint, hmintPos, hmintLe⟩ := h.maxMintAtoms
  obtain ⟨minimum, hminimum, hminimumPos⟩ := h.minMintGrossSats
  rw [middleParts, hscript, hbuy, hredeem, hp2p, hbacking, hsingle, hpayout, hsettle, hmint,
    hminimum, h.carrierSats, h.anchorSats, h.maxProtocolSupplyAtoms, h.reserveAllocationAtoms,
    h32_of_toLowerCase h.mintCmr, h32_of_toLowerCase h.redeemCmr]
  refine ((Writes.str _).some.cons <| (Writes.uint 2 buy).some.cons <|
    (Writes.uint 2 redeem).some.cons <| (Writes.uint 2 p2p).some.cons <|
    (Writes.uint 8 _).cons <| (Writes.uint 8 _).cons <| (Writes.uint 8 _).cons <|
    (Writes.uint 8 _).cons <| (Writes.ok _).cons <| (Writes.ok _).cons <|
    (Writes.uint 8 backing).some.cons <| (Writes.uint 8 single).some.cons <|
    (Writes.uint 8 payout).some.cons <| (Writes.uint 8 settle).some.cons <|
    (Writes.uint 8 mint).some.cons <| (Writes.uint 8 minimum).some.cons <|
    (Writes.uint 2 _).cons Writes.nil).congr ?_ ?_
  · have hbounds := bounds_of_bpsValid hbuyValid
    have hbounds' := bounds_of_bpsValid hredeemValid
    have hbounds'' := bounds_of_bpsValid hp2pValid
    have hlength := (isStandardMainnetScript_spec hstandard).2
    have hcarrier : 0 ≤ tokenCarrierSats ∧ tokenCarrierSats < 256 ^ 8 := by decide
    have hanchor : 0 ≤ reserveAnchorSats ∧ reserveAnchorSats < 256 ^ 8 := by decide
    have hsupply : 0 ≤ publicSupplyAtoms ∧ publicSupplyAtoms < 256 ^ 8 := by decide
    have hreserve : 0 ≤ graduationReserveAtoms ∧ graduationReserveAtoms < 256 ^ 8 := by decide
    simp only [List.forall_mem_cons, List.not_mem_nil, false_implies, implies_true, and_true,
      true_and, Option.mem_some_iff, forall_eq']
    omega
  · simp [canonicalOf, optCode, strCode, protocolCode, hscript, hbuy, hredeem, hp2p, hbacking,
      hsingle, hpayout, hsettle, hmint, hminimum, lowered_length]

/-- A validated profile is written exactly when its open values fit, as the code of its values. -/
theorem canonicalMainnetProfileBytes_writes (h : ValidProfile C p) :
    Writes (canonicalMainnetProfileBytes p) (Encodable p) (canonicalOf p).code := by
  have hkeys := Writes.map (fun k => Writes.ok (h32 k)) (normalizePubkeys p.recovery.pubkeys)
  have hwallets : Writes (concatParts ((lowered p.canary.allowedWalletScripts).map str))
      (∀ s ∈ lowered p.canary.allowedWalletScripts, s.length < 256 ^ 2)
      ((lowered p.canary.allowedWalletScripts).flatMap strCode) := Writes.map Writes.str _
  have hcount := (Writes.uint 2 p.canary.allowedTokenIds.length).cons Writes.nil
  have htokens := Writes.map (fun t => Writes.ok (h32 t)) (lowered p.canary.allowedTokenIds)
  have hall := (((((writes_head h).append hkeys).append (writes_middle h)).append
    hwallets).append hcount).append htokens
  refine hall.congr ?_ ?_
  · have hscripts : (∀ s ∈ lowered p.canary.allowedWalletScripts, s.length < 256 ^ 2) ↔
        ∀ s ∈ p.canary.allowedWalletScripts, s.length < 2 ^ 16 := by
      constructor
      · intro hall s hs
        have hlength := hall (toLowerCase s) (mem_lowered.mpr ⟨s, hs, rfl⟩)
        rw [toLowerCase_length] at hlength
        exact hlength
      · intro hall t ht
        obtain ⟨s, hs, rfl⟩ := mem_lowered.mp ht
        rw [toLowerCase_length]
        exact hall s hs
    have hids : (0 ≤ (p.canary.allowedTokenIds.length : Int) ∧
        (p.canary.allowedTokenIds.length : Int) < 256 ^ 2) ↔
          p.canary.allowedTokenIds.length < 2 ^ 16 := by
      omega
    rw [hscripts, hids]
    simp only [implies_true, and_true]
    constructor
    · intro h
      obtain ⟨⟨⟨hheight, hsats, hcount⟩, hscripts⟩, htokens⟩ := h
      exact ⟨List.forall_mem_cons.mpr ⟨hheight, hsats⟩, hcount, hscripts, htokens⟩
    · intro h
      obtain ⟨hsats, hcount, hscripts, htokens⟩ := h
      obtain ⟨hheight, hsats⟩ := List.forall_mem_cons.mp hsats
      exact ⟨⟨⟨hheight, hsats, hcount⟩, hscripts⟩, htokens⟩
  · have hflat (l : List Bytes) : l.flatMap h32 = (l.map h32).flatMap id := by
      rw [List.flatMap_map]
      rfl
    simp only [CanonicalProfile.code, List.append_assoc, List.append_nil, hflat]
    simp [canonicalOf, lowered_length]

/-! Profiles of one value. -/

theorem lowered_eq_iff {a b : List Bytes} :
    lowered a = lowered b ↔ (a.map toLowerCase).Perm (b.map toLowerCase) := by
  have hperm (l : List Bytes) := List.perm_insertionSort Bytes.le (l.map toLowerCase)
  constructor
  · intro h
    rw [lowered, lowered] at h
    exact (hperm a).symm.trans (h ▸ hperm b)
  · intro h
    exact (((hperm a).trans h).trans (hperm b).symm).eq_of_pairwise'
      (List.pairwise_insertionSort Bytes.le _) (List.pairwise_insertionSort Bytes.le _)

/-- In small letters the order of the keys is that of their texts. -/
theorem map_normalizePubkeys (pubkeys : List Bytes) :
    (normalizePubkeys pubkeys).map toLowerCase = lowered pubkeys := by
  let r : Bytes → Bytes → Prop := fun a b => Bytes.le (toLowerCase a) (toLowerCase b)
  have : IsTrans Bytes r := ⟨fun _ _ _ h k => le_trans h k⟩
  have : Std.Total (α := Bytes) r := ⟨fun _ _ => le_total _ _⟩
  have hsorted : ((normalizePubkeys pubkeys).map toLowerCase).Pairwise Bytes.le :=
    List.pairwise_map.mpr (List.pairwise_insertionSort r pubkeys)
  have hperm := (List.perm_insertionSort r pubkeys).map toLowerCase
  exact (hperm.trans (List.perm_insertionSort Bytes.le _).symm).eq_of_pairwise' hsorted
    (List.pairwise_insertionSort Bytes.le _)

theorem h32_toLowerCase {text : Bytes} (h : hex64 text = true) :
    h32 (toLowerCase text) = h32 text := by
  obtain ⟨hall, hlength⟩ := allHex_of_hex64 h
  have hlower := allHex_toLowerCase.mpr hall
  rw [h32_eq hlower, h32_eq hall, bufferFromHex_eq_iff hlower hall]
  apply wholePairs_of_toLowerCase
  exact toLowerCase_toLowerCase text

/-- Texts of 32 bytes are told by the bytes, up to case and order. -/
theorem map_h32_lowered_iff {a b : List Bytes} (ha : ∀ t ∈ a, hex64 t = true)
    (hb : ∀ t ∈ b, hex64 t = true) : (lowered a).map h32 = (lowered b).map h32 ↔
      (a.map toLowerCase).Perm (b.map toLowerCase) := by
  have hback {l : List Bytes} (hl : ∀ t ∈ l, hex64 t = true) :
      ((lowered l).map h32).map Bytes.hexText = lowered l := by
    have hself : (lowered l).map (Bytes.hexText ∘ h32) = (lowered l).map id := ?_
    · rw [List.map_map, hself, List.map_id]
    apply List.map_congr_left
    intro t ht
    obtain ⟨s, hs, rfl⟩ := mem_lowered.mp ht
    obtain ⟨hall, hlength⟩ := allHex_of_hex64 (hl s hs)
    rw [Function.comp_apply, h32_toLowerCase (hl s hs), h32_eq hall, hexText_bufferFromHex hall,
      wholePairs_even (by omega), id]
  rw [← lowered_eq_iff]
  constructor
  · intro h
    rw [← hback ha, h, hback hb]
  · intro h
    rw [h]

theorem map_h32_normalizePubkeys {pubkeys : List Bytes} (h : ∀ k ∈ pubkeys, hex64 k = true) :
    (normalizePubkeys pubkeys).map h32 = (lowered pubkeys).map h32 := by
  rw [← map_normalizePubkeys, List.map_map]
  apply List.map_congr_left
  intro k hk
  exact (h32_toLowerCase (h k (mem_normalizePubkeys.mp hk))).symm

end

/-- Profiles that differ, up to case and order, at most in the fee's destination. -/
structure SameButFeeScript (p q : MainnetProfile) : Prop where
  profileVersion : p.profileVersion = q.profileVersion
  chainIdentity : p.chainIdentity = q.chainIdentity
  activationHeight : p.activationHeight = q.activationHeight
  policyVersion : p.policyVersion = q.policyVersion
  vaultProfileVersion : p.vaultProfileVersion = q.vaultProfileVersion
  guardianXOnly : p.guardianXOnly.map toLowerCase = q.guardianXOnly.map toLowerCase
  threshold : p.recovery.threshold = q.recovery.threshold
  pubkeys : (p.recovery.pubkeys.map toLowerCase).Perm (q.recovery.pubkeys.map toLowerCase)
  csvBlocks : p.recovery.csvBlocks = q.recovery.csvBlocks
  buyFeeBps : p.buyFeeBps = q.buyFeeBps
  redeemFeeBps : p.redeemFeeBps = q.redeemFeeBps
  p2pFeeBps : p.p2pFeeBps = q.p2pFeeBps
  carrierSats : p.carrierSats = q.carrierSats
  anchorSats : p.anchorSats = q.anchorSats
  maxProtocolSupplyAtoms : p.maxProtocolSupplyAtoms = q.maxProtocolSupplyAtoms
  reserveAllocationAtoms : p.reserveAllocationAtoms = q.reserveAllocationAtoms
  mintCmr : toLowerCase p.mintCmr = toLowerCase q.mintCmr
  redeemCmr : toLowerCase p.redeemCmr = toLowerCase q.redeemCmr
  walletScripts : (p.canary.allowedWalletScripts.map toLowerCase).Perm
    (q.canary.allowedWalletScripts.map toLowerCase)
  tokenIds : (p.canary.allowedTokenIds.map toLowerCase).Perm
    (q.canary.allowedTokenIds.map toLowerCase)
  maxBackingSats : p.canary.maxBackingSats = q.canary.maxBackingSats
  maxSingleBuySats : p.canary.maxSingleBuySats = q.canary.maxSingleBuySats
  maxSingleRedeemPayoutSats :
    p.canary.maxSingleRedeemPayoutSats = q.canary.maxSingleRedeemPayoutSats
  maxP2pSettlementSats : p.canary.maxP2pSettlementSats = q.canary.maxP2pSettlementSats
  maxMintAtoms : p.canary.maxMintAtoms = q.canary.maxMintAtoms
  minMintGrossSats : p.canary.minMintGrossSats = q.canary.minMintGrossSats

/-- Equal up to the case of hexadecimal texts and the order of keys, wallets and tokens. -/
def SameProfile (p q : MainnetProfile) : Prop :=
  SameButFeeScript p q ∧ p.feeScript.map toLowerCase = q.feeScript.map toLowerCase

/-- The profiles differ in a last odd digit of the fee's destination, and in nothing else. -/
def DiffersInOddDigit (p q : MainnetProfile) : Prop :=
  SameButFeeScript p q ∧ p.feeScript.map wholePairs = q.feeScript.map wholePairs ∧
    p.feeScript.map toLowerCase ≠ q.feeScript.map toLowerCase

section

variable {C : Crypto} {p q : MainnetProfile}

theorem toNat_getD_inj {a b : Option Int} (ha : ∃ n, a = some n ∧ 0 ≤ n)
    (hb : ∃ n, b = some n ∧ 0 ≤ n) : (a.getD 0).toNat = (b.getD 0).toNat ↔ a = b := by
  obtain ⟨m, rfl, hm⟩ := ha
  obtain ⟨n, rfl, hn⟩ := hb
  simp only [Option.getD_some, Option.some.injEq]
  omega

/-- The values of two validated profiles are one exactly when the profiles are, up to an odd last
digit of the fee's destination. -/
theorem canonicalOf_eq_iff (hp : ValidProfile C p) (hq : ValidProfile C q) :
    canonicalOf p = canonicalOf q ↔
      SameButFeeScript p q ∧ p.feeScript.map wholePairs = q.feeScript.map wholePairs := by
  have hcap {value : MainnetProfile → Option Int}
      (h : ∀ {r : MainnetProfile}, ValidProfile C r → ∃ n, value r = some n ∧ 0 < n) :
      ((value p).getD 0).toNat = ((value q).getD 0).toNat ↔ value p = value q := by
    obtain ⟨m, hm, hmpos⟩ := h hp
    obtain ⟨n, hn, hnpos⟩ := h hq
    exact toNat_getD_inj ⟨m, hm, hmpos.le⟩ ⟨n, hn, hnpos.le⟩
  have hbps {value : MainnetProfile → Option Int}
      (h : ∀ {r : MainnetProfile}, ValidProfile C r → ∃ n, value r = some n ∧ bpsValid n = true) :
      ((value p).getD 0).toNat = ((value q).getD 0).toNat ↔ value p = value q := by
    obtain ⟨m, hm, hmvalid⟩ := h hp
    obtain ⟨n, hn, hnvalid⟩ := h hq
    exact toNat_getD_inj ⟨m, hm, (bounds_of_bpsValid hmvalid).1⟩
      ⟨n, hn, (bounds_of_bpsValid hnvalid).1⟩
  have hcsv : (p.recovery.csvBlocks.getD 0).toNat = (q.recovery.csvBlocks.getD 0).toNat ↔
      p.recovery.csvBlocks = q.recovery.csvBlocks := by
    obtain ⟨m, hm, hmvalid⟩ := hp.csvBlocks
    obtain ⟨n, hn, hnvalid⟩ := hq.csvBlocks
    have hmrange := bounds_of_csvValid hmvalid
    have hnrange := bounds_of_csvValid hnvalid
    exact toNat_getD_inj ⟨m, hm, by omega⟩ ⟨n, hn, by omega⟩
  have hmint {r : MainnetProfile} (h : ValidProfile C r) :
      ∃ n, r.canary.maxMintAtoms = some n ∧ 0 < n := by
    obtain ⟨n, hn, hpos, -⟩ := h.maxMintAtoms
    exact ⟨n, hn, hpos⟩
  have hthreshold : p.recovery.threshold.toNat = q.recovery.threshold.toNat ↔
      p.recovery.threshold = q.recovery.threshold := by
    have hpshape := hp.recoveryShape
    have hqshape := hq.recoveryShape
    omega
  have hguardian : toLowerCase (p.guardianXOnly.getD []) = toLowerCase (q.guardianXOnly.getD []) ↔
      p.guardianXOnly.map toLowerCase = q.guardianXOnly.map toLowerCase := by
    obtain ⟨a, ha, -⟩ := hp.guardianXOnly
    obtain ⟨b, hb, -⟩ := hq.guardianXOnly
    simp [ha, hb]
  have hfee : bufferFromHex (p.feeScript.getD []) = bufferFromHex (q.feeScript.getD []) ↔
      p.feeScript.map wholePairs = q.feeScript.map wholePairs := by
    obtain ⟨a, ha, hastandard⟩ := hp.feeScript
    obtain ⟨b, hb, hbstandard⟩ := hq.feeScript
    have hiff := bufferFromHex_eq_iff (isStandardMainnetScript_spec hastandard).1
      (isStandardMainnetScript_spec hbstandard).1
    simp [ha, hb, hiff]
  have hhex {r : MainnetProfile} (h : ValidProfile C r) :
      ∀ k ∈ r.recovery.pubkeys, hex64 k = true := by
    intro k hk
    have hpoint := h.pubkeys k hk
    simp only [isXOnlyKey, Bool.and_eq_true] at hpoint
    exact hpoint.1
  have hkeys : (normalizePubkeys p.recovery.pubkeys).map h32 =
      (normalizePubkeys q.recovery.pubkeys).map h32 ↔
        (p.recovery.pubkeys.map toLowerCase).Perm (q.recovery.pubkeys.map toLowerCase) := by
    rw [map_h32_normalizePubkeys (hhex hp), map_h32_normalizePubkeys (hhex hq)]
    exact map_h32_lowered_iff (hhex hp) (hhex hq)
  have htokens := map_h32_lowered_iff hp.tokenIds hq.tokenIds
  have hwallets := @lowered_eq_iff p.canary.allowedWalletScripts q.canary.allowedWalletScripts
  rw [canonicalOf, canonicalOf, CanonicalProfile.mk.injEq, hcap ValidProfile.activationHeight,
    hguardian, hthreshold, hcsv, hkeys, hfee, hbps ValidProfile.buyFeeBps,
    hbps ValidProfile.redeemFeeBps, hbps ValidProfile.p2pFeeBps, hcap ValidProfile.maxBackingSats,
    hcap ValidProfile.maxSingleBuySats, hcap ValidProfile.maxSingleRedeemPayoutSats,
    hcap ValidProfile.maxP2pSettlementSats, hcap hmint, hcap ValidProfile.minMintGrossSats,
    hwallets, htokens]
  constructor
  · intro hparts
    obtain ⟨hheight, hguardian, hthreshold, hcsv, hkeys, hfee, hbuy, hredeem, hp2p, hbacking,
      hsingle, hpayout, hsettle, hmint, hminimum, hwallets, htokens⟩ := hparts
    exact ⟨⟨hp.profileVersion.trans hq.profileVersion.symm,
      hp.chainIdentity.trans hq.chainIdentity.symm, hheight,
      hp.policyVersion.trans hq.policyVersion.symm,
      hp.vaultProfileVersion.trans hq.vaultProfileVersion.symm, hguardian, hthreshold, hkeys, hcsv,
      hbuy, hredeem, hp2p, hp.carrierSats.trans hq.carrierSats.symm,
      hp.anchorSats.trans hq.anchorSats.symm,
      hp.maxProtocolSupplyAtoms.trans hq.maxProtocolSupplyAtoms.symm,
      hp.reserveAllocationAtoms.trans hq.reserveAllocationAtoms.symm,
      hp.mintCmr.trans hq.mintCmr.symm, hp.redeemCmr.trans hq.redeemCmr.symm, hwallets, htokens,
      hbacking, hsingle, hpayout, hsettle, hmint, hminimum⟩, hfee⟩
  · intro hparts
    obtain ⟨h, hfee⟩ := hparts
    exact ⟨h.activationHeight, h.guardianXOnly, h.threshold, h.csvBlocks, h.pubkeys, hfee,
      h.buyFeeBps, h.redeemFeeBps, h.p2pFeeBps, h.maxBackingSats, h.maxSingleBuySats,
      h.maxSingleRedeemPayoutSats, h.maxP2pSettlementSats, h.maxMintAtoms, h.minMintGrossSats,
      h.walletScripts, h.tokenIds⟩

/-- What a validated profile is written as fits its fields where it is written. -/
theorem canonicalOf_fits (h : ValidProfile C p) (hp : Encodable p) : (canonicalOf p).Fits := by
  have hsats {n : Option Int} (hn : ∃ m, n = some m ∧ 0 < m) (hmem : n ∈ [p.activationHeight,
      p.canary.maxBackingSats, p.canary.maxSingleBuySats, p.canary.maxSingleRedeemPayoutSats,
      p.canary.maxP2pSettlementSats, p.canary.minMintGrossSats]) :
      (n.getD 0).toNat < 256 ^ 8 := by
    obtain ⟨m, hm, -⟩ := hn
    have hlt := hp.sats n hmem m hm
    rw [hm, Option.getD_some]
    omega
  have hbps {n : Option Int} (hn : ∃ m, n = some m ∧ bpsValid m = true) :
      (n.getD 0).toNat < 256 ^ 2 := by
    obtain ⟨m, hm, hvalid⟩ := hn
    have hrange := bounds_of_bpsValid hvalid
    rw [hm, Option.getD_some]
    omega
  obtain ⟨key, hkey, -, hkeyLength⟩ := h.guardianText
  obtain ⟨csv, hcsv, hcsvValid⟩ := h.csvBlocks
  obtain ⟨script, hscript, hstandard⟩ := h.feeScript
  obtain ⟨mint, hmint, -, hmintLe⟩ := h.maxMintAtoms
  have hshape := h.recoveryShape
  have hcsvRange := bounds_of_csvValid hcsvValid
  have hscriptLength := (isStandardMainnetScript_spec hstandard).2
  have hsupply : publicSupplyAtoms < 256 ^ 8 := by decide
  have hwidth {text : Bytes} (ht : hex64 text = true) : (h32 text).length = 32 := by
    obtain ⟨hall, hlength⟩ := allHex_of_hex64 ht
    rw [h32_eq hall, bufferFromHex_length hall, hlength]
  have hkeys : ∀ k ∈ (normalizePubkeys p.recovery.pubkeys).map h32, k.length = 32 := by
    intro b hb
    obtain ⟨k, hk, rfl⟩ := List.mem_map.mp hb
    have hpoint := h.pubkeys k (mem_normalizePubkeys.mp hk)
    simp only [isXOnlyKey, Bool.and_eq_true] at hpoint
    exact hwidth hpoint.1
  have htokens : ∀ t ∈ (lowered p.canary.allowedTokenIds).map h32, t.length = 32 := by
    intro b hb
    obtain ⟨t, ht, rfl⟩ := List.mem_map.mp hb
    obtain ⟨s, hs, rfl⟩ := mem_lowered.mp ht
    rw [h32_toLowerCase (h.tokenIds s hs)]
    exact hwidth (h.tokenIds s hs)
  have hwallets : ∀ s ∈ lowered p.canary.allowedWalletScripts, s.length < 256 ^ 2 := by
    intro t ht
    obtain ⟨s, hs, rfl⟩ := mem_lowered.mp ht
    rw [toLowerCase_length]
    exact hp.walletScripts s hs
  constructor
  · exact hsats h.activationHeight (by simp)
  · simp [canonicalOf, hkey, toLowerCase_length, hkeyLength]
  · dsimp only [canonicalOf]
    omega
  · dsimp only [canonicalOf]
    rw [hcsv, Option.getD_some]
    omega
  · refine ⟨?_, hkeys⟩
    dsimp only [canonicalOf]
    rw [List.length_map, normalizePubkeys_length]
    omega
  · dsimp only [canonicalOf]
    rw [hscript, Option.getD_some]
    omega
  · exact hbps h.buyFeeBps
  · exact hbps h.redeemFeeBps
  · exact hbps h.p2pFeeBps
  · exact hsats h.maxBackingSats (by simp)
  · exact hsats h.maxSingleBuySats (by simp)
  · exact hsats h.maxSingleRedeemPayoutSats (by simp)
  · exact hsats h.maxP2pSettlementSats (by simp)
  · dsimp only [canonicalOf]
    rw [hmint, Option.getD_some]
    omega
  · exact hsats h.minMintGrossSats (by simp)
  · refine ⟨?_, hwallets⟩
    dsimp only [canonicalOf]
    rw [lowered_length]
    exact hp.walletCount
  · refine ⟨?_, htokens⟩
    dsimp only [canonicalOf]
    rw [List.length_map, lowered_length]
    exact hp.tokenCount

theorem code_eq_iff (hp : ValidProfile C p) (hq : ValidProfile C q) (hpe : Encodable p)
    (hqe : Encodable q) : (canonicalOf p).code = (canonicalOf q).code ↔
      SameButFeeScript p q ∧ p.feeScript.map wholePairs = q.feeScript.map wholePairs := by
  rw [← canonicalOf_eq_iff hp hq]
  constructor
  · intro h
    exact CanonicalProfile.code_inj (canonicalOf_fits hp hpe) (canonicalOf_fits hq hqe) h
  · intro h
    rw [h]

/-- Agreement in what is written is agreement up to case and order, but for the odd digit. -/
theorem sameProfile_iff (hp : ValidProfile C p) (hq : ValidProfile C q) :
    (SameButFeeScript p q ∧ p.feeScript.map wholePairs = q.feeScript.map wholePairs ↔
      SameProfile p q) ↔ ¬ DiffersInOddDigit p q := by
  have hpairs : p.feeScript.map toLowerCase = q.feeScript.map toLowerCase →
      p.feeScript.map wholePairs = q.feeScript.map wholePairs := by
    obtain ⟨a, ha, -⟩ := hp.feeScript
    obtain ⟨b, hb, -⟩ := hq.feeScript
    rw [ha, hb]
    intro h
    exact congrArg some (wholePairs_of_toLowerCase (Option.some.inj h))
  constructor
  · intro hiff hdiff
    exact hdiff.2.2 (hiff.mp ⟨hdiff.1, hdiff.2.1⟩).2
  · intro hnot
    constructor
    · intro hparts
      obtain ⟨hbut, hfee⟩ := hparts
      exact ⟨hbut, by_contra fun hne => hnot ⟨hbut, hfee, hne⟩⟩
    · intro hparts
      obtain ⟨hbut, hfee⟩ := hparts
      exact ⟨hbut, hpairs hfee⟩

/-- A profile whose bytes are written has values that fit. -/
theorem encodable_of_ok (hp : ValidProfile C p) {a : Bytes}
    (h : canonicalMainnetProfileBytes p = .ok a) : Encodable p ∧ a = (canonicalOf p).code := by
  obtain ⟨hok, herror⟩ := canonicalMainnetProfileBytes_writes hp
  have hencodable : Encodable p := by
    by_contra hnot
    obtain ⟨e, he⟩ := herror hnot
    rw [he] at h
    cases h
  rw [hok hencodable] at h
  exact ⟨hencodable, (Except.ok.inj h).symm⟩

/-- Both profiles are written, and in the same bytes exactly when they are one, if and only if
their open values fit and they do not differ in an odd last digit of the fee's destination alone. -/
theorem profile_bytes_commit_iff {keys : TestKeys} {allowTestKeys : Bool}
    (hp : validateMainnetProfile C keys p allowTestKeys = [])
    (hq : validateMainnetProfile C keys q allowTestKeys = []) :
    (∃ a b, canonicalMainnetProfileBytes p = .ok a ∧ canonicalMainnetProfileBytes q = .ok b ∧
      (a = b ↔ SameProfile p q)) ↔
    Encodable p ∧ Encodable q ∧ ¬ DiffersInOddDigit p q := by
  have hpvalid := validateMainnetProfile_eq_nil hp
  have hqvalid := validateMainnetProfile_eq_nil hq
  constructor
  · intro h
    obtain ⟨a, b, ha, hb, hiff⟩ := h
    obtain ⟨hpe, rfl⟩ := encodable_of_ok hpvalid ha
    obtain ⟨hqe, rfl⟩ := encodable_of_ok hqvalid hb
    rw [code_eq_iff hpvalid hqvalid hpe hqe] at hiff
    exact ⟨hpe, hqe, (sameProfile_iff hpvalid hqvalid).mp hiff⟩
  · intro h
    obtain ⟨hpe, hqe, hdigit⟩ := h
    refine ⟨_, _, (canonicalMainnetProfileBytes_writes hpvalid).1 hpe,
      (canonicalMainnetProfileBytes_writes hqvalid).1 hqe, ?_⟩
    rw [code_eq_iff hpvalid hqvalid hpe hqe]
    exact (sameProfile_iff hpvalid hqvalid).mpr hdigit

end

/-! A cap of eight bytes and a bit, and a digit too many. -/

/-- The profile whose fee destination has an odd digit at its end. -/
def oddFeeProfile : MainnetProfile :=
  { profileWithCap 60000000 with
    feeScript := some (sampleConfig.feeScript.hexText ++ [0x30]) }

/-- The profile with the Guardian's key in capitals. -/
def capitalProfile : MainnetProfile :=
  { profileWithCap 60000000 with
    guardianXOnly := some (sampleConfig.guardianXOnly.hexText.map toUpper) }

theorem sampleProfile_validates :
    validateMainnetProfile recoveryCrypto sampleTestKeys (profileWithCap 60000000) false = [] := by
  decide +kernel

/-- Of two validated profiles the first is not written, and of two others the bytes are one. -/
theorem profile_bytes_throw_or_collide :
    validateMainnetProfile recoveryCrypto sampleTestKeys (profileWithCap (2 ^ 64)) false = [] ∧
    canonicalMainnetProfileBytes (profileWithCap (2 ^ 64)) = .error outOfRange ∧
    validateMainnetProfile recoveryCrypto sampleTestKeys (profileWithCap 60000000) false = [] ∧
    validateMainnetProfile recoveryCrypto sampleTestKeys oddFeeProfile false = [] ∧
    (canonicalMainnetProfileBytes oddFeeProfile).isOk = true ∧
    canonicalMainnetProfileBytes oddFeeProfile =
      canonicalMainnetProfileBytes (profileWithCap 60000000) ∧
    ¬ SameProfile oddFeeProfile (profileWithCap 60000000) := by
  refine ⟨?_, ?_, sampleProfile_validates, ?_, ?_, ?_, ?_⟩
  · decide +kernel
  · decide +kernel
  · decide +kernel
  · decide +kernel
  · decide +kernel
  · intro h
    exact absurd h.2 (by decide +kernel)

theorem profileWithCap_encodable : Encodable (profileWithCap 60000000) := by
  constructor
  · decide +kernel
  · decide
  · decide +kernel
  · decide

/-- Capitals make no difference to the bytes. -/
theorem profile_bytes_commit_capital : ∃ a b,
    canonicalMainnetProfileBytes (profileWithCap 60000000) = .ok a ∧
    canonicalMainnetProfileBytes capitalProfile = .ok b ∧
      (a = b ↔ SameProfile (profileWithCap 60000000) capitalProfile) := by
  have hp := sampleProfile_validates
  have hq : validateMainnetProfile recoveryCrypto sampleTestKeys capitalProfile false = [] := by
    decide +kernel
  apply (profile_bytes_commit_iff hp hq).mpr
  have hencodable := profileWithCap_encodable
  refine ⟨hencodable, ⟨hencodable.sats, hencodable.walletCount, hencodable.walletScripts,
    hencodable.tokenCount⟩, ?_⟩
  intro h
  exact h.2.2 rfl

end Cove.Mainnet
