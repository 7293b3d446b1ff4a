import Cove.Lib.Delimited
import Cove.Mainnet.HexText
import Cove.Market.Tasks

/-! What a listing's id is the hash of: `packages/cove-market/src/order`. A listing is the record
the route hands over, its scripts and ids the texts the seller sent. -/

namespace Cove.Order

open Checked

/-- A JavaScript number. -/
inductive Number
  | nan
  | infinite (negative : Bool)
  | finite (value : Rat)
  deriving DecidableEq, Repr

namespace Number

/-- `x < n`. -/
def below (n : Int) : Number → Bool
  | nan => false
  | infinite negative => negative
  | finite value => decide (value < n)

/-- `x > n`. -/
def above (n : Int) : Number → Bool
  | nan => false
  | infinite negative => !negative
  | finite value => decide ((n : Rat) < value)

/-- `ToUint32`: the fraction is cut off, and what is no finite number counts as zero. -/
def toUint32 : Number → Nat
  | finite value => (Int.tdiv value.num value.den % 2 ^ 32).toNat
  | _ => 0

theorem toUint32_lt (x : Number) : x.toUint32 < 256 ^ 4 := by
  cases x with
  | nan => exact Nat.pos_of_neZero _
  | infinite negative => exact Nat.pos_of_neZero _
  | finite value =>
    rw [toUint32]
    omega

end Number

structure ListingV1 where
  orderVersion : Int
  chainIdentity : String
  tokenId : Bytes
  sellerTokenScript : Bytes
  sellerPayoutScript : Bytes
  sellerTokenChangeScript : Bytes
  sourceTxid : Bytes
  sourceVout : Number
  sourceAmountAtoms : Int
  amountAtoms : Int
  totalPriceSats : Int
  creationHeight : Int
  expiryHeight : Int
  nonce : Bytes
  deriving DecidableEq, Repr

def marketOrderVersion : Int := 1

/-- `^[0-9a-f]*$`, in either case. -/
def hexDigits (text : Bytes) : Bool := text.all fun c => (Json.hexValue c).isSome

/-- `^[0-9a-f]{64}$`. -/
def smallHex64 (text : Bytes) : Bool :=
  text.length = 64 && text.all fun c => 48 ≤ c && c ≤ 57 || 97 ≤ c && c ≤ 102

def standardCarrierScript (scriptHex : Bytes) : Bool :=
  hexDigits scriptHex &&
    let script := bufferFromHex scriptHex
    isP2WPKH script || isP2TR script

def standardPayoutScript (scriptHex : Bytes) : Bool :=
  hexDigits scriptHex &&
    let script := bufferFromHex scriptHex
    isP2WPKH script || isP2TR script || isP2SH script

def validateListingShape (l : ListingV1) : Except Fault Unit := do
  ensure (l.orderVersion = marketOrderVersion)
    (marketFault "LISTING_BAD_VERSION" "orderVersion != 1")
  ensure (smallHex64 l.tokenId = true) (marketFault "LISTING_TOKEN_MISMATCH" "bad tokenId")
  ensure (smallHex64 l.sourceTxid = true) (marketFault "LISTING_BAD_SOURCE" "bad sourceTxid")
  ensure (smallHex64 l.nonce = true) (marketFault "LISTING_BAD_SOURCE" "bad nonce")
  ensure (standardCarrierScript l.sellerTokenScript = true)
    (marketFault "LISTING_BAD_SOURCE" "seller token script not standard")
  ensure (standardPayoutScript l.sellerPayoutScript = true)
    (marketFault "LISTING_BAD_SOURCE" "seller payout script not standard")
  ensure (l.sellerTokenChangeScript = l.sellerTokenScript)
    (marketFault "LISTING_BAD_SOURCE" "V1 requires the change script to equal the token script")
  ensure (l.sourceVout.below 0 = false) (marketFault "LISTING_BAD_SOURCE" "bad sourceVout")
  ensure (0 < l.amountAtoms) (marketFault "LISTING_AMOUNT_INVALID" "zero amount")
  ensure (l.amountAtoms ≤ l.sourceAmountAtoms)
    (marketFault "LISTING_AMOUNT_INVALID" "amount > source amount")
  ensure (0 < l.totalPriceSats) (marketFault "LISTING_PRICE_INVALID" "zero price")
  ensure (l.creationHeight < l.expiryHeight) (marketFault "LISTING_EXPIRED" "expiry <= creation")

def u64Max : Int := 0xffffffffffffffff

def u32Max : Int := 0xffffffff

def u16 (n : Nat) : Bytes := Bytes.ofNatBE 2 n

/-- `writeUInt32BE` of a number in its range: the bytes of its `ToUint32`. -/
def u32 (n : Number) : Bytes := Bytes.ofNatBE 4 n.toUint32

def u64 (n : Int) : Bytes := Bytes.ofNatBE 8 n.toNat

/-- What `pushScript` appends. -/
def pushScript (scriptHex : Bytes) : Except Fault Bytes := do
  ensure (hexDigits scriptHex = true) (marketFault "LISTING_BAD_SOURCE" "script not hex")
  let script := bufferFromHex scriptHex
  ensure (script.length ≤ 0xffff) (marketFault "LISTING_BAD_SOURCE" "script too long")
  return u16 script.length ++ script

/-- `Buffer.from(text, "utf8")`. -/
def utf8 (text : String) : Bytes := text.toUTF8.data.toList

def serializeListingV1 (l : ListingV1) : Except Fault Bytes := do
  ensure (l.orderVersion = marketOrderVersion)
    (marketFault "LISTING_BAD_VERSION" s!"version {l.orderVersion}")
  ensure (smallHex64 l.tokenId = true) (marketFault "LISTING_TOKEN_MISMATCH" "bad tokenId")
  ensure (smallHex64 l.sourceTxid = true) (marketFault "LISTING_BAD_SOURCE" "bad sourceTxid")
  ensure (smallHex64 l.nonce = true) (marketFault "LISTING_BAD_SOURCE" "bad nonce")
  ensure (l.sourceVout.below 0 = false ∧ l.sourceVout.above u32Max = false)
    (marketFault "LISTING_BAD_SOURCE" "bad sourceVout")
  ensure (∀ v ∈ [l.sourceAmountAtoms, l.amountAtoms, l.totalPriceSats, l.creationHeight,
    l.expiryHeight], 0 ≤ v ∧ v ≤ u64Max)
    (marketFault "LISTING_BAD_SOURCE" "value out of u64 range")
  ensure (0 < l.amountAtoms) (marketFault "LISTING_AMOUNT_INVALID" "zero amount")
  ensure (0 < l.totalPriceSats) (marketFault "LISTING_PRICE_INVALID" "zero price")
  let chain := utf8 l.chainIdentity
  ensure (chain.length ≠ 0 ∧ chain.length ≤ 0xffff)
    (marketFault "LISTING_BAD_SOURCE" "bad chainIdentity")
  let token ← pushScript l.sellerTokenScript
  let payout ← pushScript l.sellerPayoutScript
  let change ← pushScript l.sellerTokenChangeScript
  return [UInt8.ofNat l.orderVersion.toNat] ++ (u16 chain.length ++ chain) ++
    bufferFromHex l.tokenId ++ token ++ payout ++ change ++ bufferFromHex l.sourceTxid ++
    u32 l.sourceVout ++ u64 l.sourceAmountAtoms ++ u64 l.amountAtoms ++ u64 l.totalPriceSats ++
    u64 l.creationHeight ++ u64 l.expiryHeight ++ bufferFromHex l.nonce

def listingDomain : String := "Cove/Market/Listing/v1"

def listingIdOf (C : Crypto) (l : ListingV1) : Except Fault Bytes := do
  let bytes ← serializeListingV1 l
  return (taggedHash C listingDomain bytes).hexText

/-- A listing both checks let through. -/
structure Accepted (l : ListingV1) : Prop where
  shape : validateListingShape l = .ok ()
  serialized : ∃ b, serializeListingV1 l = .ok b

/-! The values behind the bytes. -/

/-- The values a listing is written as. -/
structure Fields where
  chain : Bytes
  token : Bytes
  tokenScript : Bytes
  payoutScript : Bytes
  changeScript : Bytes
  txid : Bytes
  vout : Nat
  source : Nat
  amount : Nat
  price : Nat
  creation : Nat
  expiry : Nat
  nonce : Bytes

/-- Bytes behind their length. -/
def prefixed (b : Bytes) : Bytes := u16 b.length ++ b

namespace Fields

variable (f : Fields)

def code : Bytes :=
  1 :: (prefixed f.chain ++ (f.token ++ (prefixed f.tokenScript ++ (prefixed f.payoutScript ++
    (prefixed f.changeScript ++ (f.txid ++ (Bytes.ofNatBE 4 f.vout ++ (Bytes.ofNatBE 8 f.source ++
      (Bytes.ofNatBE 8 f.amount ++ (Bytes.ofNatBE 8 f.price ++ (Bytes.ofNatBE 8 f.creation ++
        (Bytes.ofNatBE 8 f.expiry ++ f.nonce))))))))))))

/-- The values have room. -/
structure Fits : Prop where
  chain : f.chain.length < 256 ^ 2
  token : f.token.length = 32
  tokenScript : f.tokenScript.length < 256 ^ 2
  payoutScript : f.payoutScript.length < 256 ^ 2
  changeScript : f.changeScript.length < 256 ^ 2
  txid : f.txid.length = 32
  vout : f.vout < 256 ^ 4
  source : f.source < 256 ^ 8
  amount : f.amount < 256 ^ 8
  price : f.price < 256 ^ 8
  creation : f.creation < 256 ^ 8
  expiry : f.expiry < 256 ^ 8

variable {f}

/-- The bytes tell the values apart. -/
theorem code_inj {g : Fields} (hf : f.Fits) (hg : g.Fits) (h : f.code = g.code) : f = g := by
  have hscript : Delimited (fun b : Bytes => b.length < 256 ^ 2) prefixed :=
    Delimited.prefixed (Delimited.natBE 2)
  have h := (List.cons.inj h).2
  obtain ⟨hchain, h⟩ := hscript hf.chain hg.chain h
  obtain ⟨htoken, h⟩ := Delimited.field 32 hf.token hg.token h
  obtain ⟨htokenScript, h⟩ := hscript hf.tokenScript hg.tokenScript h
  obtain ⟨hpayout, h⟩ := hscript hf.payoutScript hg.payoutScript h
  obtain ⟨hchange, h⟩ := hscript hf.changeScript hg.changeScript h
  obtain ⟨htxid, h⟩ := Delimited.field 32 hf.txid hg.txid h
  obtain ⟨hvout, h⟩ := Delimited.natBE 4 hf.vout hg.vout h
  obtain ⟨hsource, h⟩ := Delimited.natBE 8 hf.source hg.source h
  obtain ⟨hamount, h⟩ := Delimited.natBE 8 hf.amount hg.amount h
  obtain ⟨hprice, h⟩ := Delimited.natBE 8 hf.price hg.price h
  obtain ⟨hcreation, h⟩ := Delimited.natBE 8 hf.creation hg.creation h
  obtain ⟨hexpiry, hnonce⟩ := Delimited.natBE 8 hf.expiry hg.expiry h
  cases f
  cases g
  simp_all

end Fields

def fieldsOf (l : ListingV1) : Fields where
  chain := utf8 l.chainIdentity
  token := bufferFromHex l.tokenId
  tokenScript := bufferFromHex l.sellerTokenScript
  payoutScript := bufferFromHex l.sellerPayoutScript
  changeScript := bufferFromHex l.sellerTokenChangeScript
  txid := bufferFromHex l.sourceTxid
  vout := l.sourceVout.toUint32
  source := l.sourceAmountAtoms.toNat
  amount := l.amountAtoms.toNat
  price := l.totalPriceSats.toNat
  creation := l.creationHeight.toNat
  expiry := l.expiryHeight.toNat
  nonce := bufferFromHex l.nonce

theorem utf8_inj {s t : String} : utf8 s = utf8 t ↔ s = t := by
  constructor
  · intro h
    exact String.toByteArray_inj.mp (ByteArray.ext (Array.toList_inj.mp h))
  · intro h
    rw [h]

theorem allHex_of_hexDigits {text : Bytes} (h : hexDigits text = true) : AllHex text :=
  List.all_eq_true.mp h

/-- Small letters leave nothing to a difference in case. -/
theorem smallHex64_spec {text : Bytes} (h : smallHex64 text = true) :
    AllHex text ∧ toLowerCase text = text ∧ text.length = 64 := by
  have hall : ∀ n : Fin 256, (48 ≤ UInt8.ofNat n ∧ UInt8.ofNat n ≤ 57 ∨
      97 ≤ UInt8.ofNat n ∧ UInt8.ofNat n ≤ 102) → (Json.hexValue (UInt8.ofNat n)).isSome = true ∧
        ¬ (65 ≤ UInt8.ofNat n ∧ UInt8.ofNat n ≤ 90) := by
    decide +kernel
  have hdigit (c : UInt8) (hc : 48 ≤ c ∧ c ≤ 57 ∨ 97 ≤ c ∧ c ≤ 102) :
      (Json.hexValue c).isSome = true ∧ ¬ (65 ≤ c ∧ c ≤ 90) := by
    have hself : UInt8.ofNat c.toNat = c := by simp
    have hc' := hall ⟨c.toNat, c.toNat_lt⟩
    rw [hself] at hc'
    exact hc' hc
  simp only [smallHex64, Bool.and_eq_true, decide_eq_true_eq, List.all_eq_true,
    Bool.or_eq_true] at h
  obtain ⟨hlength, hsmall⟩ := h
  refine ⟨fun c hc => (hdigit c (hsmall c hc)).1, ?_, hlength⟩
  rw [toLowerCase, List.map_congr_left fun c hc => if_neg (hdigit c (hsmall c hc)).2]
  exact List.map_id' text

theorem smallHex64_width {text : Bytes} (h : smallHex64 text = true) :
    (bufferFromHex text).length = 32 := by
  obtain ⟨hall, -, hlength⟩ := smallHex64_spec h
  rw [bufferFromHex_length hall, hlength]

theorem bufferFromHex_small_inj {a b : Bytes} (ha : smallHex64 a = true)
    (hb : smallHex64 b = true) : bufferFromHex a = bufferFromHex b ↔ a = b := by
  obtain ⟨haall, halower, halength⟩ := smallHex64_spec ha
  obtain ⟨hball, hblower, hblength⟩ := smallHex64_spec hb
  rw [bufferFromHex_eq_iff haall hball, wholePairs_even (by omega), wholePairs_even (by omega),
    halower, hblower]

/-! Which listings are written, and as what. -/

/-- What `serializeListingV1` asks of a listing. -/
structure Serializable (l : ListingV1) : Prop where
  version : l.orderVersion = marketOrderVersion
  tokenId : smallHex64 l.tokenId = true
  sourceTxid : smallHex64 l.sourceTxid = true
  nonce : smallHex64 l.nonce = true
  sourceVout : l.sourceVout.below 0 = false ∧ l.sourceVout.above u32Max = false
  values : ∀ v ∈ [l.sourceAmountAtoms, l.amountAtoms, l.totalPriceSats, l.creationHeight,
    l.expiryHeight], 0 ≤ v ∧ v ≤ u64Max
  amount : 0 < l.amountAtoms
  price : 0 < l.totalPriceSats
  chain : (utf8 l.chainIdentity).length ≠ 0 ∧ (utf8 l.chainIdentity).length ≤ 0xffff
  tokenScript : hexDigits l.sellerTokenScript = true ∧
    (bufferFromHex l.sellerTokenScript).length ≤ 0xffff
  payoutScript : hexDigits l.sellerPayoutScript = true ∧
    (bufferFromHex l.sellerPayoutScript).length ≤ 0xffff
  changeScript : hexDigits l.sellerTokenChangeScript = true ∧
    (bufferFromHex l.sellerTokenChangeScript).length ≤ 0xffff

theorem pushScript_eq_ok {text b : Bytes} : pushScript text = .ok b ↔
    (hexDigits text = true ∧ (bufferFromHex text).length ≤ 0xffff) ∧
      b = prefixed (bufferFromHex text) := by
  simp only [pushScript, bind_eq_ok, ensure_eq_ok, pure_eq_ok, prefixed, and_assoc]
  constructor
  · intro h
    obtain ⟨_, hhex, _, hlength, hb⟩ := h
    exact ⟨hhex, hlength, hb.symm⟩
  · intro h
    obtain ⟨hhex, hlength, hb⟩ := h
    exact ⟨(), hhex, (), hlength, hb.symm⟩

theorem serializeListingV1_eq_ok {l : ListingV1} {b : Bytes} :
    serializeListingV1 l = .ok b ↔ Serializable l ∧ b = (fieldsOf l).code := by
  have hcode (h : l.orderVersion = marketOrderVersion) :
      [UInt8.ofNat l.orderVersion.toNat] ++ (u16 (utf8 l.chainIdentity).length ++
        utf8 l.chainIdentity) ++ bufferFromHex l.tokenId ++
        prefixed (bufferFromHex l.sellerTokenScript) ++
        prefixed (bufferFromHex l.sellerPayoutScript) ++
        prefixed (bufferFromHex l.sellerTokenChangeScript) ++ bufferFromHex l.sourceTxid ++
        u32 l.sourceVout ++ u64 l.sourceAmountAtoms ++ u64 l.amountAtoms ++
        u64 l.totalPriceSats ++ u64 l.creationHeight ++ u64 l.expiryHeight ++
        bufferFromHex l.nonce = (fieldsOf l).code := by
    have hone : UInt8.ofNat l.orderVersion.toNat = 1 := by
      rw [h]
      decide
    simp only [hone, Fields.code, fieldsOf, prefixed, u32, u64, List.append_assoc,
      List.cons_append, List.nil_append]
  simp only [serializeListingV1, bind_eq_ok, ensure_eq_ok, pure_eq_ok, pushScript_eq_ok]
  constructor
  · intro hparts
    obtain ⟨_, hversion, _, htoken, _, htxid, _, hnonce, _, hvout, _, hvalues, _, hamount, _,
      hprice, _, hchain, _, ⟨htokenScript, htokenBytes⟩, _, ⟨hpayout, hpayoutBytes⟩, _,
      ⟨hchange, hchangeBytes⟩, hb⟩ := hparts
    rw [htokenBytes, hpayoutBytes, hchangeBytes, hcode hversion] at hb
    exact ⟨⟨hversion, htoken, htxid, hnonce, hvout, hvalues, hamount, hprice, hchain,
      htokenScript, hpayout, hchange⟩, hb.symm⟩
  · intro hparts
    obtain ⟨h, hb⟩ := hparts
    refine ⟨(), h.version, (), h.tokenId, (), h.sourceTxid, (), h.nonce, (), h.sourceVout, (),
      h.values, (), h.amount, (), h.price, (), h.chain, _, ⟨h.tokenScript, rfl⟩, _,
      ⟨h.payoutScript, rfl⟩, _, ⟨h.changeScript, rfl⟩, ?_⟩
    rw [hcode h.version, hb]

theorem Serializable.fits {l : ListingV1} (h : Serializable l) : (fieldsOf l).Fits := by
  have hvalue {v : Int} (hv : v ∈ [l.sourceAmountAtoms, l.amountAtoms, l.totalPriceSats,
      l.creationHeight, l.expiryHeight]) : v.toNat < 256 ^ 8 := by
    have hrange := h.values v hv
    rw [u64Max] at hrange
    omega
  have hroom {n : Nat} (hn : n ≤ 0xffff) : n < 256 ^ 2 := by omega
  constructor
  · exact hroom h.chain.2
  · exact smallHex64_width h.tokenId
  · exact hroom h.tokenScript.2
  · exact hroom h.payoutScript.2
  · exact hroom h.changeScript.2
  · exact smallHex64_width h.sourceTxid
  · exact l.sourceVout.toUint32_lt
  · exact hvalue (by simp)
  · exact hvalue (by simp)
  · exact hvalue (by simp)
  · exact hvalue (by simp)
  · exact hvalue (by simp)

/-! Which listings share their bytes. -/

/-- The fields that are written whole are equal. -/
structure SameWhole (a b : ListingV1) : Prop where
  orderVersion : a.orderVersion = b.orderVersion
  chainIdentity : a.chainIdentity = b.chainIdentity
  tokenId : a.tokenId = b.tokenId
  sourceTxid : a.sourceTxid = b.sourceTxid
  sourceAmountAtoms : a.sourceAmountAtoms = b.sourceAmountAtoms
  amountAtoms : a.amountAtoms = b.amountAtoms
  totalPriceSats : a.totalPriceSats = b.totalPriceSats
  creationHeight : a.creationHeight = b.creationHeight
  expiryHeight : a.expiryHeight = b.expiryHeight
  nonce : a.nonce = b.nonce

/-- Equal field by field, the scripts up to case. -/
structure SameListing (a b : ListingV1) : Prop extends SameWhole a b where
  sellerTokenScript : toLowerCase a.sellerTokenScript = toLowerCase b.sellerTokenScript
  sellerPayoutScript : toLowerCase a.sellerPayoutScript = toLowerCase b.sellerPayoutScript
  sellerTokenChangeScript :
    toLowerCase a.sellerTokenChangeScript = toLowerCase b.sellerTokenChangeScript
  sourceVout : a.sourceVout = b.sourceVout

/-- The listings differ, and only in what is not written: an odd last digit of the token's or the
payout's script, and what `ToUint32` cuts off the output's index. -/
structure DifferInDropped (a b : ListingV1) : Prop extends SameWhole a b where
  tokenPairs : wholePairs a.sellerTokenScript = wholePairs b.sellerTokenScript
  payoutPairs : wholePairs a.sellerPayoutScript = wholePairs b.sellerPayoutScript
  voutPart : a.sourceVout.toUint32 = b.sourceVout.toUint32
  dropped : toLowerCase a.sellerTokenScript ≠ toLowerCase b.sellerTokenScript ∨
    toLowerCase a.sellerPayoutScript ≠ toLowerCase b.sellerPayoutScript ∨
      a.sourceVout ≠ b.sourceVout

section

variable {a b : ListingV1}

theorem fieldsOf_eq_iff (ha : Serializable a) (hb : Serializable b) : fieldsOf a = fieldsOf b ↔
    SameWhole a b ∧ wholePairs a.sellerTokenScript = wholePairs b.sellerTokenScript ∧
      wholePairs a.sellerPayoutScript = wholePairs b.sellerPayoutScript ∧
        wholePairs a.sellerTokenChangeScript = wholePairs b.sellerTokenChangeScript ∧
          a.sourceVout.toUint32 = b.sourceVout.toUint32 := by
  have hscript {s t : Bytes} (hs : hexDigits s = true) (ht : hexDigits t = true) :
      bufferFromHex s = bufferFromHex t ↔ wholePairs s = wholePairs t :=
    bufferFromHex_eq_iff (allHex_of_hexDigits hs) (allHex_of_hexDigits ht)
  have hvalue {value : ListingV1 → Int} (hva : 0 ≤ value a) (hvb : 0 ≤ value b) :
      (value a).toNat = (value b).toNat ↔ value a = value b := by
    omega
  have hnonneg {l : ListingV1} (h : Serializable l) : 0 ≤ l.sourceAmountAtoms ∧
      0 ≤ l.amountAtoms ∧ 0 ≤ l.totalPriceSats ∧ 0 ≤ l.creationHeight ∧ 0 ≤ l.expiryHeight := by
    have hvalues := h.values
    simp only [List.forall_mem_cons] at hvalues
    exact ⟨hvalues.1.1, hvalues.2.1.1, hvalues.2.2.1.1, hvalues.2.2.2.1.1, hvalues.2.2.2.2.1.1⟩
  obtain ⟨hasource, haamount, haprice, hacreation, haexpiry⟩ := hnonneg ha
  obtain ⟨hbsource, hbamount, hbprice, hbcreation, hbexpiry⟩ := hnonneg hb
  rw [fieldsOf, fieldsOf, Fields.mk.injEq, utf8_inj, bufferFromHex_small_inj ha.tokenId hb.tokenId,
    hscript ha.tokenScript.1 hb.tokenScript.1, hscript ha.payoutScript.1 hb.payoutScript.1,
    hscript ha.changeScript.1 hb.changeScript.1,
    bufferFromHex_small_inj ha.sourceTxid hb.sourceTxid,
    @hvalue ListingV1.sourceAmountAtoms hasource hbsource,
    @hvalue ListingV1.amountAtoms haamount hbamount,
    @hvalue ListingV1.totalPriceSats haprice hbprice,
    @hvalue ListingV1.creationHeight hacreation hbcreation,
    @hvalue ListingV1.expiryHeight haexpiry hbexpiry, bufferFromHex_small_inj ha.nonce hb.nonce]
  constructor
  · intro hparts
    obtain ⟨hchain, htoken, htokenScript, hpayout, hchange, htxid, hvout, hsource, hamount, hprice,
      hcreation, hexpiry, hnonce⟩ := hparts
    exact ⟨⟨ha.version.trans hb.version.symm, hchain, htoken, htxid, hsource, hamount, hprice,
      hcreation, hexpiry, hnonce⟩, htokenScript, hpayout, hchange, hvout⟩
  · intro hparts
    obtain ⟨h, htokenScript, hpayout, hchange, hvout⟩ := hparts
    exact ⟨h.chainIdentity, h.tokenId, htokenScript, hpayout, hchange, h.sourceTxid, hvout,
      h.sourceAmountAtoms, h.amountAtoms, h.totalPriceSats, h.creationHeight, h.expiryHeight,
      h.nonce⟩

theorem Accepted.serializable {l : ListingV1} (h : Accepted l) : Serializable l := by
  obtain ⟨b, hb⟩ := h.serialized
  exact (serializeListingV1_eq_ok.mp hb).1

/-- An accepted listing gives the change to the token's script. -/
theorem Accepted.change {l : ListingV1} (h : Accepted l) :
    l.sellerTokenChangeScript = l.sellerTokenScript := by
  have hshape := h.shape
  simp only [validateListingShape, bind_eq_ok, ensure_eq_ok] at hshape
  obtain ⟨_, -, _, -, _, -, _, -, _, -, _, -, _, hchange, -⟩ := hshape
  exact hchange

/-- The listing as the market's records have it, its texts read as bytes. -/
def ListingV1.read (l : ListingV1) : Cove.ListingV1 where
  tokenId := bufferFromHex l.tokenId
  sellerTokenScript := bufferFromHex l.sellerTokenScript
  sellerPayoutScript := bufferFromHex l.sellerPayoutScript
  sellerTokenChangeScript := bufferFromHex l.sellerTokenChangeScript
  sourceTxid := bufferFromHex l.sourceTxid
  sourceVout := l.sourceVout.toUint32
  sourceAmountAtoms := l.sourceAmountAtoms
  amountAtoms := l.amountAtoms
  totalPriceSats := l.totalPriceSats
  creationHeight := l.creationHeight
  expiryHeight := l.expiryHeight

/-- A record read from a listing that passes the check passes its own. -/
theorem validateListingShape_read {l : ListingV1} (h : validateListingShape l = .ok ()) :
    Cove.validateListingShape l.read = .ok () := by
  simp only [validateListingShape, bind_eq_ok, ensure_eq_ok] at h
  obtain ⟨_, -, _, htoken, _, htxid, _, -, _, hcarrier, _, hpayout, _, hchange, _, -, _, hamount,
    _, hsource, _, hprice, hexpiry⟩ := h
  simp only [standardCarrierScript, Bool.and_eq_true] at hcarrier
  simp only [standardPayoutScript, Bool.and_eq_true] at hpayout
  simp only [Cove.validateListingShape, bind_eq_ok, ensure_eq_ok]
  have hchangeBytes : l.read.sellerTokenChangeScript = l.read.sellerTokenScript := by
    rw [ListingV1.read, hchange]
  exact ⟨(), smallHex64_width htoken, (), smallHex64_width htxid, (), hcarrier.2, (), hpayout.2, (),
    hchangeBytes, (), hamount, (), hsource, (), hprice, hexpiry⟩

/-- Two accepted listings have one serialization when they are equal in what is written. -/
theorem serializeListingV1_eq_iff (ha : Accepted a) (hb : Accepted b) :
    serializeListingV1 a = serializeListingV1 b ↔
      SameWhole a b ∧ wholePairs a.sellerTokenScript = wholePairs b.sellerTokenScript ∧
        wholePairs a.sellerPayoutScript = wholePairs b.sellerPayoutScript ∧
          a.sourceVout.toUint32 = b.sourceVout.toUint32 := by
  have haSerial := ha.serializable
  have hbSerial := hb.serializable
  have haCode := serializeListingV1_eq_ok.mpr ⟨haSerial, rfl⟩
  have hbCode := serializeListingV1_eq_ok.mpr ⟨hbSerial, rfl⟩
  have hfields : (fieldsOf a).code = (fieldsOf b).code ↔ fieldsOf a = fieldsOf b := by
    constructor
    · intro h
      exact Fields.code_inj haSerial.fits hbSerial.fits h
    · intro h
      rw [h]
  rw [haCode, hbCode, Except.ok.injEq, hfields, fieldsOf_eq_iff haSerial hbSerial, ha.change,
    hb.change]
  constructor
  · intro hparts
    obtain ⟨hwhole, htoken, hpayout, _, hvout⟩ := hparts
    exact ⟨hwhole, htoken, hpayout, hvout⟩
  · intro hparts
    obtain ⟨hwhole, htoken, hpayout, hvout⟩ := hparts
    exact ⟨hwhole, htoken, hpayout, htoken, hvout⟩

/-- One serialization means one listing unless the two differ in what is dropped. -/
theorem serialization_commits_iff (ha : Accepted a) (hb : Accepted b) :
    (serializeListingV1 a = serializeListingV1 b → SameListing a b) ↔ ¬ DifferInDropped a b := by
  rw [serializeListingV1_eq_iff ha hb]
  constructor
  · intro h hdiffer
    have hsame := h ⟨hdiffer.toSameWhole, hdiffer.tokenPairs, hdiffer.payoutPairs,
      hdiffer.voutPart⟩
    rcases hdiffer.dropped with htoken | hpayout | hvout
    · exact htoken hsame.sellerTokenScript
    · exact hpayout hsame.sellerPayoutScript
    · exact hvout hsame.sourceVout
  · intro hnot hparts
    obtain ⟨hwhole, htokenPairs, hpayoutPairs, hvoutPart⟩ := hparts
    have hdropped : toLowerCase a.sellerTokenScript = toLowerCase b.sellerTokenScript ∧
        toLowerCase a.sellerPayoutScript = toLowerCase b.sellerPayoutScript ∧
          a.sourceVout = b.sourceVout := by
      by_contra hne
      apply hnot
      refine ⟨hwhole, htokenPairs, hpayoutPairs, hvoutPart, ?_⟩
      by_cases htoken : toLowerCase a.sellerTokenScript = toLowerCase b.sellerTokenScript
      · by_cases hpayout : toLowerCase a.sellerPayoutScript = toLowerCase b.sellerPayoutScript
        · exact Or.inr (Or.inr fun hvout => hne ⟨htoken, hpayout, hvout⟩)
        · exact Or.inr (Or.inl hpayout)
      · exact Or.inl htoken
    obtain ⟨htoken, hpayout, hvout⟩ := hdropped
    refine ⟨hwhole, htoken, hpayout, ?_, hvout⟩
    rw [ha.change, hb.change]
    exact htoken

/-- The listing hash does not collide on these two. -/
def NoCollision (C : Crypto) (a b : ListingV1) : Prop :=
  ∀ x y, serializeListingV1 a = .ok x → serializeListingV1 b = .ok y →
    taggedHash C listingDomain x = taggedHash C listingDomain y → x = y

theorem listingIdOf_eq_iff {C : Crypto} (ha : Accepted a) (hb : Accepted b)
    (hhash : NoCollision C a b) :
    listingIdOf C a = listingIdOf C b ↔ serializeListingV1 a = serializeListingV1 b := by
  obtain ⟨x, hx⟩ := ha.serialized
  obtain ⟨y, hy⟩ := hb.serialized
  have hid {l : ListingV1} {z : Bytes} (hz : serializeListingV1 l = .ok z) :
      listingIdOf C l = .ok (taggedHash C listingDomain z).hexText := by
    rw [listingIdOf, hz]
    rfl
  rw [hid hx, hid hy, hx, hy]
  constructor
  · intro h
    have htext := congrArg bufferFromHex (Except.ok.inj h)
    rw [bufferFromHex_hexText, bufferFromHex_hexText] at htext
    rw [hhash x y hx hy htext]
  · intro h
    rw [Except.ok.inj h]

/-- The serialization, and with it the id the seller signs, is of one listing exactly when the two
do not differ in what is dropped. -/
theorem listing_commits_iff (ha : Accepted a) (hb : Accepted b) :
    ((serializeListingV1 a = serializeListingV1 b → SameListing a b) ↔ ¬ DifferInDropped a b) ∧
    ∀ C, NoCollision C a b →
      ((listingIdOf C a = listingIdOf C b → SameListing a b) ↔ ¬ DifferInDropped a b) := by
  have hserial := serialization_commits_iff ha hb
  refine ⟨hserial, ?_⟩
  intro C hhash
  rw [listingIdOf_eq_iff ha hb hhash]
  exact hserial

/-- A listing as wallets write one: whole bytes, and an output's index. -/
structure Plain (l : ListingV1) : Prop where
  token : l.sellerTokenScript.length % 2 = 0
  payout : l.sellerPayoutScript.length % 2 = 0
  vout : ∃ n : Nat, n < 2 ^ 32 ∧ l.sourceVout = .finite n

theorem toUint32_natCast {n : Nat} (h : n < 2 ^ 32) : (Number.finite n).toUint32 = n := by
  rw [Number.toUint32, Rat.num_natCast, Rat.den_natCast]
  simp only [Nat.cast_one, Int.tdiv_one]
  omega

/-- Nothing of such listings is dropped. -/
theorem Plain.not_differ (ha : Plain a) (hb : Plain b) : ¬ DifferInDropped a b := by
  intro h
  obtain ⟨m, hm, havout⟩ := ha.vout
  obtain ⟨n, hn, hbvout⟩ := hb.vout
  have htoken := h.tokenPairs
  have hpayout := h.payoutPairs
  have hvout := h.voutPart
  rw [wholePairs_even ha.token, wholePairs_even hb.token] at htoken
  rw [wholePairs_even ha.payout, wholePairs_even hb.payout] at hpayout
  rw [havout, hbvout, toUint32_natCast hm, toUint32_natCast hn] at hvout
  rcases h.dropped with hne | hne | hne
  · exact hne htoken
  · exact hne hpayout
  · apply hne
    rw [havout, hbvout, hvout]

end

/-! The listing of the order tests, and two more under its id. -/

/-- A P2WPKH script, in text. -/
def sampleScript : Bytes := Bytes.hexText (0x00 :: 0x14 :: List.replicate 20 0xaa)

def sampleListing : ListingV1 where
  orderVersion := 1
  chainIdentity := "bitcoin-regtest"
  tokenId := Bytes.hexText (List.replicate 32 0x47)
  sellerTokenScript := sampleScript
  sellerPayoutScript := sampleScript
  sellerTokenChangeScript := sampleScript
  sourceTxid := Bytes.hexText (List.replicate 32 0xaa)
  sourceVout := .finite 2
  sourceAmountAtoms := 8400000000000000
  amountAtoms := 4200000000000000
  totalPriceSats := 100000
  creationHeight := 1
  expiryHeight := 500
  nonce := Bytes.hexText (List.replicate 32 0xbb)

/-- A digit more in the payout's script. -/
def oddListing : ListingV1 :=
  { sampleListing with sellerPayoutScript := sampleScript ++ [0x30] }

/-- Half an output further. -/
def halfListing : ListingV1 := { sampleListing with sourceVout := .finite (5 / 2) }

/-- The payout's script in capitals. -/
def capitalListing : ListingV1 :=
  { sampleListing with sellerPayoutScript := sampleScript.map toUpper }

theorem accepted_of_isOk {l : ListingV1} (hshape : validateListingShape l = .ok ())
    (h : (serializeListingV1 l).isOk = true) : Accepted l := by
  cases hb : serializeListingV1 l with
  | error e =>
    rw [hb] at h
    cases h
  | ok b => exact ⟨hshape, b, hb⟩

theorem sampleListing_accepted : Accepted sampleListing :=
  accepted_of_isOk (by decide +kernel) (by decide +kernel)

/-- Three accepted listings, no two the same, and one id. -/
theorem dropped_parts_share_id : Accepted sampleListing ∧ Accepted oddListing ∧
    Accepted halfListing ∧ serializeListingV1 oddListing = serializeListingV1 sampleListing ∧
      serializeListingV1 halfListing = serializeListingV1 sampleListing ∧
        (∀ C, listingIdOf C oddListing = listingIdOf C sampleListing ∧
          listingIdOf C halfListing = listingIdOf C sampleListing) ∧
            ¬ SameListing oddListing sampleListing ∧ ¬ SameListing halfListing sampleListing := by
  have hodd : serializeListingV1 oddListing = serializeListingV1 sampleListing := by
    decide +kernel
  have hhalf : serializeListingV1 halfListing = serializeListingV1 sampleListing := by
    decide +kernel
  refine ⟨sampleListing_accepted, accepted_of_isOk (by decide +kernel) (by decide +kernel),
    accepted_of_isOk (by decide +kernel) (by decide +kernel), hodd, hhalf, ?_, ?_, ?_⟩
  · intro C
    simp only [listingIdOf, hodd, hhalf, and_self]
  · intro h
    exact absurd h.sellerPayoutScript (by decide +kernel)
  · intro h
    exact absurd h.sourceVout (by decide +kernel)

theorem listing_commits_capital :
    serializeListingV1 sampleListing = serializeListingV1 capitalListing ∧
      listingIdOf sampleCrypto sampleListing = listingIdOf sampleCrypto capitalListing ∧
        SameListing sampleListing capitalListing := by
  have hcapital : Accepted capitalListing :=
    accepted_of_isOk (by decide +kernel) (by decide +kernel)
  have hserial : serializeListingV1 sampleListing = serializeListingV1 capitalListing := by
    decide +kernel
  have hid : listingIdOf sampleCrypto sampleListing = listingIdOf sampleCrypto capitalListing := by
    rw [listingIdOf, listingIdOf, hserial]
  have hhash : NoCollision sampleCrypto sampleListing capitalListing := by
    intro x y hx hy _
    rw [← hserial, hx] at hy
    exact Except.ok.inj hy
  have hnot : ¬ DifferInDropped sampleListing capitalListing := by
    apply Plain.not_differ
    · exact ⟨by decide +kernel, by decide +kernel, 2, by decide, by decide +kernel⟩
    · exact ⟨by decide +kernel, by decide +kernel, 2, by decide, by decide +kernel⟩
  have hcommits := (listing_commits_iff sampleListing_accepted hcapital).2 sampleCrypto hhash
  exact ⟨hserial, hid, hcommits.mpr hnot hid⟩

end Cove.Order
