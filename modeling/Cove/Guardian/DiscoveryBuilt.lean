import Cove.Guardian.Built
import Cove.Lib.JsonRoundTrip
import Cove.Wire.RoundTrip

/-! Whether the discovery output a mint's builder adds is one `checkDiscoveryOutput` reads: the
builder pushes up to 80 bytes with one length byte, the reader takes a push of up to 75. -/

namespace Cove

open Checked

/-- The most bytes one length byte pushes. -/
def directPushLimit : Nat := 75

/-! The payload of a mint. -/

def mintEnvelope (tick : Bytes) (amount : Int) : DiscoveryEnvelope :=
  ⟨coveProtocolId, Bytes.ascii "mint", some tick, some (Bytes.decimalText amount)⟩

/-- The object a discovery envelope with all four fields is the text of. -/
def discoveryObject (p op tick amt : Bytes) : Json := .obj [
  (Bytes.ascii "p", .str p),
  (Bytes.ascii "op", .str op),
  (Bytes.ascii "tick", .str tick),
  (Bytes.ascii "amt", .str amt)]

theorem serializeDiscovery_eq (p op tick amt : Bytes) :
    serializeDiscovery ⟨p, op, some tick, some amt⟩ =
      Json.stringify (discoveryObject p op tick amt) := by
  simp [serializeDiscovery, discoveryObject, Json.stringify, Json.stringifyMembers, Bytes.join]

/-- The fixed part of a mint's payload takes 45 bytes. -/
theorem length_mintEnvelope (tick : Bytes) (amount : Int) :
    (serializeDiscovery (mintEnvelope tick amount)).length =
      45 + tick.length + (Bytes.decimalText amount).length := by
  have hp : coveProtocolId.length = 6 := by decide
  have hop : (Bytes.ascii "mint").length = 4 := by decide
  have h1 : (Bytes.ascii "p").length = 1 := by decide
  have h2 : (Bytes.ascii "op").length = 2 := by decide
  have h3 : (Bytes.ascii "tick").length = 4 := by decide
  have h4 : (Bytes.ascii "amt").length = 3 := by decide
  rw [mintEnvelope, serializeDiscovery_eq]
  simp only [discoveryObject, Json.stringify, Json.stringifyMembers, Json.quote, List.isEmpty_cons,
    List.isEmpty_nil, Bool.false_eq_true, if_false, if_true, List.length_append, List.length_cons,
    List.length_nil, hp, hop, h1, h2, h3, h4]
  omega

/-! The texts in it need no escapes. -/

theorem plain_of_alnum {c : UInt8} (h : isLetter c || isDigit c) :
    c ≠ 0x22 ∧ c ≠ 0x5c ∧ ¬ c < 0x20 :=
  forall_byte (P := fun c => isLetter c || isDigit c → c ≠ 0x22 ∧ c ≠ 0x5c ∧ ¬ c < 0x20)
    (by decide +kernel) c h

theorem plainText_ticker {tick : Bytes} (h : tickerShape tick) : Json.PlainText tick := by
  intro c hc
  apply plain_of_alnum
  cases tick with
  | nil => cases hc
  | cons d ds =>
    simp only [tickerShape, Bool.and_eq_true, List.all_eq_true] at h
    rcases List.mem_cons.mp hc with rfl | hc
    · rw [h.1.1, Bool.true_or]
    · exact h.1.2 c hc

/-! Reading it back. -/

theorem fields_discoveryObject (p op tick amt : Bytes) :
    (discoveryObject p op tick amt).field (Bytes.ascii "p") = some (.str p) ∧
    (discoveryObject p op tick amt).field (Bytes.ascii "op") = some (.str op) ∧
    (discoveryObject p op tick amt).field (Bytes.ascii "tick") = some (.str tick) ∧
    (discoveryObject p op tick amt).field (Bytes.ascii "amt") = some (.str amt) :=
  ⟨rfl, rfl, rfl, rfl⟩

theorem decodeDiscovery_mint {tick : Bytes} (htick : tickerShape tick) (amount : Int) :
    decodeDiscovery (serializeDiscovery (mintEnvelope tick amount)) =
      some (mintEnvelope tick amount) := by
  have hplain : Json.Plain (discoveryObject coveProtocolId (Bytes.ascii "mint") tick
      (Bytes.decimalText amount)) := by
    have hname : ∀ name ∈ ["p", "op", "tick", "amt", "crc-20", "mint"],
        Json.PlainText (Bytes.ascii name) := by
      unfold Json.PlainText
      decide +kernel
    simp only [discoveryObject, Json.Plain, Json.PlainMembers]
    exact ⟨hname "p" (by simp), hname "crc-20" (by simp), hname "op" (by simp),
      hname "mint" (by simp), hname "tick" (by simp), plainText_ticker htick, hname "amt" (by simp),
      Json.plainText_decimal amount, trivial⟩
  have hne : tick ≠ [] := by
    intro h
    rw [h] at htick
    cases htick
  obtain ⟨hp, hop, ht, ha⟩ := fields_discoveryObject coveProtocolId (Bytes.ascii "mint") tick
    (Bytes.decimalText amount)
  rw [mintEnvelope, serializeDiscovery_eq, decodeDiscovery, Json.parse_stringify hplain]
  simp only [Option.bind_eq_bind, Option.bind_some, hp, hop, ht, ha, jsonText, guard, if_true,
    Option.getD_some, if_neg hne]
  rfl

/-- The encoder takes a ticker and an amount that leave the payload within its limit. -/
theorem encodeDiscovery_mint {tokenId payload ticker : Bytes} {amount : Int} {recipientVout : Nat}
    (h : encodeDiscovery (.mint tokenId amount recipientVout) (some ticker) = .ok payload) :
    tickerShape ticker ∧
      payload = serializeDiscovery (mintEnvelope (ticker.map toUpper) amount) ∧
      payload.length ≤ datacarrierPayloadLimit := by
  simp only [encodeDiscovery, discoveryFor, bind_eq_ok, pure_eq_ok] at h
  obtain ⟨env, henv, h⟩ := h
  subst henv
  simp only [if_true, bind_eq_ok, pure_eq_ok, ensure_eq_ok, map_eq_ok, canonicalTicker_eq_ok] at h
  obtain ⟨_, ⟨t, ⟨hshape, rfl⟩, rfl⟩, _, hlen, rfl⟩ := h
  have hne : some (ticker.map toUpper) ≠ some [] := by
    intro hnil
    rw [Option.some.injEq, List.map_eq_nil_iff] at hnil
    rw [hnil] at hshape
    cases hshape
  rw [if_neg hne] at hlen
  rw [if_neg hne]
  exact ⟨hshape, rfl, hlen⟩

/-- One length byte pushes what the reader takes just up to the limit. -/
theorem opReturnPayload_script {payload : Bytes} (h : payload.length < 256) :
    opReturnPayload (opReturnScript payload) =
      if payload.length ≤ directPushLimit then some payload else none := by
  have hbyte := opReturnScript_push h
  have hlen := length_opReturnScript payload
  have hlimit : (0x4b : UInt8) < (opReturnScript payload).getD 1 0 ↔
      ¬ payload.length ≤ directPushLimit := by
    rw [UInt8.lt_iff_toNat_lt, hbyte, directPushLimit]
    show 75 < payload.length ↔ _
    omega
  have hfront : ¬ ((opReturnScript payload).length < 2 ∨
      (opReturnScript payload).getD 0 0 ≠ 0x6a) := by
    rw [hlen, not_or, not_not]
    exact ⟨by omega, rfl⟩
  rw [opReturnPayload, if_neg hfront, hlen, hbyte]
  by_cases hle : payload.length ≤ directPushLimit
  · rw [if_neg (by rw [hlimit]; omega), if_pos hle]
    rfl
  · rw [if_pos (.inl (hlimit.mpr hle)), if_neg hle]

/-- The reader finds the encoder's own output present and agreeing, or no discovery output at all. -/
theorem checkDiscoveryOutput_mint {outs : List TxOut} {tokenId payload ticker : Bytes} {amount : Int}
    {recipientVout : Nat} (houts : outs ≠ [])
    (h : encodeDiscovery (.mint tokenId amount recipientVout) (some ticker) = .ok payload) :
    checkDiscoveryOutput (outs ++ [⟨opReturnScript payload, 0⟩])
        (.mint tokenId amount recipientVout) (some ticker) =
      if payload.length ≤ directPushLimit then ⟨true, true, 1, none⟩ else ⟨false, false, 0, none⟩ := by
  obtain ⟨hshape, hpayload, hlimit⟩ := encodeDiscovery_mint h
  have hpush : opReturnPayload (opReturnScript payload) =
      if payload.length ≤ directPushLimit then some payload else none := by
    apply opReturnPayload_script
    unfold datacarrierPayloadLimit at hlimit
    omega
  have hpos := List.length_pos_of_ne_nil houts
  have hcount : ¬ (outs ++ [(⟨opReturnScript payload, 0⟩ : TxOut)]).length < 2 := by
    rw [List.length_append, List.length_singleton]
    omega
  have hdecode := decodeDiscovery_mint (tickerShape_upper hshape) amount
  rw [← hpayload] at hdecode
  have hagrees : discoveryAgreesWithBinary payload (.mint tokenId amount recipientVout)
      (some ticker) = true := by
    simp [discoveryAgreesWithBinary, h]
  simp only [checkDiscoveryOutput, List.getLast?_append, List.getLast?_singleton, Option.some_or,
    if_neg hcount, hpush]
  by_cases hle : payload.length ≤ directPushLimit
  · simp [hle, hdecode, hagrees]
  · simp [hle]

/-- The digits of an amount in atoms. -/
def digitCount (amount : Int) : Nat := (Bytes.decimalText amount).length

/-- The reader finds a built mint's discovery output, or none at all when it is too long. -/
theorem buildMintPsbtV3_discovery {C : Crypto} {scriptForKind : ScriptForKind}
    {params : MintParams} {r : MintResult} {ticker : Bytes}
    (hticker : params.discoveryEnvelope = some ticker)
    (h : buildMintPsbtV3 C scriptForKind params = .ok r) :
    checkDiscoveryOutput r.psbt.txOutputs (.mint params.tokenId params.mintAmountAtoms 2)
        (some ticker) =
      if ticker.length + digitCount params.mintAmountAtoms ≤ 30 then ⟨true, true, 1, none⟩
      else ⟨false, false, 0, none⟩ := by
  have hdecode := decode_encodeMintV2 (buildMintPsbtV3_ok h).wire
  simp only [buildMintPsbtV3, bind_eq_ok, ensure_eq_ok, pure_eq_ok] at h
  obtain ⟨_, -, _, -, _, -, _, -, wire, -, _, -, _, -, _, -, _, -, outs, houts, _, hchange, settled,
    hsettled, out, hout, rfl⟩ := h
  obtain ⟨paid, hpaid, hpaidFor⟩ := addOutputs_ok houts
  have hne : settled.txOutputs ≠ [] := by
    have hlen := hpaidFor.length_eq
    intro hnil
    rcases addChangeOrAbsorb_cases hsettled hchange with ⟨-, -, o, hs, -⟩ | ⟨-, -, hs⟩
    · rw [hs] at hnil
      simp at hnil
    · rw [hs, hpaid, List.nil_append] at hnil
      rw [hnil] at hlen
      simp at hlen
  simp only [hticker, addDiscovery, bind_eq_ok, addOutput, ensure_eq_ok, pure_eq_ok] at hout
  obtain ⟨binary, hbinary, payload, hpayload, _, -, rfl⟩ := hout
  have heq : ParsedEnvelopeV2.mint params.tokenId params.mintAmountAtoms 2 = binary :=
    Except.ok.inj (hdecode.symm.trans hbinary)
  subst heq
  have hcheck := checkDiscoveryOutput_mint hne hpayload
  obtain ⟨-, hserialized, -⟩ := encodeDiscovery_mint hpayload
  have hlength : payload.length = 45 + ticker.length + digitCount params.mintAmountAtoms := by
    rw [hserialized, length_mintEnvelope, List.length_map, digitCount]
  have htoNat : Int.toNat 0 = 0 := rfl
  simp only [htoNat, hcheck, hlength, directPushLimit]
  by_cases hle : ticker.length + digitCount params.mintAmountAtoms ≤ 30
  · rw [if_pos (by omega), if_pos hle]
  · rw [if_neg (by omega), if_neg hle]

/-- The discovery output of a built mint is recognised just when the ticker and the digits of the
amount leave the payload within a direct push. -/
theorem mint_discovery_recognised_iff {C : Crypto} {scriptForKind : ScriptForKind}
    {params : MintParams} {r : MintResult} {ticker : Bytes}
    (hticker : params.discoveryEnvelope = some ticker)
    (h : buildMintPsbtV3 C scriptForKind params = .ok r) :
    ∃ binary, decodeV2 r.wire = .ok binary ∧
      ((checkDiscoveryOutput r.psbt.txOutputs binary (some ticker)).present = true ∧
        (checkDiscoveryOutput r.psbt.txOutputs binary (some ticker)).agrees = true ↔
      ticker.length + digitCount params.mintAmountAtoms ≤ 30) := by
  refine ⟨_, decode_encodeMintV2 (buildMintPsbtV3_ok h).wire, ?_⟩
  rw [buildMintPsbtV3_discovery hticker h]
  by_cases hle : ticker.length + digitCount params.mintAmountAtoms ≤ 30
  · simp [hle]
  · simp [hle]

/-! A mint of a million tokens from a fresh state. -/

def millionId : Bytes := List.replicate 32 0xab

def millionKeys : VaultKeys where
  guardianXOnly :=
    Bytes.ofNatBE 32 0x79be667ef9dcbbac55a06295ce870b07029bfcdb2dce28d959f2815b16f81798
  recoveryKeyXOnly :=
    Bytes.ofNatBE 32 0xc6047f9441ed7d6d3045406e95c07cd85c778e4b8cef3ca7abac09b95c709ee5
  recoveryProfile := none

/-- SHA-256, and the curve points of the vaults before and after the mint. -/
def millionCrypto : Crypto where
  sha256 := Sha256.sha256
  isXOnlyPoint key := key = millionKeys.guardianXOnly
  xOnlyPointAddTweak key tweak := if key = coveNumsXOnly then [
    (Bytes.ofNatBE 32 0x7915d7fc666e1a7f604264de17f84cacf9fc803a065826799e1776b5a9c16885,
      Bytes.ofNatBE 32 0x9da33df8786233a05812a813b143a4df69214b5327d6b373dceeb0af656aaad5, 1),
    (Bytes.ofNatBE 32 0x3e8bf2e4f863ace321d33b2ed6355e8e181450829955f50be78068c847bf1d6d,
      Bytes.ofNatBE 32 0x8c6c9e9259b6a7bb1237b7b8389c6414c2674e4c6d25a3d274b741405cf8eabf, 0)].lookup
      tweak else none

def millionFreshScript : Bytes := 0x51 :: 0x20 ::
  Bytes.ofNatBE 32 0x9da33df8786233a05812a813b143a4df69214b5327d6b373dceeb0af656aaad5

def millionScript (owner : UInt8) : Bytes := 0x00 :: 0x14 :: List.replicate 20 owner

/-- A lock to a witness public key needs no key from the caller. -/
def noKeys : ScriptForKind := fun _ _ => .error ⟨none, "bad public key"⟩

def millionMint (ticker : Bytes) : MintParams where
  tokenId := millionId
  prevState := ⟨2, 3, millionId, 0, 0, 1⟩
  prevBacking := ⟨List.replicate 32 1, 1, millionFreshScript, 10000, none⟩
  mintAmountAtoms := 100000000000000
  keys := millionKeys
  buyerInputs := [⟨List.replicate 32 2, 0, millionScript 2, 400000, none⟩]
  buyerCarrierScript := millionScript 3
  buyerChangeScript := millionScript 4
  feeScript := millionScript 5
  creatorScript := millionScript 6
  minerFeeSats := 1000
  discoveryEnvelope := some ticker

/-- The discovery output of a built mint is not recognised when the ticker is of sixteen letters
and the amount of fifteen digits. -/
theorem million_discovery_unrecognised : ¬ ∀ (C : Crypto) (scriptForKind : ScriptForKind)
    (params : MintParams) (r : MintResult) (ticker : Bytes) (binary : ParsedEnvelopeV2),
    params.discoveryEnvelope = some ticker → buildMintPsbtV3 C scriptForKind params = .ok r →
    decodeV2 r.wire = .ok binary →
    (checkDiscoveryOutput r.psbt.txOutputs binary (some ticker)).present = true ∧
      (checkDiscoveryOutput r.psbt.txOutputs binary (some ticker)).agrees = true := by
  intro h
  have hbuilt : ((buildMintPsbtV3 millionCrypto noKeys
      (millionMint (Bytes.ascii "ABCDEFGHIJKLMNOP"))).toOption.any fun r =>
        (decodeV2 r.wire).toOption.any fun binary =>
          !(checkDiscoveryOutput r.psbt.txOutputs binary
            (some (Bytes.ascii "ABCDEFGHIJKLMNOP"))).present) = true := by
    decide +kernel
  obtain ⟨r, hr, hbinary⟩ := (Option.any_eq_true _ _).mp hbuilt
  obtain ⟨binary, hdecode, habsent⟩ := (Option.any_eq_true _ _).mp hbinary
  rw [toOption_eq_some] at hr hdecode
  have hpresent := (h _ _ _ r _ binary rfl hr hdecode).1
  rw [hpresent] at habsent
  cases habsent

/-- With a ticker of five letters it is. -/
theorem mint_discovery_recognised_alpha : ∃ r binary,
    buildMintPsbtV3 millionCrypto noKeys (millionMint (Bytes.ascii "ALPHA")) = .ok r ∧
    decodeV2 r.wire = .ok binary ∧
    (checkDiscoveryOutput r.psbt.txOutputs binary (some (Bytes.ascii "ALPHA"))).present = true ∧
    (checkDiscoveryOutput r.psbt.txOutputs binary (some (Bytes.ascii "ALPHA"))).agrees = true := by
  have hbuilt : (buildMintPsbtV3 millionCrypto noKeys
      (millionMint (Bytes.ascii "ALPHA"))).toOption.isSome = true := by
    decide +kernel
  obtain ⟨r, hr⟩ := Option.isSome_iff_exists.mp hbuilt
  rw [toOption_eq_some] at hr
  obtain ⟨binary, hdecode, hiff⟩ := mint_discovery_recognised_iff rfl hr
  exact ⟨r, binary, hr, hdecode, hiff.mpr (by decide)⟩

end Cove
