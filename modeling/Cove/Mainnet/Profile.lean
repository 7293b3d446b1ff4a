import Cove.Economics.Fee
import Cove.Guardian.GuardianApi
import Cove.Wire.TokenIdentity

/-! The mainnet profile as it is written, and its validator: `packages/cove-mainnet/src/profile.ts`.
Hexadecimal values are the texts of the file; the known test keys come from `test-keys.ts`. -/

namespace Cove.Mainnet

structure MainnetRecoveryProfile where
  threshold : Int
  pubkeys : List Bytes
  csvBlocks : Option Int
  deriving DecidableEq, Repr

structure MainnetCanary where
  allowedWalletScripts : List Bytes
  allowedTokenIds : List Bytes
  maxBackingSats : Option Int
  maxSingleBuySats : Option Int
  maxSingleRedeemPayoutSats : Option Int
  maxP2pSettlementSats : Option Int
  maxMintAtoms : Option Int
  minMintGrossSats : Option Int
  deriving DecidableEq, Repr

structure MainnetProfile where
  profileVersion : Int
  chainIdentity : Bytes
  activationHeight : Option Int
  policyVersion : Int
  vaultProfileVersion : Bytes
  guardianXOnly : Option Bytes
  recovery : MainnetRecoveryProfile
  feeScript : Option Bytes
  buyFeeBps : Option Int
  redeemFeeBps : Option Int
  p2pFeeBps : Option Int
  carrierSats : Int
  anchorSats : Int
  maxProtocolSupplyAtoms : Int
  reserveAllocationAtoms : Int
  mintCmr : Bytes
  redeemCmr : Bytes
  canary : MainnetCanary
  deriving DecidableEq, Repr

def vaultProfileMainnet1 : Bytes := Bytes.ascii "COVE_V3_VAULT_PROFILE_MAINNET1"

def graduationReserveAtoms : Int := 0

/-- What the repository's public test keys control. -/
structure TestKeys where
  xOnly : Bytes → Bool
  script : Bytes → Bool

/-- `^[0-9a-f]+$`, in either case. -/
def isHex (text : Bytes) : Bool := text ≠ [] && text.all fun c => (Json.hexValue c).isSome

/-- `^[0-9a-f]{64}$`, in either case. -/
def hex64 (text : Bytes) : Bool :=
  text.length = 64 && text.all fun c => (Json.hexValue c).isSome

def isXOnlyKey (C : Crypto) (hex : Bytes) : Bool := hex64 hex && C.isXOnlyPoint (bufferFromHex hex)

/-- A P2PKH script. -/
def isP2PKH (s : Bytes) : Bool :=
  s.length = 25 && s[0]? = some 0x76 && s[1]? = some 0xa9 && s[2]? = some 0x14 &&
    s[23]? = some 0x88 && s[24]? = some 0xac

def isP2WSH (s : Bytes) : Bool :=
  s.length = 34 && s[0]? = some 0x00 && s[1]? = some 0x20

def isStandardMainnetScript (hex : Bytes) : Bool :=
  isHex hex &&
    let s := bufferFromHex hex
    isP2WPKH s || isP2TR s || isP2WSH s || isP2PKH s || isP2SH s

def bpsValid (bps : Int) : Bool := 0 ≤ bps && bps ≤ 10000

def csvValid (csv : Int) : Bool := 1 ≤ csv && csv ≤ 65535

/-- The keys a threshold asks for. -/
def recoveryKeysFor (threshold : Int) : Option Nat :=
  if threshold = 2 then some 3 else if threshold = 1 then some 1 else none

/-- A text as the string it is. -/
def shown (text : Bytes) : String := String.ofList (text.map fun x => Char.ofNat x.toNat)

/-- One entry of the list of failures. -/
def failWhen (c : Prop) [Decidable c] (e : String) : List String := if c then [e] else []

@[simp] theorem failWhen_eq_nil (c : Prop) [Decidable c] (e : String) :
    failWhen c e = [] ↔ ¬ c := by
  by_cases h : c
  · simp [failWhen, h]
  · simp [failWhen, h]

/-- A value the owner has to decide on, and its check once it is there. -/
def decided {α : Type} (name : String) (value : Option α) (check : α → List String) : List String :=
  match value with
  | none => ["OWNER_DECISION_REQUIRED: " ++ name]
  | some a => check a

@[simp] theorem decided_eq_nil {α : Type} (name : String) (value : Option α)
    (check : α → List String) :
    decided name value check = [] ↔ ∃ a, value = some a ∧ check a = [] := by
  cases value with
  | none => simp [decided]
  | some a => simp [decided]

section

variable (C : Crypto) (keys : TestKeys) (p : MainnetProfile)

def checkVersions : List String :=
  failWhen (p.profileVersion ≠ 1) s!"PROFILE_VERSION_UNKNOWN: {p.profileVersion}" ++
  failWhen (p.chainIdentity ≠ chainBitcoinMainnet)
    ("CHAIN_IDENTITY_MISMATCH: " ++ shown p.chainIdentity ++ " != bitcoin-mainnet") ++
  failWhen (p.policyVersion ≠ covePolicyV3)
    s!"POLICY_VERSION_MISMATCH: {p.policyVersion} != {covePolicyV3}" ++
  failWhen (p.vaultProfileVersion ≠ vaultProfileMainnet1)
    ("VAULT_PROFILE_MISMATCH: " ++ shown p.vaultProfileVersion)

/-- The protocol constants the file repeats. -/
def checkProtocol : List String :=
  failWhen (p.carrierSats ≠ tokenCarrierSats)
    s!"PROFILE_PROTOCOL_MISMATCH: carrierSats {p.carrierSats} != {tokenCarrierSats}" ++
  failWhen (p.anchorSats ≠ reserveAnchorSats)
    s!"PROFILE_PROTOCOL_MISMATCH: anchorSats {p.anchorSats} != {reserveAnchorSats}" ++
  failWhen (p.maxProtocolSupplyAtoms ≠ publicSupplyAtoms)
    (s!"PROFILE_PROTOCOL_MISMATCH: maxProtocolSupplyAtoms {p.maxProtocolSupplyAtoms}" ++
      s!" != {publicSupplyAtoms}") ++
  failWhen (p.reserveAllocationAtoms ≠ graduationReserveAtoms)
    (s!"PROFILE_PROTOCOL_MISMATCH: reserveAllocationAtoms {p.reserveAllocationAtoms}" ++
      s!" != {graduationReserveAtoms}") ++
  failWhen (toLowerCase p.mintCmr ≠ mintCmrV3.hexText) "PROFILE_PROTOCOL_MISMATCH: mintCmr" ++
  failWhen (toLowerCase p.redeemCmr ≠ redeemCmrV3.hexText) "PROFILE_PROTOCOL_MISMATCH: redeemCmr"

def checkKeys : List String :=
  decided "activationHeight" p.activationHeight (fun height =>
    failWhen (height ≤ 0) s!"INVALID_ACTIVATION_HEIGHT: {height}") ++
  decided "guardianXOnly" p.guardianXOnly (fun key =>
    failWhen (¬ isXOnlyKey C key) "INVALID_GUARDIAN_KEY")

def checkRecovery : List String :=
  let wantKeys := recoveryKeysFor p.recovery.threshold
  failWhen (wantKeys = none)
    s!"INVALID_RECOVERY_THRESHOLD: {p.recovery.threshold} (allowed: 2-of-3 or 1-of-1)" ++
  (if p.recovery.pubkeys.length = 0 then ["OWNER_DECISION_REQUIRED: recovery.pubkeys"]
    else failWhen (∃ want ∈ wantKeys, p.recovery.pubkeys.length ≠ want)
      (s!"INVALID_RECOVERY_KEYS: threshold {p.recovery.threshold} needs {wantKeys.getD 0} key(s)," ++
        s!" got {p.recovery.pubkeys.length}")) ++
  (p.recovery.pubkeys.flatMap fun k =>
    failWhen (¬ isXOnlyKey C k) ("INVALID_RECOVERY_KEY: " ++ shown (k.take 12) ++ "…")) ++
  failWhen (∃ guardian ∈ p.guardianXOnly, ∃ k ∈ p.recovery.pubkeys,
    toLowerCase k = toLowerCase guardian) "GUARDIAN_KEY_IN_RECOVERY_SET" ++
  failWhen ((p.recovery.pubkeys.map toLowerCase).dedup.length ≠ p.recovery.pubkeys.length)
    "DUPLICATE_RECOVERY_KEYS" ++
  decided "recovery.csvBlocks" p.recovery.csvBlocks (fun csv =>
    failWhen (¬ csvValid csv) s!"INVALID_RECOVERY_CSV: {csv}")

/-- A fee in basis points. -/
def checkFeeBps (name code : String) (value : Option Int) : List String :=
  decided name value fun bps => failWhen (¬ bpsValid bps) s!"INVALID_{code}_FEE_BPS: {bps}"

def checkFees : List String :=
  decided "feeScript" p.feeScript (fun script =>
    failWhen (¬ isStandardMainnetScript script) "INVALID_FEE_SCRIPT") ++
  checkFeeBps "buyFeeBps" "BUY" p.buyFeeBps ++
  checkFeeBps "redeemFeeBps" "REDEEM" p.redeemFeeBps ++
  checkFeeBps "p2pFeeBps" "P2P" p.p2pFeeBps

/-- A cap of the canary, which has to be positive. -/
def checkCap (name : String) (value : Option Int) : List String :=
  decided ("canary." ++ name) value fun cap =>
    failWhen (cap ≤ 0) s!"INVALID_CANARY_CAP: {name} {cap}"

def checkCanary : List String :=
  (p.canary.allowedWalletScripts.flatMap fun s =>
    failWhen (¬ isHex s) ("INVALID_CANARY_WALLET_SCRIPT: " ++ shown (s.take 12) ++ "…")) ++
  (p.canary.allowedTokenIds.flatMap fun t =>
    failWhen (¬ hex64 t) ("INVALID_CANARY_TOKEN_ID: " ++ shown (t.take 12) ++ "…")) ++
  failWhen (p.canary.allowedWalletScripts.length = 0)
    "OWNER_DECISION_REQUIRED: canary.allowedWalletScripts" ++
  failWhen (p.canary.allowedTokenIds.length = 0)
    "OWNER_DECISION_REQUIRED: canary.allowedTokenIds" ++
  checkCap "maxBackingSats" p.canary.maxBackingSats ++
  checkCap "maxSingleBuySats" p.canary.maxSingleBuySats ++
  checkCap "maxSingleRedeemPayoutSats" p.canary.maxSingleRedeemPayoutSats ++
  checkCap "maxP2pSettlementSats" p.canary.maxP2pSettlementSats ++
  checkCap "maxMintAtoms" p.canary.maxMintAtoms ++
  checkCap "minMintGrossSats" p.canary.minMintGrossSats

/-- The keys and scripts anyone can spend with. -/
def checkTestKeys (allowTestKeys : Bool) : List String :=
  if allowTestKeys then []
  else
    failWhen (∃ key ∈ p.guardianXOnly, keys.xOnly key) "TEST_KEY_IN_PROFILE: guardianXOnly" ++
    (p.recovery.pubkeys.flatMap fun k =>
      failWhen (keys.xOnly k) ("TEST_KEY_IN_PROFILE: recovery key " ++ shown (k.take 12) ++ "…")) ++
    failWhen (∃ script ∈ p.feeScript, keys.script script) "TEST_KEY_IN_PROFILE: feeScript" ++
    (p.canary.allowedWalletScripts.flatMap fun w =>
      failWhen (keys.script w) ("TEST_KEY_IN_PROFILE: canary wallet " ++ shown (w.take 12) ++ "…"))

/-- A per-mint cap above the whole supply is none. -/
def checkMintCap : List String :=
  failWhen (∃ cap ∈ p.canary.maxMintAtoms, p.maxProtocolSupplyAtoms < cap)
    s!"INVALID_CANARY_CAP: maxMintAtoms {p.canary.maxMintAtoms.getD 0} exceeds the protocol supply"

/-- Every failure, in the order they are found. -/
def validateMainnetProfile (allowTestKeys : Bool) : List String :=
  checkVersions p ++ checkProtocol p ++ checkKeys C p ++ checkRecovery C p ++ checkFees p ++
    checkCanary p ++ checkTestKeys keys p allowTestKeys ++ checkMintCap p

end

/-- What the validator has checked of a profile it finds no failure in. -/
structure ValidProfile (C : Crypto) (p : MainnetProfile) : Prop where
  profileVersion : p.profileVersion = 1
  chainIdentity : p.chainIdentity = chainBitcoinMainnet
  policyVersion : p.policyVersion = covePolicyV3
  vaultProfileVersion : p.vaultProfileVersion = vaultProfileMainnet1
  carrierSats : p.carrierSats = tokenCarrierSats
  anchorSats : p.anchorSats = reserveAnchorSats
  maxProtocolSupplyAtoms : p.maxProtocolSupplyAtoms = publicSupplyAtoms
  reserveAllocationAtoms : p.reserveAllocationAtoms = graduationReserveAtoms
  mintCmr : toLowerCase p.mintCmr = mintCmrV3.hexText
  redeemCmr : toLowerCase p.redeemCmr = redeemCmrV3.hexText
  activationHeight : ∃ height, p.activationHeight = some height ∧ 0 < height
  guardianXOnly : ∃ key, p.guardianXOnly = some key ∧ isXOnlyKey C key = true
  recoveryKeys : recoveryKeysFor p.recovery.threshold = some p.recovery.pubkeys.length
  pubkeys : ∀ k ∈ p.recovery.pubkeys, isXOnlyKey C k = true
  distinct : (p.recovery.pubkeys.map toLowerCase).Nodup
  csvBlocks : ∃ csv, p.recovery.csvBlocks = some csv ∧ csvValid csv = true
  feeScript : ∃ script, p.feeScript = some script ∧ isStandardMainnetScript script = true
  buyFeeBps : ∃ bps, p.buyFeeBps = some bps ∧ bpsValid bps = true
  redeemFeeBps : ∃ bps, p.redeemFeeBps = some bps ∧ bpsValid bps = true
  p2pFeeBps : ∃ bps, p.p2pFeeBps = some bps ∧ bpsValid bps = true
  walletScripts : ∀ s ∈ p.canary.allowedWalletScripts, isHex s = true
  tokenIds : ∀ t ∈ p.canary.allowedTokenIds, hex64 t = true
  maxBackingSats : ∃ cap, p.canary.maxBackingSats = some cap ∧ 0 < cap
  maxSingleBuySats : ∃ cap, p.canary.maxSingleBuySats = some cap ∧ 0 < cap
  maxSingleRedeemPayoutSats : ∃ cap, p.canary.maxSingleRedeemPayoutSats = some cap ∧ 0 < cap
  maxP2pSettlementSats : ∃ cap, p.canary.maxP2pSettlementSats = some cap ∧ 0 < cap
  maxMintAtoms : ∃ cap, p.canary.maxMintAtoms = some cap ∧ 0 < cap ∧ cap ≤ publicSupplyAtoms
  minMintGrossSats : ∃ cap, p.canary.minMintGrossSats = some cap ∧ 0 < cap

theorem ValidProfile.recoveryShape {C : Crypto} {p : MainnetProfile}
    (h : ValidProfile C p) :
    (p.recovery.threshold = 2 ∧ p.recovery.pubkeys.length = 3) ∨
      (p.recovery.threshold = 1 ∧ p.recovery.pubkeys.length = 1) := by
  have hkeys := h.recoveryKeys
  rw [recoveryKeysFor] at hkeys
  split_ifs at hkeys with h2 h1
  · exact Or.inl ⟨h2, (Option.some.inj hkeys).symm⟩
  · exact Or.inr ⟨h1, (Option.some.inj hkeys).symm⟩

theorem checkFeeBps_eq_nil {name code : String} {value : Option Int} :
    checkFeeBps name code value = [] ↔ ∃ bps, value = some bps ∧ bpsValid bps = true := by
  simp [checkFeeBps]

theorem checkCap_eq_nil {name : String} {value : Option Int} :
    checkCap name value = [] ↔ ∃ cap, value = some cap ∧ 0 < cap := by
  simp [checkCap]

theorem validateMainnetProfile_eq_nil {C : Crypto} {keys : TestKeys} {p : MainnetProfile}
    {allowTestKeys : Bool} (h : validateMainnetProfile C keys p allowTestKeys = []) :
    ValidProfile C p := by
  simp only [validateMainnetProfile, List.append_eq_nil_iff] at h
  obtain ⟨⟨⟨⟨⟨⟨⟨hversions, hprotocol⟩, hkeys⟩, hrecovery⟩, hfees⟩, hcanary⟩, -⟩, hmint⟩ := h
  simp only [checkVersions, List.append_eq_nil_iff, failWhen_eq_nil, not_not] at hversions
  obtain ⟨⟨⟨hversion, hchain⟩, hpolicy⟩, hvault⟩ := hversions
  simp only [checkProtocol, List.append_eq_nil_iff, failWhen_eq_nil, not_not] at hprotocol
  obtain ⟨⟨⟨⟨⟨hcarrier, hanchor⟩, hsupply⟩, hreserve⟩, hmintCmr⟩, hredeemCmr⟩ := hprotocol
  simp only [checkKeys, List.append_eq_nil_iff, decided_eq_nil, failWhen_eq_nil, not_not,
    not_le] at hkeys
  obtain ⟨hheight, hguardian⟩ := hkeys
  simp only [checkRecovery, List.append_eq_nil_iff, decided_eq_nil, failWhen_eq_nil, not_not,
    List.flatMap_eq_nil_iff] at hrecovery
  obtain ⟨⟨⟨⟨⟨hthreshold, hcount⟩, hpubkeys⟩, -⟩, hdistinct⟩, hcsv⟩ := hrecovery
  simp only [checkFees, List.append_eq_nil_iff, decided_eq_nil, failWhen_eq_nil, not_not,
    checkFeeBps_eq_nil] at hfees
  obtain ⟨⟨⟨hscript, hbuy⟩, hredeem⟩, hp2p⟩ := hfees
  simp only [checkCanary, List.append_eq_nil_iff, failWhen_eq_nil, not_not,
    List.flatMap_eq_nil_iff, checkCap_eq_nil] at hcanary
  obtain ⟨⟨⟨⟨⟨⟨⟨⟨⟨hwallets, htokens⟩, -⟩, -⟩, hbacking⟩, hsingle⟩, hpayout⟩, hsettle⟩, hmax⟩,
    hmin⟩ := hcanary
  have hcountEq : recoveryKeysFor p.recovery.threshold = some p.recovery.pubkeys.length := by
    obtain ⟨want, hwant⟩ := Option.ne_none_iff_exists'.mp hthreshold
    split_ifs at hcount with hempty
    simp only [failWhen_eq_nil, hwant, Option.mem_some_iff, exists_eq_left', not_not] at hcount
    rw [hwant, hcount]
  have hnodup : (p.recovery.pubkeys.map toLowerCase).Nodup := by
    apply List.dedup_eq_self.mp
    apply (List.dedup_sublist _).eq_of_length
    rw [hdistinct, List.length_map]
  obtain ⟨cap, hcap, hpos⟩ := hmax
  have hcapLe : cap ≤ publicSupplyAtoms := by
    simp only [checkMintCap, failWhen_eq_nil, hcap, Option.mem_some_iff, exists_eq_left',
      not_lt] at hmint
    rw [← hsupply]
    exact hmint
  exact ⟨hversion, hchain, hpolicy, hvault, hcarrier, hanchor, hsupply, hreserve, hmintCmr,
    hredeemCmr, hheight, hguardian, hcountEq, hpubkeys, hnodup, hcsv, hscript, hbuy, hredeem, hp2p,
    hwallets, htokens, hbacking, hsingle, hpayout, hsettle, ⟨cap, hcap, hpos, hcapLe⟩, hmin⟩

/-! A profile with the keys of the sample chain. -/

def sampleTestKeys : TestKeys := ⟨fun _ => false, fun _ => false⟩

def profileWithCap (maxBackingSats : Int) : MainnetProfile where
  profileVersion := 1
  chainIdentity := chainBitcoinMainnet
  activationHeight := some 101
  policyVersion := 3
  vaultProfileVersion := vaultProfileMainnet1
  guardianXOnly := some sampleConfig.guardianXOnly.hexText
  recovery := ⟨1, [sampleConfig.recoveryKeyXOnly.hexText], some 2016⟩
  feeScript := some sampleConfig.feeScript.hexText
  buyFeeBps := some 100
  redeemFeeBps := some 100
  p2pFeeBps := some 50
  carrierSats := 1000
  anchorSats := 10000
  maxProtocolSupplyAtoms := 2100000000000000
  reserveAllocationAtoms := 0
  mintCmr := mintCmrV3.hexText
  redeemCmr := redeemCmrV3.hexText
  canary := {
    allowedWalletScripts := [sampleCreator.hexText]
    allowedTokenIds := [alphaId.hexText]
    maxBackingSats := some maxBackingSats
    maxSingleBuySats := some 200000
    maxSingleRedeemPayoutSats := some 50000000
    maxP2pSettlementSats := some 10000000
    maxMintAtoms := some 2100000000000000
    minMintGrossSats := some 5000 }

end Cove.Mainnet
