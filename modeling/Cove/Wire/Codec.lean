import Cove.Lib.Checked
import Cove.Lib.Bytes

/-! The V2 wire format: `packages/cove-wire/src/opcodes.ts`, `ticker.ts` and `codecV2.ts`.
A ticker stands as its bytes: whatever `toString("utf8")` makes of a byte above
`0x7f` fails the ticker's expression, as the byte itself does here. -/

namespace Cove

open Checked

def coveWireMagic : Nat := 0x4356
def coveWireV2 : UInt8 := 2
def covePolicyV3 : Nat := 3
def opDeploy : UInt8 := 0x01
def opTransfer : UInt8 := 0x02
def opMint : UInt8 := 0x03
def opRedeem : UInt8 := 0x04
def maxTransferAllocations : Nat := 4
def maxRedeemAllocations : Nat := 3
def u64Max : Int := 0xffffffffffffffff

structure TokenAllocation where
  vout : Nat
  amount : Int
  deriving DecidableEq, Repr

/-- A decoded payload. The constant `version: 2` is left out. -/
inductive ParsedEnvelopeV2
  | deploy (policyVersion : Nat) (ticker tokenNonce : Bytes)
  | mint (tokenId : Bytes) (amount : Int) (recipientVout : Nat)
  | transfer (tokenId : Bytes) (allocations : List TokenAllocation)
  | redeem (tokenId : Bytes) (redeemAmount : Int) (changeAllocations : List TokenAllocation)
  deriving DecidableEq, Repr

def wireFault (code message : String) : Fault := ⟨some code, message⟩

def headerV2 (op : UInt8) : Bytes := Bytes.ofNatBE 2 coveWireMagic ++ [coveWireV2, op]

def tokenIdBuffer (tokenId : Bytes) : Except Fault Bytes := do
  ensure (tokenId.length = 32) (wireFault "INVALID_TOKEN_ID" "tokenId must be 32 bytes")
  ensure (tokenId ≠ List.replicate 32 0) (wireFault "INVALID_TOKEN_ID" "tokenId must be nonzero")
  return tokenId

def amountBuf (amount : Int) : Except Fault Bytes := do
  ensure (0 < amount) (wireFault "ZERO_AMOUNT" "amount must be positive")
  ensure (amount ≤ u64Max) (wireFault "AMOUNT_OVERFLOW" "amount exceeds u64")
  return Bytes.ofNatBE 8 amount.toNat

def voutBuf (vout : Nat) : Except Fault Bytes := do
  ensure (vout ≤ 255) (wireFault "INVALID_VOUT" "vout out of range")
  return [UInt8.ofNat vout]

/-- The loop of `assertAllocations`, with the vouts seen and the total so far. -/
def assertAllocationsLoop : List TokenAllocation → List Nat → Int → Except Fault Unit
  | [], _, _ => .ok ()
  | a :: allocations, seen, total => do
    ensure (a.vout ∉ seen) (wireFault "DUPLICATE_VOUT" s!"duplicate vout {a.vout}")
    ensure (0 < a.amount) (wireFault "ZERO_AMOUNT" "allocation amount must be positive")
    ensure (total + a.amount ≤ u64Max)
      (wireFault "AMOUNT_OVERFLOW" "allocation total overflows u64")
    assertAllocationsLoop allocations (a.vout :: seen) (total + a.amount)

def assertAllocations (allocations : List TokenAllocation) (max min : Nat) : Except Fault Unit := do
  ensure (min ≤ allocations.length)
    (wireFault "ZERO_ALLOCATIONS" s!"at least {min} allocations required")
  ensure (allocations.length ≤ max) (wireFault "TOO_MANY_ALLOCATIONS" s!"max {max} allocations")
  assertAllocationsLoop allocations [] 0

def allocationBufs : List TokenAllocation → Except Fault Bytes
  | [] => .ok []
  | a :: allocations => do
    let vout ← voutBuf a.vout
    let amount ← amountBuf a.amount
    let rest ← allocationBufs allocations
    return vout ++ amount ++ rest

def isLetter (c : UInt8) : Bool := (65 ≤ c && c ≤ 90) || (97 ≤ c && c ≤ 122)

def isDigit (c : UInt8) : Bool := 48 ≤ c && c ≤ 57

/-- The expression `^[A-Za-z][A-Za-z0-9]{0,15}$`. -/
def tickerShape : Bytes → Bool
  | [] => false
  | c :: cs => isLetter c && cs.all (fun d => isLetter d || isDigit d) && cs.length ≤ 15

def toUpper (c : UInt8) : UInt8 := if 97 ≤ c && c ≤ 122 then c - 32 else c

def canonicalTicker (ticker : Bytes) : Except Fault Bytes := do
  ensure (tickerShape ticker) ⟨none, "ticker must be 1..16 alphanumeric, starting with a letter"⟩
  return ticker.map toUpper

def encodeDeployV2 (policyVersion : Nat) (ticker tokenNonce : Bytes) : Except Fault Bytes := do
  ensure (policyVersion = 3) (wireFault "BAD_POLICY_VERSION" "policyVersion must be 3")
  ensure (tokenNonce.length = 32) (wireFault "INVALID_NONCE" "nonce must be 32 bytes")
  let tick ← canonicalTicker ticker
  return headerV2 opDeploy ++ [UInt8.ofNat policyVersion, UInt8.ofNat tick.length] ++ tick ++
    tokenNonce

def encodeMintV2 (tokenId : Bytes) (amount : Int) (recipientVout : Nat) : Except Fault Bytes := do
  let id ← tokenIdBuffer tokenId
  let amt ← amountBuf amount
  let vout ← voutBuf recipientVout
  return headerV2 opMint ++ id ++ amt ++ vout

def encodeTransferV2 (tokenId : Bytes) (allocations : List TokenAllocation) :
    Except Fault Bytes := do
  assertAllocations allocations maxTransferAllocations 1
  let id ← tokenIdBuffer tokenId
  let parts ← allocationBufs allocations
  return headerV2 opTransfer ++ id ++ [UInt8.ofNat allocations.length] ++ parts

def encodeRedeemV2 (tokenId : Bytes) (redeemAmount : Int)
    (changeAllocations : List TokenAllocation) : Except Fault Bytes := do
  assertAllocations changeAllocations maxRedeemAllocations 0
  let id ← tokenIdBuffer tokenId
  let amt ← amountBuf redeemAmount
  let parts ← allocationBufs changeAllocations
  return headerV2 opRedeem ++ id ++ amt ++ [UInt8.ofNat changeAllocations.length] ++ parts

/-- Re-encode an envelope. Its fields are also the parameters of the four encoders. -/
def reencodeV2 : ParsedEnvelopeV2 → Except Fault Bytes
  | .deploy policyVersion ticker tokenNonce => encodeDeployV2 policyVersion ticker tokenNonce
  | .mint tokenId amount recipientVout => encodeMintV2 tokenId amount recipientVout
  | .transfer tokenId allocations => encodeTransferV2 tokenId allocations
  | .redeem tokenId redeemAmount changeAllocations =>
    encodeRedeemV2 tokenId redeemAmount changeAllocations

/-- `readHeaderV2`: the opcode. -/
def readHeaderV2 (payload : Bytes) : Except Fault UInt8 := do
  ensure (4 ≤ payload.length) (wireFault "TRUNCATED" "payload shorter than header")
  ensure ((payload.slice 0 2).toNatBE = coveWireMagic) (wireFault "BAD_MAGIC" "bad magic")
  ensure (payload.getD 2 0 = coveWireV2)
    (wireFault "BAD_VERSION" s!"expected v2, got {payload.getD 2 0}")
  return payload.getD 3 0

def readTokenId (payload : Bytes) (offset : Nat) : Except Fault Bytes := do
  let tokenId := payload.slice offset 32
  ensure (tokenId.length = 32) (wireFault "INVALID_TOKEN_ID" "tokenId must be 32 bytes")
  ensure (tokenId ≠ List.replicate 32 0) (wireFault "INVALID_TOKEN_ID" "zero tokenId")
  return tokenId

def readAmount (payload : Bytes) (offset : Nat) : Int := (payload.slice offset 8).toNatBE

/-- The loop of `readAllocations`: `count` nine-byte records from `offset`, with
the vouts seen and the total so far. -/
def readAllocationsLoop (payload : Bytes) :
    Nat → Nat → List Nat → Int → Except Fault (List TokenAllocation)
  | 0, _, _, _ => .ok []
  | count + 1, offset, seen, total => do
    let vout := (payload.getD offset 0).toNat
    let amount := readAmount payload (offset + 1)
    ensure (amount ≠ 0) (wireFault "ZERO_AMOUNT" "zero allocation amount")
    ensure (vout ∉ seen) (wireFault "DUPLICATE_VOUT" "duplicate vout")
    ensure (total + amount ≤ u64Max) (wireFault "AMOUNT_OVERFLOW" "allocation sum overflows u64")
    let rest ← readAllocationsLoop payload count (offset + 9) (vout :: seen) (total + amount)
    return ⟨vout, amount⟩ :: rest

def readAllocations (payload : Bytes) (offset count max : Nat) :
    Except Fault (List TokenAllocation) := do
  ensure (count ≤ max) (wireFault "TOO_MANY_ALLOCATIONS" "too many allocations")
  readAllocationsLoop payload count offset [] 0

def decodeDeploy (payload : Bytes) : Except Fault ParsedEnvelopeV2 := do
  ensure (6 ≤ payload.length) (wireFault "TRUNCATED" "deploy too short")
  let policyVersion := (payload.getD 4 0).toNat
  ensure (policyVersion = 3) (wireFault "BAD_POLICY_VERSION" "policyVersion must be 3")
  let tickLen := (payload.getD 5 0).toNat
  ensure (tickLen ≠ 0 ∧ tickLen ≤ 16) (wireFault "NONCANONICAL_TICKER" "ticker length out of range")
  ensure (payload.length = 6 + tickLen + 32) (wireFault "TRUNCATED" "deploy length mismatch")
  let ticker := payload.slice 6 tickLen
  let canonical ← canonicalTicker ticker
  ensure (ticker = canonical)
    (wireFault "NONCANONICAL_TICKER" "ticker is not canonical uppercase")
  return .deploy policyVersion ticker (payload.slice (6 + tickLen) 32)

def decodeMint (payload : Bytes) : Except Fault ParsedEnvelopeV2 := do
  ensure (payload.length = 4 + 32 + 8 + 1) (wireFault "TRUNCATED" "mint length mismatch")
  let tokenId ← readTokenId payload 4
  let amount := readAmount payload 36
  ensure (amount ≠ 0) (wireFault "ZERO_AMOUNT" "zero mint amount")
  return .mint tokenId amount (payload.getD 44 0).toNat

def decodeTransfer (payload : Bytes) : Except Fault ParsedEnvelopeV2 := do
  ensure (4 + 32 + 1 ≤ payload.length) (wireFault "TRUNCATED" "transfer too short")
  let tokenId ← readTokenId payload 4
  let count := (payload.getD 36 0).toNat
  ensure (count ≠ 0) (wireFault "ZERO_ALLOCATIONS" "zero allocations")
  ensure (payload.length = 4 + 32 + 1 + count * 9) (wireFault "TRUNCATED" "transfer length mismatch")
  let allocations ← readAllocations payload 37 count maxTransferAllocations
  return .transfer tokenId allocations

def decodeRedeem (payload : Bytes) : Except Fault ParsedEnvelopeV2 := do
  ensure (4 + 32 + 8 + 1 ≤ payload.length) (wireFault "TRUNCATED" "redeem too short")
  let tokenId ← readTokenId payload 4
  let redeemAmount := readAmount payload 36
  ensure (redeemAmount ≠ 0) (wireFault "ZERO_AMOUNT" "zero redeem amount")
  let count := (payload.getD 44 0).toNat
  ensure (payload.length = 4 + 32 + 8 + 1 + count * 9)
    (wireFault "TRUNCATED" "redeem length mismatch")
  let changeAllocations ← readAllocations payload 45 count maxRedeemAllocations
  return .redeem tokenId redeemAmount changeAllocations

def decodeV2 (payload : Bytes) : Except Fault ParsedEnvelopeV2 := do
  let op ← readHeaderV2 payload
  if op = opDeploy then decodeDeploy payload
  else if op = opMint then decodeMint payload
  else if op = opTransfer then decodeTransfer payload
  else if op = opRedeem then decodeRedeem payload
  else throw (wireFault "BAD_OPCODE" ("unknown op 0x" ++ String.ofList (Nat.toDigits 16 op.toNat)))

end Cove
