import Cove.Lib.Json
import Cove.Wire.Codec

/-! The advisory `crc-20` envelope: `packages/cove-wire/src/discovery.ts`. -/

namespace Cove

open Checked

def coveProtocolId : Bytes := Bytes.ascii "crc-20"

def datacarrierPayloadLimit : Nat := 80

/-- An absent `tick` is the deleted one; a present one may be empty. -/
structure DiscoveryEnvelope where
  p : Bytes
  op : Bytes
  tick : Option Bytes
  amt : Option Bytes
  deriving DecidableEq, Repr

/-- The fields in `KEY_ORDER`. None of the texts needs an escape. -/
def serializeDiscovery (env : DiscoveryEnvelope) : Bytes :=
  let part (name : String) (v : Option Bytes) : List Bytes :=
    v.toList.map fun v => Json.quote (Bytes.ascii name) ++ 0x3a :: Json.quote v
  let parts := part "p" (some env.p) ++ part "op" (some env.op) ++ part "tick" env.tick ++
    part "amt" env.amt
  0x7b :: (Bytes.join [0x2c] parts ++ [0x7d])

def discoveryFor : ParsedEnvelopeV2 → Except Fault DiscoveryEnvelope
  | .deploy _ ticker _ => do
    let tick ← canonicalTicker ticker
    return ⟨coveProtocolId, Bytes.ascii "deploy", some tick, none⟩
  | .mint _ amount _ =>
    return ⟨coveProtocolId, Bytes.ascii "mint", some [], some (Bytes.decimalText amount)⟩
  | .transfer _ allocations =>
    let total := (allocations.map TokenAllocation.amount).sum
    return ⟨coveProtocolId, Bytes.ascii "transfer", some [], some (Bytes.decimalText total)⟩
  | .redeem _ redeemAmount _ =>
    return ⟨coveProtocolId, Bytes.ascii "redeem", some [], some (Bytes.decimalText redeemAmount)⟩

/-- The payload that goes with a binary envelope; the ticker fills an empty `tick`. -/
def encodeDiscovery (binary : ParsedEnvelopeV2) (ticker : Option Bytes) : Except Fault Bytes := do
  let env ← discoveryFor binary
  let tick ← match ticker with
    | some ticker => if env.tick = some [] then some <$> canonicalTicker ticker else pure env.tick
    | none => pure env.tick
  let bytes := serializeDiscovery { env with tick := if tick = some [] then none else tick }
  ensure (bytes.length ≤ datacarrierPayloadLimit) ⟨some "DISCOVERY_TOO_LARGE",
    s!"discovery envelope is {bytes.length}B, limit {datacarrierPayloadLimit}B"⟩
  return bytes

def jsonText : Option Json → Option Bytes
  | some (.str s) => some s
  | _ => none

/-- A payload that is a `crc-20` object with an `op`, or nothing. -/
def decodeDiscovery (payload : Bytes) : Option DiscoveryEnvelope := do
  let o ← Json.parse payload
  let p ← jsonText (o.field (Bytes.ascii "p"))
  guard (p = coveProtocolId)
  let op ← jsonText (o.field (Bytes.ascii "op"))
  let tick := (jsonText (o.field (Bytes.ascii "tick"))).getD []
  return ⟨p, op, if tick = [] then none else some tick, jsonText (o.field (Bytes.ascii "amt"))⟩

/-- Byte equality with the one payload the binary envelope allows. -/
def discoveryAgreesWithBinary (payload : Bytes) (binary : ParsedEnvelopeV2)
    (ticker : Option Bytes) : Bool :=
  match encodeDiscovery binary ticker with
  | .ok expected => payload = expected
  | .error _ => false

end Cove
