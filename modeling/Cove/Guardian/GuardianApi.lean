import Cove.Guardian.Service
import Cove.Indexer.UndoJson

/-! What the remote signer's client makes of texts the service sends: `parseBigint` and the
answers of `packages/cove-guardian/src/v3/guardianApi.ts`, and the parts of Node and JavaScript
they go through. -/

namespace Cove

open Checked

/-- `Buffer.from(text, "hex")`: it ends before the first pair that spells no byte. -/
def bufferFromHex : Bytes → Bytes
  | a :: b :: rest =>
    match Json.hexValue a, Json.hexValue b with
    | some a, some b => UInt8.ofNat (a * 16 + b) :: bufferFromHex rest
    | _, _ => []
  | _ => []

/-- Where every pair spells a byte, all are read. -/
theorem bufferFromHex_of_hexPairs {text b : Bytes} (h : hexPairs text = some b) :
    bufferFromHex text = b := by
  induction text using bufferFromHex.induct generalizing b with
  | case1 x y rest i j hx hy ih =>
    simp only [hexPairs, hx, hy, Option.bind_eq_bind, Option.bind_some,
      Option.bind_eq_some_iff] at h
    obtain ⟨rest', hrest, hb⟩ := h
    rw [bufferFromHex, hx, hy, ← Option.some.inj hb]
    exact congrArg _ (ih hrest)
  | case2 x y rest hno =>
    simp only [hexPairs, Option.bind_eq_bind, Option.bind_eq_some_iff] at h
    obtain ⟨i, hx, j, hy, -⟩ := h
    exact absurd hy (hno i j hx)
  | case3 text hno =>
    cases text with
    | nil => exact Option.some.inj h
    | cons x text =>
      cases text with
      | nil => cases h
      | cons y rest => exact absurd rfl (hno x y rest)

theorem bufferFromHex_hexText (b : Bytes) : bufferFromHex b.hexText = b :=
  bufferFromHex_of_hexPairs (hexPairs_hexText b)

/-- `toLowerCase` on ASCII letters. No other character is lowered to a hexadecimal digit, so no
more is needed to compare with the text of a key. -/
def toLowerCase (text : Bytes) : Bytes := text.map fun c => if 65 ≤ c ∧ c ≤ 90 then c + 32 else c

/-! `BigInt` of a text. -/

/-- The white space and line ends JavaScript strips. -/
def isStrWhite (c : Char) : Bool :=
  c.toNat ∈ [0x09, 0x0a, 0x0b, 0x0c, 0x0d, 0x20, 0xa0, 0x1680, 0x2028, 0x2029, 0x202f, 0x205f,
    0x3000, 0xfeff] || (0x2000 ≤ c.toNat && c.toNat ≤ 0x200a)

def strTrim (cs : List Char) : List Char :=
  ((cs.dropWhile isStrWhite).reverse.dropWhile isStrWhite).reverse

def charDigit (c : Char) : Nat :=
  if '0' ≤ c ∧ c ≤ '9' then c.toNat - 48
  else if 'a' ≤ c ∧ c ≤ 'z' then c.toNat - 87
  else if 'A' ≤ c ∧ c ≤ 'Z' then c.toNat - 55
  else 36

-- decided along the text, not over all characters
instance (cs : List Char) (radix : Nat) : Decidable (∀ c ∈ cs, charDigit c < radix) :=
  List.decidableBAll _ cs

/-- One or more digits of a radix. -/
def radixDigits (radix : Nat) (cs : List Char) : Option Int :=
  if cs ≠ [] ∧ ∀ c ∈ cs, charDigit c < radix then
    some (cs.foldl (fun n c => n * radix + charDigit c) 0)
  else none

/-- An integer literal with its sign or its radix. -/
def integerLiteral : List Char → Option Int
  | [] => some 0
  | '+' :: cs => radixDigits 10 cs
  | '-' :: cs => (radixDigits 10 cs).map (- ·)
  | '0' :: c :: cs =>
    if c = 'x' ∨ c = 'X' then radixDigits 16 cs
    else if c = 'o' ∨ c = 'O' then radixDigits 8 cs
    else if c = 'b' ∨ c = 'B' then radixDigits 2 cs
    else radixDigits 10 ('0' :: c :: cs)
  | cs => radixDigits 10 cs

/-- `BigInt(text)`; nothing when it throws. -/
def bigIntOfText (text : Bytes) : Option Int := integerLiteral (strTrim (Bytes.utf8Chars {} text))

/-! `parseBigint`. -/

mutual

/-- The reviver of `parseBigint`, inner values first: an object with a text under `__bigint` is a
big integer, whatever else it has. -/
def reviveBigint : Json → Option JsValue
  | .null => some .null
  | .bool b => some (.bool b)
  | .num m e => some (.num m e)
  | .str s => some (.str s)
  | .arr items => (reviveBigintItems items).map .arr
  | .obj members => do
    let members ← reviveBigintMembers members
    match (JsValue.obj members).text "__bigint" with
    | some text => (bigIntOfText text).map .bigint
    | none => return .obj members

def reviveBigintItems : List Json → Option (List JsValue)
  | [] => some []
  | v :: vs => do
    let v ← reviveBigint v
    let vs ← reviveBigintItems vs
    return v :: vs

/-- A member that a later one of its name replaces is never revived. -/
def reviveBigintMembers : List (Bytes × Json) → Option (List (Bytes × JsValue))
  | [] => some []
  | (name, v) :: ms =>
    if name ∈ ms.map Prod.fst then reviveBigintMembers ms
    else do
      let v ← reviveBigint v
      let ms ← reviveBigintMembers ms
      return (name, v) :: ms

end

def parseBigint (s : Bytes) : Except Fault JsValue :=
  demand ((Json.parse s).bind reviveBigint) ⟨none, "SyntaxError"⟩

/-- What `if` makes of a value. A number is zero when the nearest double is. -/
def JsValue.truthy : JsValue → Bool
  | .null => false
  | .bool b => b
  | .num mantissa exponent => 10 ^ (-exponent).toNat < 2 ^ 1075 * mantissa.natAbs
  | .bigint n => n ≠ 0
  | .str s => s ≠ []
  | .arr _ => true
  | .obj _ => true

/-- `value.ok` holds. -/
def JsValue.ok (v : JsValue) : Bool := (v.field "ok").any JsValue.truthy

/-! The service's answers. -/

structure GuardianSignSuccess where
  sigHex : Bytes
  signedPsbtBase64 : Bytes
  profileHash : Bytes
  guardianXOnly : Bytes
  resultJson : Bytes
  deriving DecidableEq, Repr

/-- How a call of the transport ends. One that runs out of time is rejected with
`"guardian request timeout"`. -/
inductive TransportAnswer
  | rejected (name message : String)
  | failure (reason detail : String)
  | success (response : GuardianSignSuccess)
  deriving DecidableEq, Repr

end Cove
