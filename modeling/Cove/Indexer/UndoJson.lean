import Cove.Indexer.Types
import Cove.Lib.Checked
import Cove.Lib.JsonRoundTrip

/-! The undo record as JSON text: `packages/cove-indexer/src/v3/undo.ts`. -/

namespace Cove

open Checked

/-- A JavaScript value as `JSON.stringify` and `JSON.parse` see it, big integers included. -/
inductive JsValue
  | null
  | bool (b : Bool)
  | num (mantissa exponent : Int)
  | bigint (n : Int)
  | str (s : Bytes)
  | arr (items : List JsValue)
  | obj (members : List (Bytes × JsValue))

def JsValue.field (name : String) : JsValue → Option JsValue
  | .obj members => (members.reverse.find? fun m => m.1 = Bytes.ascii name).map Prod.snd
  | _ => none

/-! Big integers in JSON. -/

def bigintTag : Bytes := Bytes.ascii "__bigint"

mutual

/-- The replacer of `encodeUndo`: a big integer becomes an object whose only member `__bigint` is
its text. -/
def replace : JsValue → Json
  | .null => .null
  | .bool b => .bool b
  | .num m e => .num m e
  | .bigint n => .obj [(bigintTag, .str (Bytes.decimalText n))]
  | .str s => .str s
  | .arr items => .arr (replaceItems items)
  | .obj members => .obj (replaceMembers members)

def replaceItems : List JsValue → List Json
  | [] => []
  | v :: vs => replace v :: replaceItems vs

def replaceMembers : List (Bytes × JsValue) → List (Bytes × Json)
  | [] => []
  | (name, v) :: ms => (name, replace v) :: replaceMembers ms

end

/-- `BigInt(text)` on decimal text; nothing when it throws. -/
def bigIntOf (text : Bytes) : Option Int :=
  let (sign, digits) := Json.signed text
  if digits.all Json.isDecimal then some (sign * Json.digitsValue digits) else none

/-- The text of an object whose only key is `__bigint`. -/
def bigintText (members : List (Bytes × JsValue)) : Option Bytes :=
  if members.all fun m => m.1 = bigintTag then
    match members.getLast? with
    | some (_, .str text) => some text
    | _ => none
  else none

mutual

/-- The reviver of `decodeUndo`, inner values first. -/
def revive : Json → Option JsValue
  | .null => some .null
  | .bool b => some (.bool b)
  | .num m e => some (.num m e)
  | .str s => some (.str s)
  | .arr items => (reviveItems items).map .arr
  | .obj members => do
    let members ← reviveMembers members
    match bigintText members with
    | some text => (bigIntOf text).map .bigint
    | none => return .obj members

def reviveItems : List Json → Option (List JsValue)
  | [] => some []
  | v :: vs => do
    let v ← revive v
    let vs ← reviveItems vs
    return v :: vs

def reviveMembers : List (Bytes × Json) → Option (List (Bytes × JsValue))
  | [] => some []
  | (name, v) :: ms => do
    let v ← revive v
    let ms ← reviveMembers ms
    return (name, v) :: ms

end

/-! Records as values. -/

def hexJs (b : Bytes) : JsValue := .str b.hexText

def natJs (n : Nat) : JsValue := .num n 0

def kindJs (kind : String) : JsValue := .str (Bytes.ascii kind)

/-- An object literal. -/
def objectJs (members : List (String × JsValue)) : JsValue :=
  .obj (members.map fun m => (Bytes.ascii m.1, m.2))

def utxoJs (u : V3TokenUtxo) : JsValue := objectJs
  [("txid", hexJs u.txid), ("vout", natJs u.vout), ("tokenId", hexJs u.tokenId),
    ("amountAtoms", .bigint u.amountAtoms), ("scriptPubKey", hexJs u.scriptPubKey),
    ("createdHeight", .bigint u.createdHeight), ("createdBlockHash", hexJs u.createdBlockHash)]

def stateJs (s : CoveStateV2) : JsValue := objectJs
  [("stateVersion", natJs s.stateVersion), ("policyVersion", natJs s.policyVersion),
    ("tokenId", hexJs s.tokenId), ("issuedPublicSupplyAtoms", .bigint s.issuedPublicSupplyAtoms),
    ("backingSats", .bigint s.backingSats), ("curveStage", natJs s.curveStage)]

def outpointJs (o : OutPoint) : JsValue := objectJs [("txid", hexJs o.txid), ("vout", natJs o.vout)]

def backingJs (b : V3Backing) : JsValue := objectJs
  [("tokenId", hexJs b.tokenId), ("state", stateJs b.state), ("stateHash", hexJs b.stateHash),
    ("outpoint", outpointJs b.outpoint), ("scriptPubKey", hexJs b.scriptPubKey),
    ("btcValue", .bigint b.btcValue), ("updatedTxid", hexJs b.updatedTxid),
    ("updatedHeight", .bigint b.updatedHeight), ("updatedBlockHash", hexJs b.updatedBlockHash)]

def utxosJs (l : List V3TokenUtxo) : JsValue := .arr (l.map utxoJs)

def opJs : UndoOp → JsValue
  | .deploy tokenId => objectJs [("kind", kindJs "DEPLOY"), ("tokenId", hexJs tokenId)]
  | .mint tokenId priorBacking createdUtxo => objectJs
    [("kind", kindJs "MINT"), ("tokenId", hexJs tokenId), ("priorBacking", backingJs priorBacking),
      ("createdUtxo", utxoJs createdUtxo)]
  | .redeem tokenId spendingTxid priorBacking spentUtxos createdUtxos => objectJs
    [("kind", kindJs "REDEEM"), ("tokenId", hexJs tokenId), ("spendingTxid", hexJs spendingTxid),
      ("priorBacking", backingJs priorBacking), ("spentUtxos", utxosJs spentUtxos),
      ("createdUtxos", utxosJs createdUtxos)]
  | .transfer spendingTxid spentUtxos createdUtxos => objectJs
    [("kind", kindJs "TRANSFER"), ("spendingTxid", hexJs spendingTxid),
      ("spentUtxos", utxosJs spentUtxos), ("createdUtxos", utxosJs createdUtxos)]
  | .burn spendingTxid spentUtxos => objectJs
    [("kind", kindJs "BURN"), ("spendingTxid", hexJs spendingTxid),
      ("spentUtxos", utxosJs spentUtxos)]

def undoJs (undo : BlockUndo) : JsValue := objectJs
  [("height", .bigint undo.height), ("blockHash", hexJs undo.blockHash),
    ("ops", .arr (undo.ops.map opJs))]

def encodeUndo (undo : BlockUndo) : Bytes := (replace (undoJs undo)).stringify

/-! Values as records. A reader fails where `isUtxo`, `isBacking` or `assertOp` does, and also
on text that spells no bytes and on numbers that are not natural. -/

def hexPairs : Bytes → Option Bytes
  | [] => some []
  | a :: b :: rest => do
    let a ← Json.hexValue a
    let b ← Json.hexValue b
    let rest ← hexPairs rest
    return UInt8.ofNat (a * 16 + b) :: rest
  | _ => none

namespace JsValue

def text (v : JsValue) (name : String) : Option Bytes :=
  match v.field name with
  | some (.str s) => some s
  | _ => none

def hex (v : JsValue) (name : String) : Option Bytes := (v.text name).bind hexPairs

def nat (v : JsValue) (name : String) : Option Nat :=
  match v.field name with
  | some (.num m 0) => if 0 ≤ m then some m.toNat else none
  | _ => none

def big (v : JsValue) (name : String) : Option Int :=
  match v.field name with
  | some (.bigint n) => some n
  | _ => none

def height (v : JsValue) (name : String) : Option Nat :=
  (v.big name).bind fun n => if 0 ≤ n then some n.toNat else none

def items (v : JsValue) (name : String) : Option (List JsValue) :=
  match v.field name with
  | some (.arr l) => some l
  | _ => none

end JsValue

def readUtxo (v : JsValue) : Option V3TokenUtxo := do
  let txid ← v.hex "txid"
  let vout ← v.nat "vout"
  let tokenId ← v.hex "tokenId"
  let amountAtoms ← v.big "amountAtoms"
  let scriptPubKey ← v.hex "scriptPubKey"
  let createdHeight ← v.height "createdHeight"
  let createdBlockHash ← v.hex "createdBlockHash"
  return ⟨txid, vout, tokenId, amountAtoms, scriptPubKey, createdHeight, createdBlockHash⟩

def readState (v : JsValue) : Option CoveStateV2 := do
  let stateVersion ← v.nat "stateVersion"
  let policyVersion ← v.nat "policyVersion"
  let tokenId ← v.hex "tokenId"
  let issuedPublicSupplyAtoms ← v.big "issuedPublicSupplyAtoms"
  let backingSats ← v.big "backingSats"
  let curveStage ← v.nat "curveStage"
  return ⟨stateVersion, policyVersion, tokenId, issuedPublicSupplyAtoms, backingSats, curveStage⟩

def readOutPoint (v : JsValue) : Option OutPoint := do
  let txid ← v.hex "txid"
  let vout ← v.nat "vout"
  return ⟨txid, vout⟩

def readBacking (v : JsValue) : Option V3Backing := do
  let tokenId ← v.hex "tokenId"
  let state ← (v.field "state").bind readState
  let stateHash ← v.hex "stateHash"
  let outpoint ← (v.field "outpoint").bind readOutPoint
  let scriptPubKey ← v.hex "scriptPubKey"
  let btcValue ← v.big "btcValue"
  let updatedTxid ← v.hex "updatedTxid"
  let updatedHeight ← v.height "updatedHeight"
  let updatedBlockHash ← v.hex "updatedBlockHash"
  return ⟨tokenId, state, stateHash, outpoint, scriptPubKey, btcValue, updatedTxid, updatedHeight,
    updatedBlockHash⟩

def readUtxos (v : JsValue) (name : String) : Option (List V3TokenUtxo) :=
  (v.items name).bind fun l => l.mapM readUtxo

def undoFault (message : String) : Fault := ⟨none, message⟩

/-- `assertOp`, and the operation it vouches for. -/
def readOp (v : JsValue) : Except Fault UndoOp :=
  match v.text "kind" with
  | none => .error (undoFault "MALFORMED_UNDO: op is not an object")
  | some kind =>
    if kind = Bytes.ascii "DEPLOY" then
      demand ((v.hex "tokenId").map .deploy) (undoFault "MALFORMED_UNDO: DEPLOY tokenId")
    else if kind = Bytes.ascii "MINT" then
      demand (do
        let tokenId ← v.hex "tokenId"
        let priorBacking ← (v.field "priorBacking").bind readBacking
        let createdUtxo ← (v.field "createdUtxo").bind readUtxo
        return .mint tokenId priorBacking createdUtxo) (undoFault "MALFORMED_UNDO: MINT fields")
    else if kind = Bytes.ascii "TRANSFER" then
      demand (do
        let spendingTxid ← v.hex "spendingTxid"
        let spentUtxos ← readUtxos v "spentUtxos"
        let createdUtxos ← readUtxos v "createdUtxos"
        return .transfer spendingTxid spentUtxos createdUtxos)
        (undoFault "MALFORMED_UNDO: TRANSFER fields")
    else if kind = Bytes.ascii "REDEEM" then
      demand (do
        let tokenId ← v.hex "tokenId"
        let spendingTxid ← v.hex "spendingTxid"
        let priorBacking ← (v.field "priorBacking").bind readBacking
        let spentUtxos ← readUtxos v "spentUtxos"
        let createdUtxos ← readUtxos v "createdUtxos"
        return .redeem tokenId spendingTxid priorBacking spentUtxos createdUtxos)
        (undoFault "MALFORMED_UNDO: REDEEM fields")
    else if kind = Bytes.ascii "BURN" then
      demand (do
        let spendingTxid ← v.hex "spendingTxid"
        let spentUtxos ← readUtxos v "spentUtxos"
        return .burn spendingTxid spentUtxos) (undoFault "MALFORMED_UNDO: BURN fields")
    else .error (undoFault "MALFORMED_UNDO: unknown kind")

def readOps : List JsValue → Except Fault (List UndoOp)
  | [] => .ok []
  | v :: vs => do
    let op ← readOp v
    let ops ← readOps vs
    return op :: ops

def decodeUndo (json : Bytes) : Except Fault BlockUndo := do
  let parsed ← demand ((Json.parse json).bind revive) (undoFault "MALFORMED_UNDO_JSON")
  let height ← demand (parsed.height "height") (undoFault "MALFORMED_UNDO: top-level shape")
  let blockHash ← demand (parsed.hex "blockHash") (undoFault "MALFORMED_UNDO: top-level shape")
  let items ← demand (parsed.items "ops") (undoFault "MALFORMED_UNDO: top-level shape")
  let ops ← readOps items
  return ⟨height, blockHash, ops⟩

/-! What `encodeUndo` writes, `decodeUndo` reads back. -/

open Json (PlainText Plain PlainItems PlainMembers)

mutual

/-- Values that JSON text can hold without escapes and that no reviver mistakes. -/
def Clean : JsValue → Prop
  | .num m e => 0 ≤ m ∧ e = 0
  | .str s => PlainText s
  | .arr items => CleanItems items
  | .obj members => CleanMembers members
  | _ => True

def CleanItems : List JsValue → Prop
  | [] => True
  | v :: vs => Clean v ∧ CleanItems vs

def CleanMembers : List (Bytes × JsValue) → Prop
  | [] => True
  | (name, v) :: ms => (PlainText name ∧ name ≠ bigintTag) ∧ Clean v ∧ CleanMembers ms

end

-- over the list: with `Fintype UInt8` in scope the inferred instance would run through every byte
instance (s : Bytes) : Decidable (PlainText s) := List.decidableBAll _ s

theorem bigIntOf_decimalText (n : Int) : bigIntOf (Bytes.decimalText n) = some n := by
  obtain ⟨ds, hds, he⟩ := Json.decimalText_signed n
  have hall : ds.all Json.isDecimal = true := List.all_eq_true.mpr hds.decimal
  rw [he]
  by_cases hneg : n < 0
  · rw [if_pos hneg, bigIntOf]
    simp only [Json.signed, if_true, hall, hds.value, Option.some.injEq]
    omega
  · obtain ⟨d, ds', rfl, hd⟩ := hds.exists_cons
    have hminus : d ≠ 0x2d := by
      rintro rfl
      exact absurd hd (by decide)
    rw [if_neg hneg, bigIntOf]
    simp only [Json.signed, if_neg hminus, hall, if_true, hds.value, Option.some.injEq]
    omega

theorem bigintText_clean {ms : List (Bytes × JsValue)} (h : CleanMembers ms) :
    bigintText ms = none := by
  cases ms with
  | nil => rfl
  | cons m ms =>
    have hne : m.1 ≠ bigintTag := h.1.2
    simp [bigintText, hne]

mutual

theorem replace_plain (v : JsValue) (h : Clean v) : Plain (replace v) := by
  match v with
  | .null => exact trivial
  | .bool _ => exact trivial
  | .num _ _ => exact h
  | .bigint n => exact ⟨by decide +kernel, Json.plainText_decimal n, trivial⟩
  | .str _ => exact h
  | .arr items => exact replaceItems_plain items h
  | .obj ms => exact replaceMembers_plain ms h

theorem replaceItems_plain (items : List JsValue) (h : CleanItems items) :
    PlainItems (replaceItems items) := by
  match items with
  | [] => exact trivial
  | v :: vs => exact ⟨replace_plain v h.1, replaceItems_plain vs h.2⟩

theorem replaceMembers_plain (ms : List (Bytes × JsValue)) (h : CleanMembers ms) :
    PlainMembers (replaceMembers ms) := by
  match ms with
  | [] => exact trivial
  | (_, v) :: ms => exact ⟨h.1.1, replace_plain v h.2.1, replaceMembers_plain ms h.2.2⟩

end

mutual

theorem revive_replace (v : JsValue) (h : Clean v) : revive (replace v) = some v := by
  match v with
  | .null => rfl
  | .bool _ => rfl
  | .num _ _ => rfl
  | .bigint n =>
    have hb := bigIntOf_decimalText n
    simp [replace, revive, reviveMembers, bigintText, hb]
  | .str _ => rfl
  | .arr items => simp [replace, revive, reviveItems_replace items h]
  | .obj ms => simp [replace, revive, reviveMembers_replace ms h, bigintText_clean h]

theorem reviveItems_replace (items : List JsValue) (h : CleanItems items) :
    reviveItems (replaceItems items) = some items := by
  match items with
  | [] => rfl
  | v :: vs => simp [replaceItems, reviveItems, revive_replace v h.1, reviveItems_replace vs h.2]

theorem reviveMembers_replace (ms : List (Bytes × JsValue)) (h : CleanMembers ms) :
    reviveMembers (replaceMembers ms) = some ms := by
  match ms with
  | [] => rfl
  | (_, v) :: ms =>
    simp [replaceMembers, reviveMembers, revive_replace v h.2.1, reviveMembers_replace ms h.2.2]

end

/-! Hexadecimal text. -/

theorem hexValue_hexDigit : ∀ n < 16, Json.hexValue (Bytes.hexDigit n) = some n := by decide

theorem plainText_hexDigit : ∀ n < 16, Bytes.hexDigit n ≠ 0x22 ∧ Bytes.hexDigit n ≠ 0x5c ∧
    ¬ Bytes.hexDigit n < 0x20 := by decide

theorem plainText_hex (b : Bytes) : PlainText b.hexText := by
  intro c hc
  obtain ⟨x, -, hx⟩ := List.mem_flatMap.mp hc
  have hlt := x.toNat_lt
  rcases List.mem_cons.mp hx with rfl | hx
  · exact plainText_hexDigit _ (by omega)
  · rw [List.mem_singleton.mp hx]
    exact plainText_hexDigit _ (by omega)

theorem hexPairs_hexText (b : Bytes) : hexPairs b.hexText = some b := by
  induction b with
  | nil => rfl
  | cons x b ih =>
    have hlt := x.toNat_lt
    have hx : UInt8.ofNat (x.toNat / 16 * 16 + x.toNat % 16) = x := by
      rw [Nat.div_add_mod', UInt8.ofNat_toNat]
    change hexPairs (Bytes.hexDigit (x.toNat / 16) :: Bytes.hexDigit (x.toNat % 16) ::
      Bytes.hexText b) = _
    simp only [hexPairs, hexValue_hexDigit _ (show x.toNat / 16 < 16 by omega),
      hexValue_hexDigit _ (show x.toNat % 16 < 16 by omega), ih, hx, Option.bind_eq_bind,
      Option.bind_some]
    rfl

/-! The records are clean, and their readers invert their writers. -/

theorem clean_hex (b : Bytes) : Clean (hexJs b) := plainText_hex b

theorem clean_nat (n : Nat) : Clean (natJs n) := ⟨Int.natCast_nonneg n, rfl⟩

theorem clean_big (n : Int) : Clean (.bigint n) := trivial

def memberNames : List String :=
  ["txid", "vout", "tokenId", "amountAtoms", "scriptPubKey", "createdHeight", "createdBlockHash",
    "stateVersion", "policyVersion", "issuedPublicSupplyAtoms", "backingSats", "curveStage", "state",
    "stateHash", "outpoint", "btcValue", "updatedTxid", "updatedHeight", "updatedBlockHash", "kind",
    "priorBacking", "createdUtxo", "spendingTxid", "spentUtxos", "createdUtxos", "height",
    "blockHash", "ops"]

/-- No member name needs an escape or is the tag of big integers. -/
theorem memberNames_plain : ∀ name ∈ memberNames,
    PlainText (Bytes.ascii name) ∧ Bytes.ascii name ≠ bigintTag := by decide +kernel

theorem clean_object {members : List (String × JsValue)}
    (h : ∀ m ∈ members, m.1 ∈ memberNames ∧ Clean m.2) : Clean (objectJs members) := by
  induction members with
  | nil => exact trivial
  | cons m members ih =>
    obtain ⟨hname, hclean⟩ := h m List.mem_cons_self
    exact ⟨memberNames_plain m.1 hname, hclean, ih fun m' hm => h m' (List.mem_cons_of_mem m hm)⟩

theorem clean_kind (kind : String) (h : PlainText (Bytes.ascii kind)) : Clean (kindJs kind) := h

theorem clean_utxo (u : V3TokenUtxo) : Clean (utxoJs u) :=
  clean_object (by simp [memberNames, clean_hex, clean_nat, clean_big])

theorem clean_state (s : CoveStateV2) : Clean (stateJs s) :=
  clean_object (by simp [memberNames, clean_hex, clean_nat, clean_big])

theorem clean_outpoint (o : OutPoint) : Clean (outpointJs o) :=
  clean_object (by simp [memberNames, clean_hex, clean_nat])

theorem clean_backing (b : V3Backing) : Clean (backingJs b) :=
  clean_object (by simp [memberNames, clean_hex, clean_big, clean_state, clean_outpoint])

theorem clean_map {α : Type} (f : α → JsValue) (h : ∀ a, Clean (f a)) (l : List α) :
    CleanItems (l.map f) := by
  induction l with
  | nil => exact trivial
  | cons a l ih => exact ⟨h a, ih⟩

theorem clean_utxos (l : List V3TokenUtxo) : Clean (utxosJs l) := clean_map utxoJs clean_utxo l

theorem clean_op (op : UndoOp) : Clean (opJs op) := by
  cases op with
  | deploy tokenId =>
    exact clean_object (by simp [memberNames, clean_hex, clean_kind "DEPLOY" (by decide +kernel)])
  | mint tokenId priorBacking createdUtxo =>
    exact clean_object
      (by simp [memberNames, clean_hex, clean_backing, clean_utxo,
        clean_kind "MINT" (by decide +kernel)])
  | redeem tokenId spendingTxid priorBacking spentUtxos createdUtxos =>
    exact clean_object
      (by simp [memberNames, clean_hex, clean_backing, clean_utxos,
        clean_kind "REDEEM" (by decide +kernel)])
  | transfer spendingTxid spentUtxos createdUtxos =>
    exact clean_object
      (by simp [memberNames, clean_hex, clean_utxos, clean_kind "TRANSFER" (by decide +kernel)])
  | burn spendingTxid spentUtxos =>
    exact clean_object
      (by simp [memberNames, clean_hex, clean_utxos, clean_kind "BURN" (by decide +kernel)])

theorem clean_undo (undo : BlockUndo) : Clean (undoJs undo) := by
  have hops : Clean (.arr (undo.ops.map opJs)) := clean_map opJs clean_op undo.ops
  exact clean_object (by simp [memberNames, clean_hex, clean_big, hops])

theorem memberNames_injOn : ∀ a ∈ memberNames, ∀ b ∈ memberNames,
    Bytes.ascii a = Bytes.ascii b → a = b := by decide +kernel

theorem find?_eq_of_nodup {l : List (Bytes × JsValue)} (hd : (l.map Prod.fst).Nodup)
    {m : Bytes × JsValue} (hm : m ∈ l) : (l.find? fun m' => m'.1 = m.1) = some m := by
  induction l with
  | nil => cases hm
  | cons a l ih =>
    rw [List.map_cons, List.nodup_cons] at hd
    rcases List.mem_cons.mp hm with rfl | hm
    · simp
    · have hne : a.1 ≠ m.1 := fun h => hd.1 (h ▸ List.mem_map_of_mem hm)
      rw [List.find?_cons_of_neg (by simpa using hne)]
      exact ih hd.2 hm

/-- Member access on an object literal. -/
theorem field_object {v : JsValue} {members : List (String × JsValue)} (hv : v = objectJs members)
    (hnames : members.map Prod.fst ⊆ memberNames) (hd : (members.map Prod.fst).Nodup) :
    ∀ m ∈ members, v.field m.1 = some m.2 := by
  intro m hm
  have hascii : ((members.map fun m => (Bytes.ascii m.1, m.2)).map Prod.fst).Nodup := by
    have hon := hd.map_on (f := Bytes.ascii) fun a ha b hb =>
      memberNames_injOn a (hnames ha) b (hnames hb)
    simpa [List.map_map, Function.comp_def] using hon
  have hmem : (Bytes.ascii m.1, m.2) ∈ members.map fun m => (Bytes.ascii m.1, m.2) :=
    List.mem_map.mpr ⟨m, hm, rfl⟩
  have hfind := find?_eq_of_nodup
    (by rw [List.map_reverse]; exact List.nodup_reverse.mpr hascii) (List.mem_reverse.mpr hmem)
  rw [hv, objectJs, JsValue.field, hfind]
  rfl

section Readers

variable {v : JsValue} {name : String}

theorem hex_of_field {b : Bytes} (h : v.field name = some (hexJs b)) : v.hex name = some b := by
  rw [JsValue.hex, JsValue.text, h]
  exact hexPairs_hexText b

theorem nat_of_field {n : Nat} (h : v.field name = some (natJs n)) : v.nat name = some n := by
  rw [JsValue.nat, h]
  simp [natJs]

theorem big_of_field {n : Int} (h : v.field name = some (.bigint n)) : v.big name = some n := by
  rw [JsValue.big, h]

theorem height_of_field {n : Nat} (h : v.field name = some (.bigint n)) :
    v.height name = some n := by
  rw [JsValue.height, big_of_field h]
  simp

theorem text_of_field {s : Bytes} (h : v.field name = some (.str s)) : v.text name = some s := by
  rw [JsValue.text, h]

end Readers

theorem readUtxo_utxoJs (u : V3TokenUtxo) : readUtxo (utxoJs u) = some u := by
  have hf := field_object (v := utxoJs u) rfl (by simp [memberNames]) (by simp)
  simp only [List.forall_mem_cons] at hf
  obtain ⟨txid, vout, tokenId, amountAtoms, scriptPubKey, createdHeight, createdBlockHash, -⟩ := hf
  rw [readUtxo, hex_of_field txid, nat_of_field vout, hex_of_field tokenId,
    big_of_field amountAtoms, hex_of_field scriptPubKey, height_of_field createdHeight,
    hex_of_field createdBlockHash]
  rfl

theorem readState_stateJs (s : CoveStateV2) : readState (stateJs s) = some s := by
  have hf := field_object (v := stateJs s) rfl (by simp [memberNames]) (by simp)
  simp only [List.forall_mem_cons] at hf
  obtain ⟨stateVersion, policyVersion, tokenId, issued, backingSats, curveStage, -⟩ := hf
  rw [readState, nat_of_field stateVersion, nat_of_field policyVersion, hex_of_field tokenId,
    big_of_field issued, big_of_field backingSats, nat_of_field curveStage]
  rfl

theorem readOutPoint_outpointJs (o : OutPoint) : readOutPoint (outpointJs o) = some o := by
  have hf := field_object (v := outpointJs o) rfl (by simp [memberNames]) (by simp)
  simp only [List.forall_mem_cons] at hf
  obtain ⟨txid, vout, -⟩ := hf
  rw [readOutPoint, hex_of_field txid, nat_of_field vout]
  rfl

theorem readBacking_backingJs (b : V3Backing) : readBacking (backingJs b) = some b := by
  have hf := field_object (v := backingJs b) rfl (by simp [memberNames]) (by simp)
  simp only [List.forall_mem_cons] at hf
  obtain ⟨tokenId, state, stateHash, outpoint, scriptPubKey, btcValue, updatedTxid, updatedHeight,
    updatedBlockHash, -⟩ := hf
  rw [readBacking, hex_of_field tokenId, state, Option.bind_some, readState_stateJs,
    hex_of_field stateHash, outpoint, Option.bind_some, readOutPoint_outpointJs,
    hex_of_field scriptPubKey, big_of_field btcValue, hex_of_field updatedTxid,
    height_of_field updatedHeight, hex_of_field updatedBlockHash]
  rfl

theorem mapM_readUtxo (l : List V3TokenUtxo) : (l.map utxoJs).mapM readUtxo = some l := by
  induction l with
  | nil => rfl
  | cons u l ih => simp [readUtxo_utxoJs, ih]

theorem utxos_of_field {v : JsValue} {name : String} {l : List V3TokenUtxo}
    (h : v.field name = some (utxosJs l)) : readUtxos v name = some l := by
  have hitems : v.items name = some (l.map utxoJs) := by
    rw [JsValue.items, h]
    rfl
  rw [readUtxos, hitems]
  exact mapM_readUtxo l

theorem readOp_opJs (op : UndoOp) : readOp (opJs op) = .ok op := by
  cases op with
  | deploy tokenId =>
    have hf := field_object (v := opJs (.deploy tokenId)) rfl (by simp [memberNames]) (by simp)
    simp only [List.forall_mem_cons] at hf
    obtain ⟨kind, hid, -⟩ := hf
    rw [readOp, text_of_field kind]
    simp only
    rw [if_pos trivial, hex_of_field hid]
    rfl
  | mint tokenId priorBacking createdUtxo =>
    have hf := field_object (v := opJs (.mint tokenId priorBacking createdUtxo)) rfl
      (by simp [memberNames]) (by simp)
    simp only [List.forall_mem_cons] at hf
    obtain ⟨kind, hid, hprior, hcreated, -⟩ := hf
    rw [readOp, text_of_field kind]
    simp only
    rw [if_neg (by decide), if_pos trivial, hex_of_field hid, hprior, hcreated, Option.bind_some,
      Option.bind_some, readBacking_backingJs, readUtxo_utxoJs]
    rfl
  | transfer spendingTxid spentUtxos createdUtxos =>
    have hf := field_object (v := opJs (.transfer spendingTxid spentUtxos createdUtxos)) rfl
      (by simp [memberNames]) (by simp)
    simp only [List.forall_mem_cons] at hf
    obtain ⟨kind, htxid, hspent, hcreated, -⟩ := hf
    rw [readOp, text_of_field kind]
    simp only
    rw [if_neg (by decide), if_neg (by decide), if_pos trivial, hex_of_field htxid,
      utxos_of_field hspent, utxos_of_field hcreated]
    rfl
  | redeem tokenId spendingTxid priorBacking spentUtxos createdUtxos =>
    have hf := field_object
      (v := opJs (.redeem tokenId spendingTxid priorBacking spentUtxos createdUtxos)) rfl
      (by simp [memberNames]) (by simp)
    simp only [List.forall_mem_cons] at hf
    obtain ⟨kind, hid, htxid, hprior, hspent, hcreated, -⟩ := hf
    rw [readOp, text_of_field kind]
    simp only
    rw [if_neg (by decide), if_neg (by decide), if_neg (by decide), if_pos trivial, hex_of_field hid,
      hex_of_field htxid, hprior, Option.bind_some, readBacking_backingJs, utxos_of_field hspent,
      utxos_of_field hcreated]
    rfl
  | burn spendingTxid spentUtxos =>
    have hf := field_object (v := opJs (.burn spendingTxid spentUtxos)) rfl
      (by simp [memberNames]) (by simp)
    simp only [List.forall_mem_cons] at hf
    obtain ⟨kind, htxid, hspent, -⟩ := hf
    rw [readOp, text_of_field kind]
    simp only
    rw [if_neg (by decide), if_neg (by decide), if_neg (by decide), if_neg (by decide), if_pos trivial,
      hex_of_field htxid, utxos_of_field hspent]
    rfl

theorem readOps_map (ops : List UndoOp) : readOps (ops.map opJs) = .ok ops := by
  induction ops with
  | nil => rfl
  | cons op ops ih =>
    rw [List.map_cons, readOps, readOp_opJs, ih]
    rfl

theorem decodeUndo_encodeUndo (undo : BlockUndo) : decodeUndo (encodeUndo undo) = .ok undo := by
  have hclean := clean_undo undo
  have hparse : (Json.parse (encodeUndo undo)).bind revive = some (undoJs undo) := by
    rw [encodeUndo, Json.parse_stringify (replace_plain _ hclean)]
    exact revive_replace _ hclean
  have hf := field_object (v := undoJs undo) rfl (by simp [memberNames]) (by simp)
  simp only [List.forall_mem_cons] at hf
  obtain ⟨hheight, hhash, hops, -⟩ := hf
  have hitems : (undoJs undo).items "ops" = some (undo.ops.map opJs) := by
    rw [JsValue.items, hops]
  rw [decodeUndo, hparse]
  change (demand ((undoJs undo).height "height") _ >>= fun _ => _) = _
  rw [height_of_field hheight, hex_of_field hhash, hitems]
  change (readOps (undo.ops.map opJs) >>= fun _ => _) = _
  rw [readOps_map]
  rfl

/-- Every undo record comes back from its text as it was, and no two records have one text. -/
theorem undo_records_round_trip :
    (∀ undo, decodeUndo (encodeUndo undo) = .ok undo) ∧ Function.Injective encodeUndo := by
  refine ⟨decodeUndo_encodeUndo, ?_⟩
  intro undo other h
  have hother := decodeUndo_encodeUndo other
  rw [← h, decodeUndo_encodeUndo] at hother
  exact Except.ok.inj hother

end Cove
