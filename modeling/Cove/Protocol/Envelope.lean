import Cove.Lib.Bytes
import Cove.Lib.Checked

/-! The V1 envelope: `packages/protocol/src/cove/envelope.ts`, and the second decoder it is checked
against, `reference-parser.ts`. -/

namespace Cove

open Checked

namespace Protocol

def coveVersion : UInt8 := 1
def opDeploy : UInt8 := 1
def opMint : UInt8 := 2
def opTransfer : UInt8 := 3

def coveDeployLen : Nat := 10
def coveMintLen : Nat := 26
def coveTransferLen : Nat := 18

/-- The ticker stands as the characters the four bytes spell. -/
inductive CoveEnvelope
  | deploy (tick : Bytes)
  | mint (tick : Bytes) (amt s : Int)
  | transfer (tick : Bytes) (amt : Int)
  deriving DecidableEq, Repr

def isCoveMagic (data : Bytes) : Bool :=
  4 ≤ data.length && data.getD 0 0 = 0x43 && data.getD 1 0 = 0x4f && data.getD 2 0 = 0x56 &&
    data.getD 3 0 = 0x45

def u64Max : Int := 2 ^ 64 - 1

def writeU64BE (value : Int) : Except Fault Bytes := do
  ensure (0 ≤ value) ⟨none, "uint64 value must be >= 0"⟩
  ensure (value ≤ u64Max) ⟨none, "uint64 value must be <= 2^64-1"⟩
  return [7, 6, 5, 4, 3, 2, 1, 0].map fun i => UInt8.ofNat (value.toNat >>> (8 * i) &&& 0xff)

/-- The bytes are shifted in one by one. -/
def readU64BE (data : Bytes) (offset : Nat) : Nat :=
  [0, 1, 2, 3, 4, 5, 6, 7].foldl (fun v i => v <<< 8 ||| (data.getD (offset + i) 0).toNat) 0

def readTicker (data : Bytes) (offset : Nat) : Bytes :=
  [data.getD offset 0, data.getD (offset + 1) 0, data.getD (offset + 2) 0, data.getD (offset + 3) 0]

/-- The low byte of each of the first four code units, or zero where there is none. -/
def writeTicker (tick : List UInt16) : Bytes := [0, 1, 2, 3].map fun i => (tick.getD i 0).toUInt8

/-- `/^[0-9A-Z]{4}$/`. -/
def tickBytes (tick : Bytes) : Bool :=
  tick.length = 4 && tick.all fun c => (0x30 ≤ c && c ≤ 0x39) || (0x41 ≤ c && c ≤ 0x5a)

def magicBytes : Bytes := [0x43, 0x4f, 0x56, 0x45]

def encodeCoveDeploy (tick : List UInt16) : Except Fault Bytes :=
  .ok (magicBytes ++ [coveVersion, opDeploy] ++ writeTicker tick)

def encodeCoveMint (tick : List UInt16) (amountAtoms supplyBeforeAtoms : Int) :
    Except Fault Bytes := do
  let amount ← writeU64BE amountAtoms
  let supply ← writeU64BE supplyBeforeAtoms
  return magicBytes ++ [coveVersion, opMint] ++ writeTicker tick ++ amount ++ supply

def encodeCoveTransfer (tick : List UInt16) (amountAtoms : Int) : Except Fault Bytes := do
  let amount ← writeU64BE amountAtoms
  return magicBytes ++ [coveVersion, opTransfer] ++ writeTicker tick ++ amount

def decodeCoveEnvelope (data : Bytes) : Except String CoveEnvelope := do
  ensure (isCoveMagic data = true) "NOT_COVE"
  ensure (6 ≤ data.length) "TRUNCATED"
  ensure (data.getD 4 0 = coveVersion) "UNSUPPORTED_VERSION"
  let opcode := data.getD 5 0
  if opcode = opDeploy then do
    ensure (data.length = coveDeployLen) "BAD_LENGTH"
    ensure (tickBytes (readTicker data 6) = true) "INVALID_TICKER"
    return .deploy (readTicker data 6)
  else if opcode = opMint then do
    ensure (data.length = coveMintLen) "BAD_LENGTH"
    ensure (tickBytes (readTicker data 6) = true) "INVALID_TICKER"
    return .mint (readTicker data 6) (readU64BE data 10) (readU64BE data 18)
  else if opcode = opTransfer then do
    ensure (data.length = coveTransferLen) "BAD_LENGTH"
    ensure (tickBytes (readTicker data 6) = true) "INVALID_TICKER"
    return .transfer (readTicker data 6) (readU64BE data 10)
  else throw "UNSUPPORTED_OPERATION"

def CoveEnvelope.tick : CoveEnvelope → Bytes
  | .deploy tick => tick
  | .mint tick _ _ => tick
  | .transfer tick _ => tick

/-- The encoder an operation has. -/
def CoveEnvelope.encode : CoveEnvelope → Except Fault Bytes
  | .deploy tick => encodeCoveDeploy (tick.map UInt8.toUInt16)
  | .mint tick amt s => encodeCoveMint (tick.map UInt8.toUInt16) amt s
  | .transfer tick amt => encodeCoveTransfer (tick.map UInt8.toUInt16) amt

/-! The reference decoder. -/

structure RefResult where
  ok : Bool
  op : Option String := none
  tick : Option Bytes := none
  amt : Option Int := none
  s : Option Int := none
  reason : Option String := none
  deriving DecidableEq, Repr

/-- The loop of `tickOf`: a character that is no digit and no capital ends it. -/
def tickOf (data : Bytes) (off : Nat) : Nat → Option Bytes
  | 0 => some []
  | n + 1 =>
    let c := data.getD off 0
    if (0x30 ≤ c && c ≤ 0x39) || (0x41 ≤ c && c ≤ 0x5a) then
      (tickOf data (off + 1) n).map fun s => c :: s
    else none

/-- `DataView.getBigUint64` in big-endian order. -/
def getBigUint64 (data : Bytes) (off : Nat) : Nat := (data.slice off 8).toNatBE

def decodeCoveEnvelopeReference (data : Bytes) : RefResult :=
  let refuse (reason : String) : RefResult := { ok := false, reason := some reason }
  if ¬ isCoveMagic data then refuse "NOT_COVE"
  else if data.length < 6 then refuse "TRUNCATED"
  else if data.getD 4 0 ≠ 1 then refuse "UNSUPPORTED_VERSION"
  else
    let opcode := data.getD 5 0
    if opcode = opDeploy then
      if data.length ≠ coveDeployLen then refuse "BAD_LENGTH"
      else
        match tickOf data 6 4 with
        | none => refuse "INVALID_TICKER"
        | some tick => { ok := true, op := some "deploy", tick := some tick }
    else if opcode = opMint then
      if data.length ≠ coveMintLen then refuse "BAD_LENGTH"
      else
        match tickOf data 6 4 with
        | none => refuse "INVALID_TICKER"
        | some tick =>
          { ok := true, op := some "mint", tick := some tick, amt := some (getBigUint64 data 10)
            s := some (getBigUint64 data 18) }
    else if opcode = opTransfer then
      if data.length ≠ coveTransferLen then refuse "BAD_LENGTH"
      else
        match tickOf data 6 4 with
        | none => refuse "INVALID_TICKER"
        | some tick =>
          { ok := true, op := some "transfer", tick := some tick
            amt := some (getBigUint64 data 10) }
    else refuse "UNSUPPORTED_OPERATION"

/-- What the reference decoder is to answer, given the decoder's own answer. -/
def referenceOf : Except String CoveEnvelope → RefResult
  | .error reason => { ok := false, reason := some reason }
  | .ok (.deploy tick) => { ok := true, op := some "deploy", tick := some tick }
  | .ok (.mint tick amt s) =>
    { ok := true, op := some "mint", tick := some tick, amt := some amt, s := some s }
  | .ok (.transfer tick amt) =>
    { ok := true, op := some "transfer", tick := some tick, amt := some amt }

/-! Numbers: the shifts write and read the bytes of the big-endian encoding. -/

theorem byte_of_shift (n i : Nat) :
    UInt8.ofNat (n >>> (8 * i) &&& 0xff) = UInt8.ofNat (n / 256 ^ i) := by
  have hmask : n >>> (8 * i) &&& 0xff = n / 256 ^ i % 2 ^ 8 := by
    rw [← Nat.and_two_pow_sub_one_eq_mod, Nat.shiftRight_eq_div_pow, Nat.pow_mul]
  apply UInt8.toNat.inj
  rw [UInt8.toNat_ofNat', UInt8.toNat_ofNat', hmask, Nat.mod_mod]

theorem writeU64BE_eq_ok {value : Int} {bytes : Bytes} :
    writeU64BE value = .ok bytes ↔
      0 ≤ value ∧ value ≤ u64Max ∧ bytes = Bytes.ofNatBE 8 value.toNat := by
  simp only [writeU64BE, bind_eq_ok, ensure_eq_ok, pure_eq_ok, byte_of_shift]
  constructor
  · rintro ⟨-, h0, -, hmax, rfl⟩
    exact ⟨h0, hmax, rfl⟩
  · rintro ⟨h0, hmax, rfl⟩
    exact ⟨(), h0, (), hmax, rfl⟩

theorem shiftLeft_or (v : Nat) (x : UInt8) : v <<< 8 ||| x.toNat = v * 256 + x.toNat := by
  have hx : x.toNat < 2 ^ 8 := x.toNat_lt
  rw [← Nat.shiftLeft_add_eq_or_of_lt hx, Nat.shiftLeft_eq]

theorem readU64BE_eq {data : Bytes} {offset : Nat} (h : offset + 8 ≤ data.length) :
    readU64BE data offset = (data.slice offset 8).toNatBE := by
  have hcons (k : Nat) (hk : k < 8) : data.drop (offset + k) =
      data.getD (offset + k) 0 :: data.drop (offset + (k + 1)) :=
    Bytes.drop_eq_getD_cons data (offset + k) (by omega)
  have hslice : data.slice offset 8 = [0, 1, 2, 3, 4, 5, 6, 7].map fun i =>
      data.getD (offset + i) 0 := by
    have h0 := hcons 0 (by decide)
    rw [hcons 1 (by decide), hcons 2 (by decide), hcons 3 (by decide), hcons 4 (by decide),
      hcons 5 (by decide), hcons 6 (by decide), hcons 7 (by decide)] at h0
    rw [Bytes.slice, ← Nat.add_zero offset, h0]
    rfl
  rw [hslice, readU64BE]
  simp only [shiftLeft_or]
  rfl

/-! The layout: a header, the four bytes of the ticker, the numbers. -/

def layout (opcode : UInt8) (tick tail : Bytes) : Bytes :=
  magicBytes ++ [coveVersion, opcode] ++ tick ++ tail

theorem length_layout (opcode : UInt8) (tick tail : Bytes) :
    (layout opcode tick tail).length = 6 + tick.length + tail.length := by
  simp only [layout, List.length_append]
  rfl

theorem isCoveMagic_iff (data : Bytes) :
    isCoveMagic data = true ↔ data.take 4 = magicBytes := by
  constructor
  · intro h
    simp only [isCoveMagic, Bool.and_eq_true, decide_eq_true_eq] at h
    obtain ⟨⟨⟨⟨hlength, h0⟩, h1⟩, h2⟩, h3⟩ := h
    have hfirst := Bytes.drop_eq_getD_cons data 0 (by omega)
    rw [Bytes.drop_eq_getD_cons data 1 (by omega), Bytes.drop_eq_getD_cons data 2 (by omega),
      Bytes.drop_eq_getD_cons data 3 (by omega), h0, h1, h2, h3, List.drop_zero] at hfirst
    rw [hfirst]
    rfl
  · intro h
    have hsplit := List.take_append_drop 4 data
    rw [← hsplit, h]
    simp [isCoveMagic, magicBytes]

/-- A header the decoder accepts, with a ticker behind it. -/
theorem layout_of_header {data : Bytes} (hmagic : isCoveMagic data = true)
    (hversion : data.getD 4 0 = coveVersion) (hlength : 10 ≤ data.length) :
    data = layout (data.getD 5 0) (readTicker data 6) (data.drop 10) := by
  have htick : data.drop 6 = readTicker data 6 ++ data.drop 10 := by
    rw [Bytes.drop_eq_getD_cons data 6 (by omega), Bytes.drop_eq_getD_cons data 7 (by omega),
      Bytes.drop_eq_getD_cons data 8 (by omega), Bytes.drop_eq_getD_cons data 9 (by omega)]
    rfl
  have hrest : data.drop 4 = [coveVersion, data.getD 5 0] ++ data.drop 6 := by
    rw [Bytes.drop_eq_getD_cons data 4 (by omega), Bytes.drop_eq_getD_cons data 5 (by omega),
      hversion]
    rfl
  rw [layout, List.append_assoc, ← htick, List.append_assoc, ← hrest,
    ← (isCoveMagic_iff data).mp hmagic, List.take_append_drop]

/-- What the readers find in a layout. -/
theorem layout_header (opcode : UInt8) {tick : Bytes} (tail : Bytes) (htick : tick.length = 4) :
    isCoveMagic (layout opcode tick tail) = true ∧
      (layout opcode tick tail).getD 4 0 = coveVersion ∧
      (layout opcode tick tail).getD 5 0 = opcode ∧
      readTicker (layout opcode tick tail) 6 = tick ∧
      (layout opcode tick tail).drop 10 = tail := by
  obtain ⟨a, b, c, d, rfl⟩ := List.length_eq_four.mp htick
  exact ⟨by simp [isCoveMagic, layout, magicBytes], rfl, rfl, rfl, rfl⟩

theorem writeTicker_of_bytes {tick : Bytes} (h : tick.length = 4) :
    writeTicker (tick.map UInt8.toUInt16) = tick := by
  obtain ⟨a, b, c, d, rfl⟩ := List.length_eq_four.mp h
  simp [writeTicker]

theorem tickBytes_length {tick : Bytes} (h : tickBytes tick = true) : tick.length = 4 := by
  simp only [tickBytes, Bool.and_eq_true, decide_eq_true_eq] at h
  exact h.1

/-- The fields of a message by its length and opcode. -/
inductive LaidOut : CoveEnvelope → Bytes → Prop
  | deploy {tick : Bytes} : LaidOut (.deploy tick) (layout opDeploy tick [])
  | mint {tick : Bytes} {amt s : Nat} (hamt : amt < 256 ^ 8) (hs : s < 256 ^ 8) :
    LaidOut (.mint tick amt s)
      (layout opMint tick (Bytes.ofNatBE 8 amt ++ Bytes.ofNatBE 8 s))
  | transfer {tick : Bytes} {amt : Nat} (hamt : amt < 256 ^ 8) :
    LaidOut (.transfer tick amt) (layout opTransfer tick (Bytes.ofNatBE 8 amt))

theorem encode_eq_ok {e : CoveEnvelope} {data : Bytes} (htick : e.tick.length = 4) :
    e.encode = .ok data ↔ LaidOut e data := by
  have hnat {v : Int} (h0 : 0 ≤ v) (hmax : v ≤ u64Max) : ∃ n : Nat, v = n ∧ n < 256 ^ 8 :=
    ⟨v.toNat, by omega, by simp only [u64Max] at hmax; omega⟩
  have hwrite {n : Nat} (hn : n < 256 ^ 8) : writeU64BE n = .ok (Bytes.ofNatBE 8 n) :=
    writeU64BE_eq_ok.mpr ⟨by omega, by simp only [u64Max]; omega, by rw [Int.toNat_natCast]⟩
  cases e with
  | deploy tick =>
    have hwritten : writeTicker (tick.map UInt8.toUInt16) = tick := writeTicker_of_bytes htick
    simp only [CoveEnvelope.encode, encodeCoveDeploy, hwritten, Except.ok.injEq]
    constructor
    · intro h
      have hlaid : LaidOut (.deploy tick) (layout opDeploy tick []) := .deploy
      rwa [layout, List.append_nil, h] at hlaid
    · intro h
      cases h
      rw [layout, List.append_nil]
  | mint tick amt s =>
    have hwritten : writeTicker (tick.map UInt8.toUInt16) = tick := writeTicker_of_bytes htick
    simp only [CoveEnvelope.encode, encodeCoveMint, hwritten, bind_eq_ok,
      pure_eq_ok]
    constructor
    · rintro ⟨amount, hamount, supply, hsupply, rfl⟩
      obtain ⟨ha0, hamax, rfl⟩ := writeU64BE_eq_ok.mp hamount
      obtain ⟨hs0, hsmax, rfl⟩ := writeU64BE_eq_ok.mp hsupply
      obtain ⟨a, rfl, ha⟩ := hnat ha0 hamax
      obtain ⟨b, rfl, hb⟩ := hnat hs0 hsmax
      have hlaid : LaidOut (.mint tick a b) _ := .mint ha hb
      rw [layout, ← List.append_assoc] at hlaid
      exact hlaid
    · intro h
      cases h with
      | mint ha hb => exact ⟨_, hwrite ha, _, hwrite hb, by rw [layout, ← List.append_assoc]⟩
  | transfer tick amt =>
    have hwritten : writeTicker (tick.map UInt8.toUInt16) = tick := writeTicker_of_bytes htick
    simp only [CoveEnvelope.encode, encodeCoveTransfer, hwritten, bind_eq_ok,
      pure_eq_ok]
    constructor
    · rintro ⟨amount, hamount, rfl⟩
      obtain ⟨ha0, hamax, rfl⟩ := writeU64BE_eq_ok.mp hamount
      obtain ⟨a, rfl, ha⟩ := hnat ha0 hamax
      exact .transfer ha
    · intro h
      cases h with
      | transfer ha => exact ⟨_, hwrite ha, rfl⟩

/-- A number read where it stands. -/
theorem readU64BE_of_drop {data : Bytes} (rest : Bytes) {n offset : Nat} (hn : n < 256 ^ 8)
    (h : data.drop offset = Bytes.ofNatBE 8 n ++ rest) : readU64BE data offset = n := by
  have hslice := Bytes.slice_of_drop h
  have hlength := congrArg List.length h
  rw [List.length_drop, List.length_append, Bytes.length_ofNatBE] at hlength
  rw [Bytes.length_ofNatBE] at hslice
  rw [readU64BE_eq (by omega), hslice, Bytes.toNatBE_ofNatBE hn]

/-- The bytes of the number that is read. -/
theorem drop_of_readU64BE {data : Bytes} (offset : Nat) (h : offset + 8 ≤ data.length) :
    readU64BE data offset < 256 ^ 8 ∧
      data.drop offset =
        Bytes.ofNatBE 8 (readU64BE data offset) ++ data.drop (offset + 8) := by
  have hlength : (data.slice offset 8).length = 8 := Bytes.length_slice h
  have hvalue := Bytes.toNatBE_lt (data.slice offset 8)
  have hback := Bytes.ofNatBE_toNatBE (data.slice offset 8)
  rw [hlength] at hvalue hback
  rw [readU64BE_eq h, hback]
  exact ⟨hvalue, Bytes.drop_eq_slice_append data offset 8⟩

/-- The decoder's answers: the header and the length of the operation, and a ticker. -/
theorem decodeCoveEnvelope_eq_ok {data : Bytes} {e : CoveEnvelope} :
    decodeCoveEnvelope data = .ok e ↔
      isCoveMagic data = true ∧ data.getD 4 0 = coveVersion ∧
        tickBytes (readTicker data 6) = true ∧
        (data.getD 5 0 = opDeploy ∧ data.length = coveDeployLen ∧
            e = .deploy (readTicker data 6) ∨
          data.getD 5 0 = opMint ∧ data.length = coveMintLen ∧
            e = .mint (readTicker data 6) (readU64BE data 10) (readU64BE data 18) ∨
          data.getD 5 0 = opTransfer ∧ data.length = coveTransferLen ∧
            e = .transfer (readTicker data 6) (readU64BE data 10)) := by
  have hmint : opMint ≠ opDeploy := by decide
  have htransfer : opTransfer ≠ opDeploy ∧ opTransfer ≠ opMint := by decide
  simp only [decodeCoveEnvelope, bind_eq_ok, ensure_eq_ok]
  by_cases hdeploy : data.getD 5 0 = opDeploy
  · simp only [hdeploy, if_true, bind_eq_ok, ensure_eq_ok, pure_eq_ok, hmint.symm, htransfer.1.symm,
      false_and, or_false, true_and]
    constructor
    · rintro ⟨-, hm, -, -, -, hv, -, hl, -, ht, rfl⟩
      exact ⟨hm, hv, ht, hl, rfl⟩
    · rintro ⟨hm, hv, ht, hl, rfl⟩
      exact ⟨(), hm, (), by rw [hl]; decide, (), hv, (), hl, (), ht, rfl⟩
  · by_cases hm : data.getD 5 0 = opMint
    · simp only [hm, hmint, if_false, if_true, bind_eq_ok, ensure_eq_ok, pure_eq_ok,
        htransfer.2.symm, false_and, false_or, or_false, true_and]
      constructor
      · rintro ⟨-, hm, -, -, -, hv, -, hl, -, ht, rfl⟩
        exact ⟨hm, hv, ht, hl, rfl⟩
      · rintro ⟨hm, hv, ht, hl, rfl⟩
        exact ⟨(), hm, (), by rw [hl]; decide, (), hv, (), hl, (), ht, rfl⟩
    · by_cases ht : data.getD 5 0 = opTransfer
      · simp only [ht, htransfer.1, htransfer.2, if_false, if_true, bind_eq_ok, ensure_eq_ok,
          pure_eq_ok, false_and, false_or, true_and]
        constructor
        · rintro ⟨-, hm, -, -, -, hv, -, hl, -, ht, rfl⟩
          exact ⟨hm, hv, ht, hl, rfl⟩
        · rintro ⟨hm, hv, ht, hl, rfl⟩
          exact ⟨(), hm, (), by rw [hl]; decide, (), hv, (), hl, (), ht, rfl⟩
      · simp only [hdeploy, hm, ht, if_false, throw_ne_ok, false_and, and_false, or_false, exists_false]

/-- What the decoder accepts are the layouts of a well-formed ticker. -/
theorem decode_eq_ok_iff {data : Bytes} {e : CoveEnvelope} :
    decodeCoveEnvelope data = .ok e ↔ tickBytes e.tick = true ∧ LaidOut e data := by
  rw [decodeCoveEnvelope_eq_ok]
  constructor
  · rintro ⟨hmagic, hversion, htick, hop⟩
    have hlaid (h : 10 ≤ data.length) := layout_of_header hmagic hversion h
    rcases hop with ⟨hop, hlength, rfl⟩ | ⟨hop, hlength, rfl⟩ | ⟨hop, hlength, rfl⟩
    · refine ⟨htick, ?_⟩
      have hdata := hlaid (by rw [hlength]; decide)
      rw [hop, List.drop_eq_nil_of_le (by rw [hlength]; decide)] at hdata
      have hdeploy : LaidOut (.deploy (readTicker data 6)) _ := .deploy
      rwa [← hdata] at hdeploy
    · refine ⟨htick, ?_⟩
      have hdata := hlaid (by rw [hlength]; decide)
      obtain ⟨hamt, hfirst⟩ := drop_of_readU64BE 10 (by rw [hlength]; decide)
      obtain ⟨hs, hsecond⟩ := drop_of_readU64BE 18 (by rw [hlength]; decide)
      rw [List.drop_eq_nil_of_le (i := 18 + 8) (by rw [hlength]; decide), List.append_nil] at hsecond
      rw [hop, hfirst, hsecond] at hdata
      have hmint : LaidOut (.mint (readTicker data 6) _ _) _ := .mint hamt hs
      rwa [← hdata] at hmint
    · refine ⟨htick, ?_⟩
      have hdata := hlaid (by rw [hlength]; decide)
      obtain ⟨hamt, hfirst⟩ := drop_of_readU64BE 10 (by rw [hlength]; decide)
      rw [List.drop_eq_nil_of_le (i := 10 + 8) (by rw [hlength]; decide), List.append_nil] at hfirst
      rw [hop, hfirst] at hdata
      have htransfer : LaidOut (.transfer (readTicker data 6) _) _ := .transfer hamt
      rwa [← hdata] at htransfer
  · rintro ⟨htick, hlaid⟩
    cases hlaid with
    | @deploy tick =>
      have hfour : tick.length = 4 := tickBytes_length htick
      obtain ⟨hmagic, hversion, hop, hread, -⟩ := layout_header opDeploy [] hfour
      rw [hread]
      refine ⟨hmagic, hversion, htick, .inl ⟨hop, ?_, rfl⟩⟩
      rw [length_layout, hfour]
      rfl
    | @mint tick amt s hamt hs =>
      have hfour : tick.length = 4 := tickBytes_length htick
      obtain ⟨hmagic, hversion, hop, hread, hdrop⟩ :=
        layout_header opMint (Bytes.ofNatBE 8 amt ++ Bytes.ofNatBE 8 s) hfour
      have hsecond := Bytes.drop_of_drop hdrop
      rw [Bytes.length_ofNatBE] at hsecond
      have hamount := readU64BE_of_drop _ hamt hdrop
      have hsupply := readU64BE_of_drop [] hs (by rw [List.append_nil]; exact hsecond)
      rw [hread, hamount, hsupply]
      refine ⟨hmagic, hversion, htick, .inr (.inl ⟨hop, ?_, rfl⟩)⟩
      rw [length_layout, hfour, List.length_append, Bytes.length_ofNatBE, Bytes.length_ofNatBE]
      rfl
    | @transfer tick amt hamt =>
      have hfour : tick.length = 4 := tickBytes_length htick
      obtain ⟨hmagic, hversion, hop, hread, hdrop⟩ :=
        layout_header opTransfer (Bytes.ofNatBE 8 amt) hfour
      have hamount := readU64BE_of_drop [] hamt
        (by rw [List.append_nil]; exact hdrop)
      rw [hread, hamount]
      refine ⟨hmagic, hversion, htick, .inr (.inr ⟨hop, ?_, rfl⟩)⟩
      rw [length_layout, hfour, Bytes.length_ofNatBE]
      rfl

/-! The reference decoder reads the same fields. -/

theorem tickOf_eq (data : Bytes) (off : Nat) :
    tickOf data off 4 =
      if tickBytes (readTicker data off) then some (readTicker data off) else none := by
  obtain ⟨p, hp⟩ : ∃ p : UInt8 → Bool,
      ∀ c, p c = ((0x30 ≤ c && c ≤ 0x39) || (0x41 ≤ c && c ≤ 0x5a)) := ⟨_, fun _ => rfl⟩
  simp only [tickOf, tickBytes, readTicker, ← hp, List.all_cons, List.all_nil, List.length_cons,
    List.length_nil, Nat.add_assoc]
  cases p (data.getD off 0) <;> cases p (data.getD (off + 1) 0) <;>
    cases p (data.getD (off + 2) 0) <;> cases p (data.getD (off + 3) 0) <;> rfl

theorem getBigUint64_eq {data : Bytes} {off : Nat} (h : off + 8 ≤ data.length) :
    getBigUint64 data off = readU64BE data off := (readU64BE_eq h).symm

private theorem ensure_then {α : Type} (c : Prop) [Decidable c] (e : String)
    (f : Unit → Except String α) : (ensure c e >>= f) = if c then f () else .error e := by
  by_cases h : c <;> simp [ensure, h, bind, Except.bind]

theorem decodeCoveEnvelopeReference_eq (data : Bytes) :
    decodeCoveEnvelopeReference data = referenceOf (decodeCoveEnvelope data) := by
  have hamount (h : 18 ≤ data.length) : getBigUint64 data 10 = readU64BE data 10 :=
    getBigUint64_eq h
  have hsupply (h : 26 ≤ data.length) : getBigUint64 data 18 = readU64BE data 18 :=
    getBigUint64_eq h
  unfold decodeCoveEnvelopeReference decodeCoveEnvelope
  simp only [tickOf_eq, ensure_then]
  by_cases hmagic : isCoveMagic data = true
  swap
  · rw [if_pos hmagic, if_neg hmagic]
    rfl
  rw [if_neg (not_not.mpr hmagic), if_pos hmagic]
  by_cases hshort : 6 ≤ data.length
  swap
  · rw [if_pos (Nat.lt_of_not_le hshort), if_neg hshort]
    rfl
  rw [if_neg (Nat.not_lt.mpr hshort), if_pos hshort]
  by_cases hversion : data.getD 4 0 = 1
  swap
  · rw [if_pos hversion, if_neg (show ¬data.getD 4 0 = coveVersion from hversion)]
    rfl
  rw [if_neg (not_not.mpr hversion), if_pos (show data.getD 4 0 = coveVersion from hversion)]
  -- from here the two differ only in how they read the ticker and the numbers
  by_cases htick : tickBytes (readTicker data 6) = true
  · simp only [htick, if_true]
    by_cases hmint : data.length = coveMintLen
    · rw [hamount (by rw [hmint]; decide), hsupply (by rw [hmint]; decide)]
      split_ifs <;> first | rfl | contradiction
    · by_cases htransfer : data.length = coveTransferLen
      · rw [hamount (by rw [htransfer]; decide)]
        split_ifs <;> first | rfl | contradiction
      · split_ifs <;> first | rfl | contradiction
  · simp only [htick]
    split_ifs <;> first | rfl | contradiction

/-- The decoder accepts exactly what the encoders write for a well-formed ticker, each byte string
as the message it encodes, and the second decoder gives the same answer on every input. -/
theorem decodeCoveEnvelope_exact (data : Bytes) :
    (∀ e : CoveEnvelope,
      decodeCoveEnvelope data = .ok e ↔ tickBytes e.tick = true ∧ e.encode = .ok data) ∧
    decodeCoveEnvelopeReference data = referenceOf (decodeCoveEnvelope data) := by
  refine ⟨fun e => ?_, decodeCoveEnvelopeReference_eq data⟩
  rw [decode_eq_ok_iff]
  constructor
  · rintro ⟨htick, hlaid⟩
    exact ⟨htick, (encode_eq_ok (tickBytes_length htick)).mpr hlaid⟩
  · rintro ⟨htick, hencoded⟩
    exact ⟨htick, (encode_eq_ok (tickBytes_length htick)).mp hencoded⟩

end Protocol

end Cove
