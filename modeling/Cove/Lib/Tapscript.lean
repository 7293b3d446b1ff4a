import Cove.Lib.Reader

/-! Tapleaf scripts that count signatures behind a relative lock: the numbers, the opcodes and the
runs of such scripts. An opcode that is not listed fails, and the limits on sizes and on the number
of checks are left out. -/

namespace Tapscript

/-! Numbers: little-endian, the highest bit for the sign. -/

def numSize (m : Nat) : Nat :=
  if m < 1 then 0 else if m < 2 ^ 7 then 1 else if m < 2 ^ 15 then 2 else if m < 2 ^ 23 then 3
  else if m < 2 ^ 31 then 4 else 5

def encodeNum (n : Int) : Bytes :=
  let size := numSize n.natAbs
  Bytes.ofNatLE size (if n < 0 then n.natAbs + 2 ^ (8 * size - 1) else n.natAbs)

def readNum (maxSize : Nat) (b : Bytes) : Option Int :=
  if maxSize < b.length then none
  else
    let sign := 2 ^ (8 * b.length - 1)
    some (if sign ≤ Bytes.toNatLE b then -((Bytes.toNatLE b - sign : Nat) : Int)
      else (Bytes.toNatLE b : Int))

def ofBool (b : Bool) : Bytes := if b then [1] else []

/-- No zero, of either sign. -/
def isTrue (b : Bytes) : Bool :=
  b.dropLast.any (· ≠ 0) || b.getLast?.any fun x => x ≠ 0 && x ≠ 0x80

/-- Below the sign bit a code is read as its value. -/
theorem readNum_ofNatLE {maxSize size n : Nat} (hsize : size ≤ maxSize)
    (hn : n < 2 ^ (8 * size - 1)) : readNum maxSize (Bytes.ofNatLE size n) = some (n : Int) := by
  have hpow : (256 : Nat) ^ size = 2 ^ (8 * size) := by
    rw [show (256 : Nat) = 2 ^ 8 by decide, ← pow_mul]
  have hle : 2 ^ (8 * size - 1) ≤ 256 ^ size := by
    rw [hpow]
    exact Nat.pow_le_pow_right (by decide) (by omega)
  rw [readNum, Bytes.length_ofNatLE, if_neg (by omega), Bytes.toNatLE_ofNatLE (by omega)]
  simp [hn]

theorem readNum_encodeNum {maxSize n : Nat} (hmax : 4 ≤ maxSize) (hn : n < 2 ^ 31) :
    readNum maxSize (encodeNum n) = some (n : Int) := by
  have hsign : ¬ (n : Int) < 0 := by omega
  have hbound : numSize n ≤ 4 ∧ n < 2 ^ (8 * numSize n - 1) := by
    unfold numSize
    split_ifs <;> omega
  rw [encodeNum, if_neg hsign, Int.natAbs_natCast]
  exact readNum_ofNatLE (by omega) hbound.2

/-! The opcodes. -/

inductive Op
  | drop
  | numEqual
  | checkSig
  | checkSequenceVerify
  | checkSigAdd
  deriving DecidableEq, Repr

def Op.code : Op → UInt8
  | .drop => 0x75
  | .numEqual => 0x9c
  | .checkSig => 0xac
  | .checkSequenceVerify => 0xb2
  | .checkSigAdd => 0xba

def Op.ofCode (code : UInt8) : Option Op :=
  [Op.drop, .numEqual, .checkSig, .checkSequenceVerify, .checkSigAdd].find? (·.code = code)

inductive Instr
  | push (b : Bytes)
  | op (o : Op)
  deriving DecidableEq, Repr

/-- The instruction at the front of a script. -/
def instr : Reader Instr
  | [] => none
  | c :: rest =>
    let push := fun (b, rest) => (Instr.push b, rest)
    if c ≤ 0x4b then (Reader.bytes c.toNat rest).map push
    else if c = 0x4c then (Reader.prefixed (Reader.natLE 1) rest).map push
    else if c = 0x4d then (Reader.prefixed (Reader.natLE 2) rest).map push
    else if c = 0x4e then (Reader.prefixed (Reader.natLE 4) rest).map push
    else if c = 0x4f then some (.push [0x81], rest)
    else if 0x51 ≤ c && c ≤ 0x60 then some (.push [c - 0x50], rest)
    else (Op.ofCode c).map fun o => (.op o, rest)

/-- A script in instructions, each of a byte at least. -/
def parse : Nat → Bytes → Option (List Instr)
  | _, [] => some []
  | 0, _ :: _ => none
  | fuel + 1, c :: b => do
    let (i, rest) ← instr (c :: b)
    let is ← parse fuel rest
    return i :: is

theorem instr_op (o : Op) (rest : Bytes) : instr (o.code :: rest) = some (.op o, rest) := by
  cases o <;> rfl

/-- Codes that are read at the front of any script are read one behind the other. -/
theorem parse_flatMap {α : Type} {enc : α → Bytes} {xs : List α} {is : List Instr}
    (h : List.Forall₂ (fun x i => ∀ rest, instr (enc x ++ rest) = some (i, rest)) xs is) :
    parse (xs.flatMap enc).length (xs.flatMap enc) = some is := by
  have hfuel : ∀ fuel, (xs.flatMap enc).length ≤ fuel →
      parse fuel (xs.flatMap enc) = some is := by
    induction h with
    | nil =>
      intro fuel _
      cases fuel <;> rfl
    | @cons x i xs is hx _ ih =>
      intro fuel hfuel
      obtain ⟨c, code, hcode⟩ : ∃ c code, enc x = c :: code := by
        apply List.exists_cons_of_ne_nil
        intro hnil
        have hread := hx []
        rw [hnil] at hread
        cases hread
      rw [List.flatMap_cons, List.length_append, hcode, List.length_cons] at hfuel
      obtain ⟨fuel, rfl⟩ : ∃ n, fuel = n + 1 := ⟨fuel - 1, by omega⟩
      have hread := hx (xs.flatMap enc)
      have hrest := ih fuel (by omega)
      rw [hcode, List.cons_append] at hread
      rw [List.flatMap_cons, hcode, List.cons_append]
      simp [parse, hread, hrest]
  exact hfuel _ (le_refl _)

/-- What the opcodes look at of the transaction that spends. -/
structure Spend where
  version : Nat
  sequence : Nat
  checkSig : Bytes → Bytes → Bool

namespace Spend

variable (tx : Spend)

/-- The input's own relative lock is of the same kind and no shorter. -/
def lockMet (n : Nat) : Bool :=
  2 ≤ tx.version && !tx.sequence.testBit 31 && (n.testBit 22 == tx.sequence.testBit 22) &&
    n % 2 ^ 16 ≤ tx.sequence % 2 ^ 16

/-- Bit 31 asks for no lock at all. -/
def passesLock (n : Nat) : Bool := n.testBit 31 || tx.lockMet n

/-- An empty signature is none, and a wrong one fails the script. Keys of other lengths are of no
known kind, whose signatures pass. -/
def checks (key sig : Bytes) : Option Bool :=
  if key = [] then none
  else if sig = [] then some false
  else if key.length = 32 then (if tx.checkSig key sig then some true else none)
  else some true

def step : Instr → List Bytes → Option (List Bytes)
  | .push b, s => some (b :: s)
  | .op .drop, _ :: s => some s
  | .op .numEqual, b :: a :: s => do
    let x ← readNum 4 a
    let y ← readNum 4 b
    return ofBool (x = y) :: s
  | .op .checkSig, key :: sig :: s => do
    let ok ← tx.checks key sig
    return ofBool ok :: s
  | .op .checkSequenceVerify, b :: s => do
    let n ← readNum 5 b
    if n < 0 then none else if tx.passesLock n.toNat then some (b :: s) else none
  | .op .checkSigAdd, key :: b :: sig :: s => do
    let n ← readNum 4 b
    let ok ← tx.checks key sig
    return encodeNum (n + if ok then 1 else 0) :: s
  | _, _ => none

def run : List Instr → List Bytes → Option (List Bytes)
  | [], s => some s
  | i :: is, s => (tx.step i s).bind (run is)

/-- What is left is one item, a true one. -/
def leavesTrue : Option (List Bytes) → Bool
  | some [top] => isTrue top
  | _ => false

/-- The script run on a witness, whose last item is on top. -/
def satisfies (script : Bytes) (witness : List Bytes) : Bool :=
  leavesTrue ((parse script.length script).bind fun is => tx.run is witness.reverse)

variable {tx}

theorem run_append (is js : List Instr) (s : List Bytes) :
    tx.run (is ++ js) s = (tx.run is s).bind (tx.run js) := by
  induction is generalizing s with
  | nil => simp [run]
  | cons i is ih => simp [run, ih, Option.bind_assoc]

/-- A key with the signature of its slot, empty for none. -/
abbrev Slot := Bytes × Bytes

/-- The signatures that are there pass their checks. -/
def AllPass (tx : Spend) (slots : List Slot) : Prop :=
  ∀ x ∈ slots, x.2 ≠ [] → tx.checkSig x.1 x.2 = true

def signed (slots : List Slot) : Nat := slots.countP fun x => x.2 ≠ []

theorem checks_eq {key sig : Bytes} (hkey : key.length = 32) (hpass : sig ≠ [] →
    tx.checkSig key sig = true) : tx.checks key sig = some (decide (sig ≠ [])) := by
  have hne : key ≠ [] := List.ne_nil_of_length_pos (by omega)
  by_cases hsig : sig = []
  · simp [checks, hne, hsig]
  · simp [checks, hne, hsig, hkey, hpass hsig]

theorem checks_none {key sig : Bytes} (hkey : key.length = 32) (hsig : sig ≠ [])
    (hfail : tx.checkSig key sig ≠ true) : tx.checks key sig = none := by
  have hne : key ≠ [] := List.ne_nil_of_length_pos (by omega)
  simp [checks, hne, hsig, hkey, hfail]

/-- The checks of the keys behind the first. -/
def addChecks (keys : List Bytes) : List Instr :=
  keys.flatMap fun k => [.push k, .op .checkSigAdd]

/-- Each check adds one for a signature, or fails the script. -/
theorem run_addChecks {slots : List Slot} (hkeys : ∀ x ∈ slots, x.1.length = 32) (n : Nat)
    (hn : n + signed slots < 2 ^ 31) (rest : List Bytes) :
    (AllPass tx slots → tx.run (addChecks (slots.map Prod.fst))
      (encodeNum n :: (slots.map Prod.snd ++ rest)) =
        some (encodeNum (n + signed slots : Nat) :: rest)) ∧
    (¬ AllPass tx slots → tx.run (addChecks (slots.map Prod.fst))
      (encodeNum n :: (slots.map Prod.snd ++ rest)) = none) := by
  induction slots generalizing n with
  | nil => simp [addChecks, signed, run, AllPass]
  | cons x slots ih =>
    obtain ⟨hkey, hkeys⟩ := List.forall_mem_cons.mp hkeys
    have hread : readNum 4 (encodeNum n) = some (n : Int) := by
      apply readNum_encodeNum (le_refl 4)
      omega
    have hsplit : addChecks ((x :: slots).map Prod.fst) =
        .push x.1 :: .op .checkSigAdd :: addChecks (slots.map Prod.fst) := by
      simp [addChecks]
    by_cases hpass : x.2 ≠ [] → tx.checkSig x.1 x.2 = true
    · have hcount : signed (x :: slots) = signed slots + if x.2 ≠ [] then 1 else 0 := by
        simp [signed, List.countP_cons]
      have hnext : (encodeNum (n + if decide (x.2 ≠ []) = true then 1 else 0) : Bytes) =
          encodeNum ((n + (if x.2 ≠ [] then 1 else 0) : Nat) : Int) := by
        split_ifs <;> simp_all
      have hrun : tx.run (addChecks ((x :: slots).map Prod.fst))
          (encodeNum n :: ((x :: slots).map Prod.snd ++ rest)) =
          tx.run (addChecks (slots.map Prod.fst))
            (encodeNum (n + (if x.2 ≠ [] then 1 else 0) : Nat) ::
              (slots.map Prod.snd ++ rest)) := by
        rw [hsplit, ← hnext]
        simp [run, step, hread, checks_eq hkey hpass]
      obtain ⟨hyes, hno⟩ := ih hkeys (n + if x.2 ≠ [] then 1 else 0) (by omega)
      have hall : AllPass tx (x :: slots) ↔ AllPass tx slots := by
        simp only [AllPass, List.forall_mem_cons]
        exact ⟨fun h => h.2, fun h => ⟨hpass, h⟩⟩
      rw [hrun, hall]
      refine ⟨?_, hno⟩
      intro h
      have hsum : n + signed (x :: slots) =
          n + (if x.2 ≠ [] then 1 else 0) + signed slots := by
        omega
      rw [hyes h, hsum]
    · have hfail : x.2 ≠ [] ∧ tx.checkSig x.1 x.2 ≠ true := by
        simpa using hpass
      have hall : ¬ AllPass tx (x :: slots) := fun h => hpass (h x List.mem_cons_self)
      refine ⟨fun h => absurd h hall, fun _ => ?_⟩
      rw [hsplit]
      simp [run, step, hread, checks_none hkey hfail.1 hfail.2]

/-- One check, then one that adds for each further key. -/
def keyChecks : List Bytes → List Instr
  | [] => []
  | k :: ks => .push k :: .op .checkSig :: addChecks ks

/-- So many signatures by these keys, behind a relative lock. -/
def thresholdScript (lock : Bytes) (threshold : UInt8) (keys : List Bytes) : List Instr :=
  [Instr.push lock, Instr.op .checkSequenceVerify, Instr.op .drop] ++ keyChecks keys ++
    [Instr.push [threshold], Instr.op .numEqual]

theorem ofBool_eq_encodeNum (b : Bool) :
    ofBool b = encodeNum ((if b then 1 else 0 : Nat) : Int) := by
  cases b with
  | false => decide
  | true => decide

theorem run_keyChecks {slots : List Slot} (hne : slots ≠ [])
    (hkeys : ∀ x ∈ slots, x.1.length = 32) (hn : signed slots < 2 ^ 31) :
    (AllPass tx slots → tx.run (keyChecks (slots.map Prod.fst)) (slots.map Prod.snd) =
      some [encodeNum (signed slots : Nat)]) ∧
    (¬ AllPass tx slots →
      tx.run (keyChecks (slots.map Prod.fst)) (slots.map Prod.snd) = none) := by
  obtain ⟨x, slots, rfl⟩ := List.exists_cons_of_ne_nil hne
  obtain ⟨hkey, hkeys⟩ := List.forall_mem_cons.mp hkeys
  have hcount : signed (x :: slots) = signed slots + if x.2 ≠ [] then 1 else 0 := by
    simp [signed, List.countP_cons]
  by_cases hpass : x.2 ≠ [] → tx.checkSig x.1 x.2 = true
  · have hrun : tx.run (keyChecks ((x :: slots).map Prod.fst)) ((x :: slots).map Prod.snd) =
        tx.run (addChecks (slots.map Prod.fst))
          (encodeNum ((if x.2 ≠ [] then 1 else 0 : Nat)) :: (slots.map Prod.snd ++ [])) := by
      have hbool := ofBool_eq_encodeNum (decide (x.2 ≠ []))
      simp only [decide_eq_true_eq] at hbool
      rw [← hbool]
      simp [keyChecks, run, step, checks_eq hkey hpass]
    obtain ⟨hyes, hno⟩ := @run_addChecks tx _ hkeys (if x.2 ≠ [] then 1 else 0) (by omega) []
    have hall : AllPass tx (x :: slots) ↔ AllPass tx slots := by
      simp only [AllPass, List.forall_mem_cons]
      exact ⟨fun h => h.2, fun h => ⟨hpass, h⟩⟩
    rw [hrun, hall]
    refine ⟨?_, hno⟩
    intro h
    rw [hyes h, hcount, Nat.add_comm]
  · have hfail : x.2 ≠ [] ∧ tx.checkSig x.1 x.2 ≠ true := by
      simpa using hpass
    have hall : ¬ AllPass tx (x :: slots) := fun h => hpass (h x List.mem_cons_self)
    refine ⟨fun h => absurd h hall, fun _ => ?_⟩
    simp [keyChecks, run, step, checks_none hkey hfail.1 hfail.2]

theorem run_lock {lock : Bytes} {n : Nat} (hlock : readNum 5 lock = some (n : Int))
    (s : List Bytes) : tx.run [.push lock, .op .checkSequenceVerify, .op .drop] s =
      if tx.passesLock n then some s else none := by
  have hnonneg : ¬ (n : Int) < 0 := by omega
  by_cases hpasses : tx.passesLock n = true
  · simp [run, step, hlock, hnonneg, hpasses]
  · simp [run, step, hlock, hnonneg, hpasses]

theorem run_numEqual {a b : Bytes} {x y : Int} (ha : readNum 4 a = some x)
    (hb : readNum 4 b = some y) (s : List Bytes) :
    tx.run [.push b, .op .numEqual] (a :: s) = some (ofBool (decide (x = y)) :: s) := by
  simp [run, step, ha, hb]

/-- The script takes exactly so many signatures, all of which pass, once the lock has run. -/
theorem threshold_iff {slots : List Slot} (hne : slots ≠ [])
    (hkeys : ∀ x ∈ slots, x.1.length = 32) {lock : Bytes} {n threshold : Nat}
    (hlock : readNum 5 lock = some (n : Int)) (hthreshold : threshold < 2 ^ 7)
    (hcount : signed slots < 2 ^ 31) :
    leavesTrue (tx.run (thresholdScript lock (UInt8.ofNat threshold) (slots.map Prod.fst))
        (slots.map Prod.snd)) = true ↔
      tx.passesLock n = true ∧ AllPass tx slots ∧ signed slots = threshold := by
  have hpushed : readNum 4 [UInt8.ofNat threshold] = some (threshold : Int) :=
    @readNum_ofNatLE 4 1 threshold (by decide) (by simpa using hthreshold)
  have hcounted := readNum_encodeNum (le_refl 4) hcount
  obtain ⟨hyes, hno⟩ := @run_keyChecks tx _ hne hkeys hcount
  rw [thresholdScript, run_append, run_append, run_lock hlock]
  by_cases hpasses : tx.passesLock n = true
  · rw [if_pos hpasses, Option.bind_some]
    by_cases hall : AllPass tx slots
    · rw [hyes hall, Option.bind_some, run_numEqual hcounted hpushed, leavesTrue]
      by_cases heq : signed slots = threshold
      · have htrue : isTrue (ofBool true) = true := by decide
        simp [hpasses, hall, heq, htrue]
      · have hfalse : isTrue (ofBool false) = false := by decide
        simp [heq, hfalse]
    · rw [hno hall]
      simp [hall, leavesTrue]
  · rw [if_neg hpasses]
    simp [hpasses, leavesTrue]

end Spend

end Tapscript
