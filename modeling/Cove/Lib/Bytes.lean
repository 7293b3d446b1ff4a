import Mathlib.Data.List.Sort
import Mathlib.Data.Multiset.Basic
import Mathlib.Order.Lex
import Mathlib.Data.List.Lex
import Mathlib.Tactic.Linarith
import Mathlib.Tactic.Ring

/-- A byte string. Text that is hashed or compared stands as its UTF-8 bytes,
and hexadecimal text as the bytes it spells. -/
abbrev Bytes := List UInt8

instance : LawfulBEq Bytes := inferInstance

namespace Bytes

/-- The bytes of a text whose characters are all ASCII. -/
def ascii (s : String) : Bytes := s.toList.map fun c => UInt8.ofNat c.toNat

/-- What a UTF-8 decoder waits for: the value so far, how many bytes are missing, and the range
of the next one. -/
structure Utf8State where
  value : Nat := 0
  needed : Nat := 0
  lower : UInt8 := 0x80
  upper : UInt8 := 0xbf

/-- The decoder at the start of a character. -/
def utf8First (b : UInt8) : List Char × Utf8State :=
  if b ≤ 0x7f then ([Char.ofNat b.toNat], {})
  else if 0xc2 ≤ b && b ≤ 0xdf then ([], ⟨b.toNat % 32, 1, 0x80, 0xbf⟩)
  else if 0xe0 ≤ b && b ≤ 0xef then
    ([], ⟨b.toNat % 16, 2, if b = 0xe0 then 0xa0 else 0x80, if b = 0xed then 0x9f else 0xbf⟩)
  else if 0xf0 ≤ b && b ≤ 0xf4 then
    ([], ⟨b.toNat % 8, 3, if b = 0xf0 then 0x90 else 0x80, if b = 0xf4 then 0x8f else 0xbf⟩)
  else (['\uFFFD'], {})

/-- `toString("utf8")`: a sequence that breaks off is replaced, and decoding goes on at the
byte that broke it. -/
def utf8Chars (s : Utf8State) : Bytes → List Char
  | [] => if s.needed = 0 then [] else ['\uFFFD']
  | b :: bs =>
    if s.needed = 0 then
      let (out, s) := utf8First b
      out ++ utf8Chars s bs
    else if s.lower ≤ b && b ≤ s.upper then
      let value := s.value * 64 + b.toNat % 64
      if s.needed = 1 then Char.ofNat value :: utf8Chars {} bs
      else utf8Chars ⟨value, s.needed - 1, 0x80, 0xbf⟩ bs
    else
      let (out, s) := utf8First b
      '\uFFFD' :: (out ++ utf8Chars s bs)

def utf8Text (b : Bytes) : String := String.ofList (utf8Chars {} b)

/-- Big-endian value. -/
def toNatBE (b : Bytes) : Nat := b.foldl (fun a x => a * 256 + x.toNat) 0

/-- Big-endian encoding in a fixed number of bytes. -/
def ofNatBE : Nat → Nat → Bytes
  | 0, _ => []
  | k + 1, n => UInt8.ofNat (n / 256 ^ k) :: ofNatBE k n

/-- Little-endian encoding in a fixed number of bytes. -/
def ofNatLE : Nat → Nat → Bytes
  | 0, _ => []
  | k + 1, n => UInt8.ofNat n :: ofNatLE k (n / 256)

@[simp] theorem length_ofNatBE (k n : Nat) : (ofNatBE k n).length = k := by
  induction k with
  | zero => rfl
  | succ k ih => simp [ofNatBE, ih]

theorem foldl_value (b : Bytes) (a : Nat) :
    b.foldl (fun a x => a * 256 + x.toNat) a = a * 256 ^ b.length + toNatBE b := by
  induction b generalizing a with
  | nil => simp [toNatBE]
  | cons x b ih =>
    have hcons : toNatBE (x :: b) = (0 * 256 + x.toNat) * 256 ^ b.length + toNatBE b := ih _
    rw [List.foldl_cons, ih, hcons, List.length_cons, Nat.pow_succ]
    ring

theorem toNatBE_cons (x : UInt8) (b : Bytes) :
    toNatBE (x :: b) = x.toNat * 256 ^ b.length + toNatBE b := by
  rw [toNatBE, List.foldl_cons, foldl_value]
  simp

theorem toNatBE_lt (b : Bytes) : toNatBE b < 256 ^ b.length := by
  induction b with
  | nil => simp [toNatBE]
  | cons x b ih =>
    rw [toNatBE_cons, List.length_cons, Nat.pow_succ]
    have hx := x.toNat_lt
    nlinarith [Nat.pow_pos (n := b.length) (show 0 < 256 by decide)]

theorem toNatBE_ofNatBE_mod (k n : Nat) : toNatBE (ofNatBE k n) = n % 256 ^ k := by
  induction k with
  | zero => simp [ofNatBE, toNatBE, Nat.mod_one]
  | succ k ih =>
    rw [ofNatBE, toNatBE_cons, ih, length_ofNatBE, Nat.pow_succ, Nat.mod_mul, UInt8.toNat_ofNat']
    ring

/-- A number that fits the width is read back. -/
theorem toNatBE_ofNatBE {k n : Nat} (h : n < 256 ^ k) : toNatBE (ofNatBE k n) = n := by
  rw [toNatBE_ofNatBE_mod, Nat.mod_eq_of_lt h]

theorem ofNatBE_add_mul (k m n : Nat) : ofNatBE k (m * 256 ^ k + n) = ofNatBE k n := by
  induction k generalizing m with
  | zero => rfl
  | succ k ih =>
    have hpos : 0 < 256 ^ k := Nat.pow_pos (by decide)
    have hmul : m * 256 ^ (k + 1) + n = (m * 256) * 256 ^ k + n := by ring
    rw [hmul, ofNatBE, ofNatBE, ih, Nat.mul_comm (m * 256), Nat.mul_add_div hpos]
    congr 1
    apply UInt8.toNat.inj
    rw [UInt8.toNat_ofNat', UInt8.toNat_ofNat']
    omega

/-- The bytes of a value read at their own width are the bytes again. -/
theorem ofNatBE_toNatBE (b : Bytes) : ofNatBE b.length (toNatBE b) = b := by
  induction b with
  | nil => rfl
  | cons x b ih =>
    have hpos : 0 < 256 ^ b.length := Nat.pow_pos (by decide)
    rw [List.length_cons, ofNatBE, toNatBE_cons, ofNatBE_add_mul, ih, Nat.mul_comm,
      Nat.mul_add_div hpos, Nat.div_eq_of_lt (toNatBE_lt b), Nat.add_zero, UInt8.ofNat_toNat]

@[simp] theorem length_ofNatLE (k n : Nat) : (ofNatLE k n).length = k := by
  induction k generalizing n with
  | zero => rfl
  | succ k ih => simp [ofNatLE, ih]

theorem ofNatLE_injective {k m n : Nat} (hm : m < 256 ^ k) (hn : n < 256 ^ k)
    (h : ofNatLE k m = ofNatLE k n) : m = n := by
  induction k generalizing m n with
  | zero => omega
  | succ k ih =>
    obtain ⟨hlow, hhigh⟩ := List.cons.inj h
    have hlow := congrArg UInt8.toNat hlow
    rw [UInt8.toNat_ofNat', UInt8.toNat_ofNat'] at hlow
    rw [Nat.pow_succ] at hm hn
    have hdiv : m / 256 = n / 256 := ih (by omega) (by omega) hhigh
    omega

/-- `length` bytes from `start`, as a buffer's `subarray` gives them. -/
def slice (b : Bytes) (start length : Nat) : Bytes := (b.drop start).take length

theorem length_slice {b : Bytes} {start length : Nat} (h : start + length ≤ b.length) :
    (slice b start length).length = length := by
  simp only [slice, List.length_take, List.length_drop]
  omega

/-- What stands from an offset on, a field first. -/
theorem drop_eq_slice_append (b : Bytes) (start length : Nat) :
    b.drop start = slice b start length ++ b.drop (start + length) := by
  rw [slice, ← List.drop_drop, List.take_append_drop]

theorem drop_eq_getD_cons (b : Bytes) (start : Nat) (h : start < b.length) :
    b.drop start = b.getD start 0 :: b.drop (start + 1) := by
  rw [List.drop_eq_getElem_cons h, List.getD_eq_getElem?_getD, List.getElem?_eq_getElem h]
  rfl

/-- A field found where it was put. -/
theorem slice_of_drop {b field rest : Bytes} {start : Nat} (h : b.drop start = field ++ rest) :
    slice b start field.length = field := by
  rw [slice, h, List.take_left]

theorem getD_of_drop {b rest : Bytes} {x : UInt8} {start : Nat} (h : b.drop start = x :: rest) :
    b.getD start 0 = x := by
  have hget := congrArg (fun l : Bytes => l[0]?) h
  simp only [List.getElem?_drop, Nat.add_zero, List.getElem?_cons_zero] at hget
  simp [List.getD_eq_getElem?_getD, hget]

theorem drop_of_drop {b field rest : Bytes} {start : Nat} (h : b.drop start = field ++ rest) :
    b.drop (start + field.length) = rest := by
  rw [← List.drop_drop, h, List.drop_left]

/-- What follows a field of one byte. -/
theorem drop_succ_of_drop {b rest : Bytes} {x : UInt8} {start : Nat} (h : b.drop start = x :: rest) :
    b.drop (start + 1) = rest := by
  rw [← List.drop_drop, h]
  rfl

def hexDigit (n : Nat) : UInt8 := UInt8.ofNat (if n < 10 then 48 + n else 87 + n)

/-- The lower-case hexadecimal text of a byte string. -/
def hexText (b : Bytes) : Bytes :=
  b.flatMap fun x => [hexDigit (x.toNat / 16), hexDigit (x.toNat % 16)]

/-- The same text as a string. -/
def hexString (b : Bytes) : String := String.ofList ((hexText b).map fun x => Char.ofNat x.toNat)

/-- The bytes a hexadecimal text spells; digits are read in pairs. -/
def ofHex (s : String) : Bytes :=
  let digit (c : Char) : Nat :=
    if c.toNat < 58 then c.toNat - 48 else if c.toNat < 71 then c.toNat - 55 else c.toNat - 87
  let rec pairs : List Char → Bytes
    | a :: b :: cs => UInt8.ofNat (16 * digit a + digit b) :: pairs cs
    | _ => []
  pairs s.toList

/-- Decimal digits pushed in front of `acc`; `n + 1` steps are always enough. -/
def decimalDigits : Nat → Nat → Bytes → Bytes
  | 0, _, acc => acc
  | fuel + 1, n, acc =>
    if n < 10 then UInt8.ofNat (48 + n) :: acc
    else decimalDigits fuel (n / 10) (UInt8.ofNat (48 + n % 10) :: acc)

/-- The decimal text of an integer. -/
def decimalText (n : Int) : Bytes :=
  let digits := decimalDigits (n.natAbs + 1) n.natAbs []
  if n < 0 then 45 :: digits else digits

/-- `parts` joined with a separator between each two. -/
def join (sep : Bytes) : List Bytes → Bytes
  | [] => []
  | [p] => p
  | p :: q :: ps => p ++ sep ++ join sep (q :: ps)

/-- The lexicographic order of byte strings. -/
def le (a b : Bytes) : Prop := a.map UInt8.toNat ≤ b.map UInt8.toNat

instance (a b : Bytes) : Decidable (le a b) :=
  inferInstanceAs (Decidable (a.map UInt8.toNat ≤ b.map UInt8.toNat))

instance : IsTrans Bytes le := ⟨fun _ _ _ h k => le_trans h k⟩

instance : Std.Total (α := Bytes) le := ⟨fun _ _ => le_total _ _⟩

instance : Std.Antisymm (α := Bytes) le := ⟨fun _ _ h k =>
  List.map_injective_iff.mpr (fun _ _ => UInt8.toNat.inj) (le_antisymm h k)⟩

/-- The texts of a collection in ascending order; the collection's own order is immaterial. -/
def sorted (s : Multiset Bytes) : List Bytes :=
  Quot.liftOn s (fun l => l.insertionSort le) fun a b h =>
    (((List.perm_insertionSort le a).trans h).trans (List.perm_insertionSort le b).symm).eq_of_pairwise'
      (List.pairwise_insertionSort le a) (List.pairwise_insertionSort le b)

end Bytes
