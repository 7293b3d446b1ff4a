import Cove.Lib.Delimited

/-! Readers: each takes a value off the front of a byte string and leaves the rest. A reader reads
an encoding when it takes every code off the front, whatever stands behind it. -/

namespace Bytes

/-- Little-endian value. -/
def toNatLE : Bytes → Nat
  | [] => 0
  | b :: bs => b.toNat + 256 * toNatLE bs

theorem toNatLE_ofNatLE {k n : Nat} (h : n < 256 ^ k) : toNatLE (ofNatLE k n) = n := by
  induction k generalizing n with
  | zero =>
    rw [pow_zero, Nat.lt_one_iff] at h
    rw [ofNatLE, toNatLE, h]
  | succ k ih =>
    have hdiv : n / 256 < 256 ^ k := by
      rw [pow_succ] at h
      omega
    rw [ofNatLE, toNatLE, ih hdiv, UInt8.toNat_ofNat']
    omega

end Bytes

abbrev Reader (α : Type) := Bytes → Option (α × Bytes)

/-- The reader takes the code of every value of `P` off the front. -/
def Reads {α : Type} (P : α → Prop) (enc : α → Bytes) (read : Reader α) : Prop :=
  ∀ ⦃a : α⦄, P a → ∀ rest : Bytes, read (enc a ++ rest) = some (a, rest)

namespace Reader

variable {α : Type}

/-- So many bytes. -/
def bytes (n : Nat) : Reader Bytes := fun b =>
  if b.length < n then none else some (b.take n, b.drop n)

/-- A little-endian number of so many bytes. -/
def natLE (k : Nat) : Reader Nat := fun b =>
  (bytes k b).map fun (code, rest) => (Bytes.toNatLE code, rest)

/-- So many values, one behind the other. -/
def replicate (read : Reader α) : Nat → Reader (List α)
  | 0, b => some ([], b)
  | n + 1, b => do
    let (a, b) ← read b
    let (rest, b) ← replicate read n b
    return (a :: rest, b)

/-- A list behind its length. -/
def list (count : Reader Nat) (read : Reader α) : Reader (List α) := fun b => do
  let (n, b) ← count b
  replicate read n b

/-- A byte string behind its length. -/
def prefixed (count : Reader Nat) : Reader Bytes := fun b => do
  let (n, b) ← count b
  bytes n b

/-- The value a whole byte string is the code of. -/
def whole (read : Reader α) (b : Bytes) : Option α :=
  match read b with
  | some (a, []) => some a
  | _ => none

end Reader

namespace Reads

variable {α : Type} {P : α → Prop} {enc : α → Bytes} {read : Reader α}

/-- An encoding that can be read tells its values apart. -/
theorem delimited (h : Reads P enc read) : Delimited P enc := by
  intro a b ha hb s t he
  have hread := h ha s
  rw [he, h hb t, Option.some.injEq, Prod.mk.injEq] at hread
  exact ⟨hread.1.symm, hread.2.symm⟩

theorem whole (h : Reads P enc read) {a : α} (ha : P a) : Reader.whole read (enc a) = some a := by
  have hread := h ha []
  rw [List.append_nil] at hread
  rw [Reader.whole, hread]

theorem bytes (n : Nat) : Reads (fun b : Bytes => b.length = n) id (Reader.bytes n) := by
  intro b hb rest
  rw [Reader.bytes, id, if_neg (by rw [List.length_append]; omega), List.take_left' hb,
    List.drop_left' hb]

theorem natLE (k : Nat) : Reads (fun n => n < 256 ^ k) (Bytes.ofNatLE k) (Reader.natLE k) := by
  intro n hn rest
  have hread := bytes k (Bytes.length_ofNatLE k n) rest
  rw [id] at hread
  rw [Reader.natLE, hread]
  show some (Bytes.toNatLE (Bytes.ofNatLE k n), rest) = _
  rw [Bytes.toNatLE_ofNatLE hn]

theorem replicate (h : Reads P enc read) (n : Nat) :
    Reads (fun l : List α => l.length = n ∧ ∀ a ∈ l, P a) (fun l => l.flatMap enc)
      (Reader.replicate read n) := by
  induction n with
  | zero =>
    intro l hl rest
    obtain rfl := List.length_eq_zero_iff.mp hl.1
    rfl
  | succ n ih =>
    intro l hl rest
    obtain ⟨a, l, rfl⟩ := List.exists_cons_of_length_eq_add_one hl.1
    obtain ⟨ha, hl'⟩ := List.forall_mem_cons.mp hl.2
    have hlen : l.length = n := Nat.succ.inj hl.1
    have hfirst := h ha (l.flatMap enc ++ rest)
    have hrest := ih ⟨hlen, hl'⟩ rest
    show Reader.replicate read (n + 1) ((a :: l).flatMap enc ++ rest) = _
    rw [List.flatMap_cons, List.append_assoc, Reader.replicate, hfirst]
    simp [hrest]

variable {N : Nat → Prop} {len : Nat → Bytes} {count : Reader Nat}

theorem list (hcount : Reads N len count) (h : Reads P enc read) :
    Reads (fun l : List α => N l.length ∧ ∀ a ∈ l, P a) (fun l => len l.length ++ l.flatMap enc)
      (Reader.list count read) := by
  intro l hl rest
  have hlen := hcount hl.1 (l.flatMap enc ++ rest)
  have hitems := replicate h l.length ⟨rfl, hl.2⟩ rest
  rw [List.append_assoc, Reader.list, hlen]
  exact hitems

theorem prefixed (hcount : Reads N len count) :
    Reads (fun b : Bytes => N b.length) (fun b => len b.length ++ b) (Reader.prefixed count) := by
  intro b hb rest
  have hlen := hcount hb (b ++ rest)
  have hbytes := bytes b.length rfl rest
  rw [List.append_assoc, Reader.prefixed, hlen]
  exact hbytes

end Reads
