import Cove.Lib.Bytes

/-! SHA-256 as FIPS 180-4 states it, on natural-number words below `2 ^ 32`. The operations are
the plain ones of `Nat`, and the padded message stands in one number, as the sixteen last words of
the schedule do, so that a hash of known bytes can be evaluated. -/

namespace Sha256

/-! The four functions that mix the rotations of a word. It is laid twice side by side: its
rotation by `n` are the low 32 bits from bit `n` on, and what is above them is cut off with the
sums. -/

def bigSigma0 (x : Nat) : Nat :=
  (((((x.mul 0x100000001).shiftRight 9).xor (x.mul 0x100000001)).shiftRight 11).xor
    (x.mul 0x100000001)).shiftRight 2

def bigSigma1 (x : Nat) : Nat :=
  (((((x.mul 0x100000001).shiftRight 14).xor (x.mul 0x100000001)).shiftRight 5).xor
    (x.mul 0x100000001)).shiftRight 6

def smallSigma0 (x : Nat) : Nat :=
  ((((x.mul 0x100000001).shiftRight 11).xor (x.mul 0x100000001)).shiftRight 7).xor (x.shiftRight 3)

def smallSigma1 (x : Nat) : Nat :=
  ((((x.mul 0x100000001).shiftRight 2).xor (x.mul 0x100000001)).shiftRight 17).xor
    (x.shiftRight 10)

def roundConstants : List Nat := [
  0x428a2f98, 0x71374491, 0xb5c0fbcf, 0xe9b5dba5, 0x3956c25b, 0x59f111f1, 0x923f82a4, 0xab1c5ed5,
  0xd807aa98, 0x12835b01, 0x243185be, 0x550c7dc3, 0x72be5d74, 0x80deb1fe, 0x9bdc06a7, 0xc19bf174,
  0xe49b69c1, 0xefbe4786, 0x0fc19dc6, 0x240ca1cc, 0x2de92c6f, 0x4a7484aa, 0x5cb0a9dc, 0x76f988da,
  0x983e5152, 0xa831c66d, 0xb00327c8, 0xbf597fc7, 0xc6e00bf3, 0xd5a79147, 0x06ca6351, 0x14292967,
  0x27b70a85, 0x2e1b2138, 0x4d2c6dfc, 0x53380d13, 0x650a7354, 0x766a0abb, 0x81c2c92e, 0x92722c85,
  0xa2bfe8a1, 0xa81a664b, 0xc24b8b70, 0xc76c51a3, 0xd192e819, 0xd6990624, 0xf40e3585, 0x106aa070,
  0x19a4c116, 0x1e376c08, 0x2748774c, 0x34b0bcb5, 0x391c0cb3, 0x4ed8aa4a, 0x5b9cca4f, 0x682e6ff3,
  0x748f82ee, 0x78a5636f, 0x84c87814, 0x8cc70208, 0x90befffa, 0xa4506ceb, 0xbef9a3f7, 0xc67178f2]

def initialHash : List Nat := [
  0x6a09e667, 0xbb67ae85, 0x3c6ef372, 0xa54ff53a, 0x510e527f, 0x9b05688c, 0x1f83d9ab, 0x5be0cd19]

/-- The window one word on: the first of its sixteen words leaves it, and the one they make
enters. -/
def nextWindow (window : Nat) : Nat :=
  ((window.mul 0x100000000).add
    (((((window.shiftRight 480).add (smallSigma0 ((window.shiftRight 448).mod 0x100000000))).add
      (window.shiftRight 192)).add
        (smallSigma1 ((window.shiftRight 32).mod 0x100000000))).mod 0x100000000)).mod
          (Nat.pow 2 512)

/-- `kw` is the round's constant and word. -/
def temp1 (e f g h kw : Nat) : Nat :=
  ((h.add (bigSigma1 e)).add (g.xor (e.land (f.xor g)))).add kw

def temp2 (a b c : Nat) : Nat := (bigSigma0 a).add ((a.land b).lor (c.land (a.lor b)))

/-- The rounds, from the window of the sixteen words to come. -/
def rounds : List Nat → Nat → Nat → Nat → Nat → Nat → Nat → Nat → Nat → Nat → List Nat
  | [], _, a, b, c, d, e, f, g, h => [a, b, c, d, e, f, g, h]
  | k :: ks, window, a, b, c, d, e, f, g, h =>
    rounds ks (nextWindow window)
      (((temp1 e f g h (k.add (window.shiftRight 480))).add (temp2 a b c)).mod 0x100000000) a b c
      ((d.add (temp1 e f g h (k.add (window.shiftRight 480)))).mod 0x100000000) e f g

def compress (hash : List Nat) (block : Nat) : List Nat :=
  match hash with
  | [a, b, c, d, e, f, g, h] =>
    List.zipWith (fun x y => (x.add y).mod 0x100000000) hash
      (rounds roundConstants block a b c d e f g h)
  | _ => hash

/-- The hash of so many blocks that stand in one number, the last one lowest. -/
def absorb : Nat → Nat → List Nat
  | 0, _ => initialHash
  | n + 1, blocks => compress (absorb n (blocks.shiftRight 512)) (blocks.mod (Nat.pow 2 512))

/-- A message of `n` bytes with a one bit, the zeros that fill the last block up, and its length. -/
def padded (n message : Nat) : Nat :=
  (((message.mul 256).add 128).mul (Nat.pow 256 ((119 - n % 64) % 64 + 8))).add (n.mul 8)

def sha256 (msg : Bytes) : Bytes :=
  let n := msg.length
  (absorb ((n + 72) / 64) (padded n (msg.foldl (fun a x => (a.mul 256).add x.toNat) 0))).flatMap
    (Bytes.ofNatBE 4)

example : sha256 (Bytes.ascii "abc") =
    Bytes.ofHex "ba7816bf8f01cfea414140de5dae2223b00361a396177a9cb410ff61f20015ad" := by
  decide +kernel

theorem length_rounds (ks : List Nat) (window a b c d e f g h : Nat) :
    (rounds ks window a b c d e f g h).length = 8 := by
  induction ks generalizing window a b c d e f g h with
  | nil => rfl
  | cons k ks ih => exact ih ..

theorem length_compress {hash : List Nat} (h : hash.length = 8) (block : Nat) :
    (compress hash block).length = 8 := by
  unfold compress
  split
  · rw [List.length_zipWith, length_rounds]
    rfl
  · exact h

theorem length_absorb (n blocks : Nat) : (absorb n blocks).length = 8 := by
  induction n generalizing blocks with
  | zero => rfl
  | succ n ih => exact length_compress (ih _) _

theorem length_sha256 (msg : Bytes) : (sha256 msg).length = 32 := by
  have hwords : ∀ words : List Nat,
      (words.flatMap (Bytes.ofNatBE 4)).length = 4 * words.length := by
    intro words
    induction words with
    | nil => rfl
    | cons w words ih =>
      rw [List.flatMap_cons, List.length_append, ih, Bytes.length_ofNatBE, List.length_cons]
      omega
  rw [sha256, hwords, length_absorb]

end Sha256
