import Cove.Lib.Checked
import Cove.Lib.Dict
import Cove.Wire.TokenId

/-! BIP340/BIP341 constructions: `packages/cove-vault/src/taproot.ts`, and the script
compiler of `bitcoinjs-lib` they are fed with. -/

namespace Cove

open Checked

/-- A chunk handed to `bitcoin.script.compile`. -/
inductive ScriptChunk
  | op (code : UInt8)
  | data (b : Bytes)
  deriving DecidableEq, Repr

/-- `bitcoin.script.number.encode` of a non-negative number. Its shifts keep 32 bits, and the fifth
byte is cleared. -/
def scriptNumber (n : Nat) : Bytes :=
  if n > 0x7fffffff then Bytes.ofNatLE 4 n ++ [0x00]
  else
    let size := if n > 0x7fffff then 4 else if n > 0x7fff then 3 else if n > 0x7f then 2
      else if n > 0 then 1 else 0
    Bytes.ofNatLE size n

/-- The opcode that pushes the data, when one does. -/
def asMinimalOp : Bytes → Option UInt8
  | [] => some 0x00
  | [b] => if 1 ≤ b && b ≤ 16 then some (0x50 + b) else if b = 0x81 then some 0x4f else none
  | _ => none

def ScriptChunk.compile : ScriptChunk → Bytes
  | .op code => [code]
  | .data b =>
    match asMinimalOp b with
    | some code => [code]
    | none =>
      if b.length < 0x4c then UInt8.ofNat b.length :: b
      else if b.length ≤ 0xff then 0x4c :: UInt8.ofNat b.length :: b
      else if b.length ≤ 0xffff then 0x4d :: (Bytes.ofNatLE 2 b.length ++ b)
      else 0x4e :: (Bytes.ofNatLE 4 b.length ++ b)

def scriptCompile (chunks : List ScriptChunk) : Bytes := chunks.flatMap ScriptChunk.compile

def leafVersionTapscript : UInt8 := 0xc0

def tapleafHash (C : Crypto) (script : Bytes) (version : UInt8) : Bytes :=
  let n := script.length
  let len :=
    if n < 0xfd then [UInt8.ofNat n]
    else if n ≤ 0xffff then 0xfd :: Bytes.ofNatLE 2 n
    else 0xfe :: Bytes.ofNatLE 4 n
  taggedHash C "TapLeaf" (version :: (len ++ script))

/-- The children enter the hash in lexicographic order. -/
def tapBranchHash (C : Crypto) (a b : Bytes) : Bytes :=
  taggedHash C "TapBranch" (if Bytes.le a b then a ++ b else b ++ a)

/-- One round of pairwise combination; an odd last hash is carried up. -/
def combineLevel (C : Crypto) : List Bytes → List Bytes
  | a :: b :: rest => tapBranchHash C a b :: combineLevel C rest
  | [a] => [a]
  | [] => []

/-- The loop of `taprootMerkleRoot`; a round at least halves a level of two or
more, so the level's own length is fuel enough. -/
def merkleLevels (C : Crypto) : Nat → List Bytes → List Bytes
  | 0, level => level
  | fuel + 1, level =>
    if level.length > 1 then merkleLevels C fuel (combineLevel C level) else level

def taprootMerkleRoot (C : Crypto) (leafHashes : List Bytes) : Except Fault Bytes := do
  ensure (leafHashes ≠ []) ⟨none, "empty leaf set"⟩
  return (merkleLevels C leafHashes.length (leafHashes.insertionSort Bytes.le)).headD []

/-- A subtree while the merkle paths are collected. -/
structure MerkleNode where
  hash : Bytes
  leaves : List Bytes
  deriving DecidableEq, Repr

/-- Append a sibling to the path of each listed leaf. -/
def pushSibling (leaves : List Bytes) (sibling : Bytes) (paths : Dict Bytes (List Bytes)) :
    Dict Bytes (List Bytes) :=
  leaves.foldl (fun m leaf => m.set leaf ((m.get leaf).getD [] ++ [sibling])) paths

def pairNodes (C : Crypto) : List MerkleNode → Dict Bytes (List Bytes) →
    List MerkleNode × Dict Bytes (List Bytes)
  | a :: b :: rest, paths =>
    let paths := pushSibling b.leaves a.hash (pushSibling a.leaves b.hash paths)
    let (next, paths) := pairNodes C rest paths
    (⟨tapBranchHash C a.hash b.hash, a.leaves ++ b.leaves⟩ :: next, paths)
  | [a], paths => ([a], paths)
  | [], paths => ([], paths)

def merklePathsLoop (C : Crypto) : Nat → List MerkleNode → Dict Bytes (List Bytes) →
    Dict Bytes (List Bytes)
  | 0, _, paths => paths
  | fuel + 1, level, paths =>
    if level.length > 1 then
      let (next, paths) := pairNodes C level paths
      merklePathsLoop C fuel next paths
    else paths

/-- The sibling hashes of each leaf, bottom up. -/
def merklePaths (C : Crypto) (leafHashes : List Bytes) : Dict Bytes (List Bytes) :=
  merklePathsLoop C leafHashes.length
    ((leafHashes.insertionSort Bytes.le).map fun h => ⟨h, [h]⟩)
    ((∅ : Dict Bytes (List Bytes)).setAll (leafHashes.map fun h => (h, [])))

def tapTweak (C : Crypto) (internalKey merkleRoot : Bytes) : Bytes :=
  taggedHash C "TapTweak" (internalKey ++ merkleRoot)

/-- The output key and its parity. -/
def tweakKey (C : Crypto) (internalKey merkleRoot : Bytes) : Except Fault (Bytes × Nat) :=
  demand (C.xOnlyPointAddTweak internalKey (tapTweak C internalKey merkleRoot))
    ⟨none, "Taproot tweak produced the point at infinity"⟩

end Cove
