import Cove.Lib.Bytes

namespace Cove

/-- The third-party primitives: Node's SHA-256 and the two calls made into
`tiny-secp256k1`. The tweak returns the x-only key and its parity, or nothing
at the point at infinity. -/
structure Crypto where
  sha256 : Bytes → Bytes
  isXOnlyPoint : Bytes → Bool
  xOnlyPointAddTweak : Bytes → Bytes → Option (Bytes × Nat)

/-- An output reference; the txid is the displayed (reversed) one. -/
structure OutPoint where
  txid : Bytes
  vout : Nat
  deriving DecidableEq, Repr

/-- A `bitcoinjs-lib` input. The hash is in wire order. -/
structure TxIn where
  hash : Bytes
  index : Nat
  script : Bytes := []
  sequence : Nat := 0xffffffff
  witness : List Bytes := []
  deriving DecidableEq, Repr

structure TxOut where
  script : Bytes
  value : Nat
  deriving DecidableEq, Repr

structure Transaction where
  version : Nat := 2
  ins : List TxIn
  outs : List TxOut
  locktime : Nat := 0
  deriving DecidableEq, Repr

/-- `Buffer.from(ins.hash).reverse()` beside the input's index. -/
def TxIn.outpoint (i : TxIn) : OutPoint := ⟨i.hash.reverse, i.index⟩

namespace Transaction

def varInt (n : Nat) : Bytes :=
  if n < 0xfd then [UInt8.ofNat n]
  else if n ≤ 0xffff then 0xfd :: Bytes.ofNatLE 2 n
  else if n ≤ 0xffffffff then 0xfe :: Bytes.ofNatLE 4 n
  else 0xff :: Bytes.ofNatLE 8 n

def varSlice (b : Bytes) : Bytes := varInt b.length ++ b

/-- The serialization the txid commits to: no marker and no witnesses. -/
def toBuffer (tx : Transaction) : Bytes :=
  Bytes.ofNatLE 4 tx.version ++
  varInt tx.ins.length ++
  tx.ins.flatMap (fun i =>
    i.hash ++ Bytes.ofNatLE 4 i.index ++ varSlice i.script ++ Bytes.ofNatLE 4 i.sequence) ++
  varInt tx.outs.length ++
  tx.outs.flatMap (fun o => Bytes.ofNatLE 8 o.value ++ varSlice o.script) ++
  Bytes.ofNatLE 4 tx.locktime

def getId (C : Crypto) (tx : Transaction) : Bytes :=
  (C.sha256 (C.sha256 tx.toBuffer)).reverse

/-- The outpoints the inputs name, in input order. -/
def spends (tx : Transaction) : List OutPoint := tx.ins.map TxIn.outpoint

end Transaction

/-- The outpoint every coinbase input names; it is no output of any transaction. -/
def nullOutPoint : OutPoint := ⟨List.replicate 32 0, 0xffffffff⟩

/-- What Bitcoin guarantees of the transactions of one chain in block order:
txids differ, no output is spent twice, and an input names an output of an
earlier transaction, never of its own or of a later one. -/
structure ConsensusValid (C : Crypto) (txs : List Transaction) : Prop where
  txids_nodup : (txs.map (Transaction.getId C)).Nodup
  inputs_nodup : ∀ tx ∈ txs, tx.spends.Nodup
  spends_nodup : ((txs.flatMap Transaction.spends).filter (· ≠ nullOutPoint)).Nodup
  spends_earlier : ∀ pre tx post, txs = pre ++ tx :: post →
    ∀ o ∈ tx.spends, o.txid ∉ (tx :: post).map (Transaction.getId C)

/-- `spends_earlier` read down the list. -/
def SpendsEarlier (C : Crypto) : List Transaction → Prop
  | [] => True
  | tx :: post =>
    (∀ o ∈ tx.spends, o.txid ∉ (tx :: post).map (Transaction.getId C)) ∧ SpendsEarlier C post

instance SpendsEarlier.decidable (C : Crypto) : (txs : List Transaction) →
    Decidable (SpendsEarlier C txs)
  | [] => inferInstanceAs (Decidable True)
  | _ :: post =>
    have := SpendsEarlier.decidable C post
    inferInstanceAs (Decidable (_ ∧ _))

theorem spendsEarlier_iff (C : Crypto) (txs : List Transaction) :
    SpendsEarlier C txs ↔ ∀ pre tx post, txs = pre ++ tx :: post →
      ∀ o ∈ tx.spends, o.txid ∉ (tx :: post).map (Transaction.getId C) := by
  induction txs with
  | nil => simp [SpendsEarlier]
  | cons tx txs ih =>
    rw [SpendsEarlier, ih]
    constructor
    · rintro ⟨hhead, htail⟩ pre tx' post he
      cases pre with
      | nil =>
        obtain ⟨rfl, rfl⟩ := List.cons.inj he
        exact hhead
      | cons _ pre =>
        obtain ⟨-, rfl⟩ := List.cons.inj he
        exact htail pre tx' post rfl
    · intro h
      exact ⟨h [] tx txs rfl, fun pre tx' post he => h (tx :: pre) tx' post (by rw [he]; rfl)⟩

theorem consensusValid_iff (C : Crypto) (txs : List Transaction) :
    ConsensusValid C txs ↔ (txs.map (Transaction.getId C)).Nodup ∧ (∀ tx ∈ txs, tx.spends.Nodup) ∧
      ((txs.flatMap Transaction.spends).filter (· ≠ nullOutPoint)).Nodup ∧ SpendsEarlier C txs := by
  rw [spendsEarlier_iff]
  exact ⟨fun h => ⟨h.txids_nodup, h.inputs_nodup, h.spends_nodup, h.spends_earlier⟩,
    fun ⟨h₁, h₂, h₃, h₄⟩ => ⟨h₁, h₂, h₃, h₄⟩⟩

instance (C : Crypto) (txs : List Transaction) : Decidable (ConsensusValid C txs) :=
  decidable_of_iff _ (consensusValid_iff C txs).symm

end Cove
