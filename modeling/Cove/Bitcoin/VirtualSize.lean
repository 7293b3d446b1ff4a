import Cove.Bitcoin.Transaction
import Mathlib.Algebra.BigOperators.Ring.List

/-! The size a fee rate is charged on: `virtualSize` of a `bitcoinjs-lib` transaction, where a byte
outside the witnesses weighs four times one inside them. -/

namespace Cove

namespace Transaction

/-- The bytes of a count or of a length beyond the one it takes while it is short. -/
def lengthExcess (n : Nat) : Nat := (varInt n).length - 1

theorem length_varInt (n : Nat) : (varInt n).length = 1 + lengthExcess n := by
  unfold lengthExcess varInt
  split_ifs <;> simp

theorem lengthExcess_eq_zero {n : Nat} (h : n < 253) : lengthExcess n = 0 := by
  rw [lengthExcess, varInt, if_pos h]
  rfl

theorem length_varSlice (b : Bytes) : (varSlice b).length = 1 + lengthExcess b.length + b.length := by
  rw [varSlice, List.length_append, length_varInt]

/-- The witness stack of one input. -/
def witnessBytes (items : List Bytes) : Bytes := varInt items.length ++ items.flatMap varSlice

def hasWitnesses (tx : Transaction) : Bool := tx.ins.any fun i => i.witness ≠ []

/-- The serialization that is broadcast, with its marker, flag and witnesses if there are any. -/
def toWitnessBuffer (tx : Transaction) : Bytes :=
  Bytes.ofNatLE 4 tx.version ++
  (if tx.hasWitnesses then [0x00, 0x01] else []) ++
  varInt tx.ins.length ++
  tx.ins.flatMap (fun i =>
    i.hash ++ Bytes.ofNatLE 4 i.index ++ varSlice i.script ++ Bytes.ofNatLE 4 i.sequence) ++
  varInt tx.outs.length ++
  tx.outs.flatMap (fun o => Bytes.ofNatLE 8 o.value ++ varSlice o.script) ++
  (if tx.hasWitnesses then tx.ins.flatMap (fun i => witnessBytes i.witness) else []) ++
  Bytes.ofNatLE 4 tx.locktime

def weight (tx : Transaction) : Nat := 3 * tx.toBuffer.length + tx.toWitnessBuffer.length

def virtualSize (tx : Transaction) : Nat := (tx.weight + 3) / 4

theorem virtualSize_le_iff {tx : Transaction} {n : Nat} :
    tx.virtualSize ≤ n ↔ tx.weight ≤ 4 * n := by
  unfold virtualSize
  omega

end Transaction

open Transaction

def TxIn.weight (i : TxIn) : Nat :=
  4 * (i.hash.length + 8 + (varSlice i.script).length) + (witnessBytes i.witness).length

def TxOut.weight (o : TxOut) : Nat := 4 * (8 + (varSlice o.script).length)

/-- What the number of inputs weighs, with the marker and the flag that signed ones bring. -/
def countWeight (n : Nat) : Nat := 4 * (varInt n).length + if n = 0 then 0 else 2

theorem countWeight_of_short {n : Nat} (hpos : 0 < n) (h : n < 253) : countWeight n = 6 := by
  rw [countWeight, length_varInt, lengthExcess_eq_zero h, if_neg hpos.ne']

theorem hasWitnesses_of_signed {tx : Transaction} (h : ∀ i ∈ tx.ins, i.witness ≠ []) :
    tx.hasWitnesses = decide (tx.ins.length ≠ 0) := by
  rw [hasWitnesses]
  cases hins : tx.ins with
  | nil => rfl
  | cons i rest =>
    have hsigned := h i (by rw [hins]; exact List.mem_cons_self)
    simp [hsigned]

/-- A signed transaction weighs what its parts do. -/
theorem weight_of_signed {tx : Transaction} (h : ∀ i ∈ tx.ins, i.witness ≠ []) :
    tx.weight = 32 + countWeight tx.ins.length + 4 * (varInt tx.outs.length).length +
      (tx.ins.map TxIn.weight).sum + (tx.outs.map TxOut.weight).sum := by
  have hbase : (tx.ins.map TxIn.weight).sum =
      4 * (tx.ins.map fun i => i.hash.length + 8 + (varSlice i.script).length).sum +
        (tx.ins.map fun i => (witnessBytes i.witness).length).sum := by
    rw [← List.sum_map_mul_left, ← List.sum_map_add]
    rfl
  have houts : (tx.outs.map TxOut.weight).sum =
      4 * (tx.outs.map fun o => 8 + (varSlice o.script).length).sum := by
    rw [← List.sum_map_mul_left]
    rfl
  have hin (i : TxIn) : (i.hash ++ Bytes.ofNatLE 4 i.index ++ varSlice i.script ++
      Bytes.ofNatLE 4 i.sequence).length = i.hash.length + 8 + (varSlice i.script).length := by
    simp only [List.length_append, Bytes.length_ofNatLE]
    omega
  have hout (o : TxOut) : (Bytes.ofNatLE 8 o.value ++ varSlice o.script).length =
      8 + (varSlice o.script).length := by
    rw [List.length_append, Bytes.length_ofNatLE]
  have hsigned := hasWitnesses_of_signed h
  rw [hbase, houts, weight, toBuffer, toWitnessBuffer, countWeight]
  simp only [List.length_append, Bytes.length_ofNatLE, List.length_flatMap, hin, hout, hsigned]
  by_cases hzero : tx.ins.length = 0
  · obtain hnil := List.length_eq_zero_iff.mp hzero
    simp only [hnil, List.length_nil, List.map_nil, List.sum_nil, ne_eq, not_true, decide_false]
    simp
    omega
  · simp only [hzero, ne_eq, not_false_iff, decide_true, if_true, if_false, List.length_cons,
      List.length_nil, List.length_flatMap]
    omega

end Cove
