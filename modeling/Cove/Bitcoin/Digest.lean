import Cove.Lib.Reader
import Cove.Wire.TokenId

/-! What the digests of a transaction tell of it: the txid's serialization, which can be read
back, and the BIP341 signature hash of a script path. -/

namespace Cove

open Checked

/-- `readVarInt` of `packages/cove-guardian/src/v3/guardianApi.ts`; nothing when a read runs past
the end. -/
def readVarInt : Reader Nat := fun b =>
  match b with
  | [] => none
  | tag :: rest =>
    if tag < 0xfd then some (tag.toNat, rest)
    else if tag = 0xfd then Reader.natLE 2 rest
    else if tag = 0xfe then Reader.natLE 4 rest
    else Reader.natLE 8 rest

namespace Transaction

/-- The first byte of a variable-length integer. -/
def varIntTag (n : Nat) : Nat :=
  if n < 0xfd then n else if n ≤ 0xffff then 0xfd else if n ≤ 0xffffffff then 0xfe else 0xff

/-- How many bytes follow the first one. -/
def varIntWidth (n : Nat) : Nat :=
  if n < 0xfd then 0 else if n ≤ 0xffff then 2 else if n ≤ 0xffffffff then 4 else 8

theorem varInt_eq (n : Nat) :
    varInt n = UInt8.ofNat (varIntTag n) :: Bytes.ofNatLE (varIntWidth n) n := by
  unfold varInt varIntTag varIntWidth
  split_ifs <;> rfl

theorem varIntTag_lt (n : Nat) : varIntTag n < 256 := by
  unfold varIntTag
  split_ifs <;> omega

theorem lt_pow_varIntWidth {n : Nat} (hn : n < 2 ^ 64) (h : ¬ n < 0xfd) :
    n < 256 ^ varIntWidth n := by
  unfold varIntWidth
  split_ifs <;> omega

/-- Reading a length back goes by its first byte. -/
theorem readVarInt_varInt : Reads (fun n => n < 2 ^ 64) varInt readVarInt := by
  intro n hn rest
  rw [varInt_eq, List.cons_append, readVarInt]
  have htag := varIntTag_lt n
  have htagNat : (UInt8.ofNat (varIntTag n)).toNat = varIntTag n := by
    rw [UInt8.toNat_ofNat']
    omega
  by_cases hsmall : n < 0xfd
  · have ht : varIntTag n = n := if_pos hsmall
    have hw : varIntWidth n = 0 := if_pos hsmall
    rw [ht] at htagNat ⊢
    have hlt : UInt8.ofNat n < 0xfd := by
      rw [UInt8.lt_iff_toNat_lt, htagNat]
      exact hsmall
    rw [if_pos hlt, htagNat, hw, Bytes.ofNatLE, List.nil_append]
  · have hread := Reads.natLE (varIntWidth n)
      (lt_pow_varIntWidth hn hsmall) rest
    by_cases htwo : n ≤ 0xffff
    · have ht : varIntTag n = 0xfd := by
        rw [varIntTag, if_neg hsmall, if_pos htwo]
      have hw : varIntWidth n = 2 := by
        rw [varIntWidth, if_neg hsmall, if_pos htwo]
      rw [hw] at hread
      rw [ht, hw, if_neg (by decide), if_pos (by decide), hread]
    · by_cases hfour : n ≤ 0xffffffff
      · have ht : varIntTag n = 0xfe := by
          rw [varIntTag, if_neg hsmall, if_neg htwo, if_pos hfour]
        have hw : varIntWidth n = 4 := by
          rw [varIntWidth, if_neg hsmall, if_neg htwo, if_pos hfour]
        rw [hw] at hread
        rw [ht, hw, if_neg (by decide), if_neg (by decide), if_pos (by decide), hread]
      · have ht : varIntTag n = 0xff := by
          rw [varIntTag, if_neg hsmall, if_neg htwo, if_neg hfour]
        have hw : varIntWidth n = 8 := by
          rw [varIntWidth, if_neg hsmall, if_neg htwo, if_neg hfour]
        rw [hw] at hread
        rw [ht, hw, if_neg (by decide), if_neg (by decide), if_neg (by decide), hread]

theorem delimited_varInt : Delimited (fun n => n < 2 ^ 64) varInt := readVarInt_varInt.delimited

theorem delimited_varSlice : Delimited (fun b : Bytes => b.length < 2 ^ 64) varSlice :=
  Delimited.prefixed delimited_varInt

end Transaction

/-- The sizes of an input's fields, as a parser gives them. -/
structure TxIn.Sized (i : TxIn) : Prop where
  hash : i.hash.length = 32
  index : i.index < 2 ^ 32
  script : i.script.length < 2 ^ 64
  sequence : i.sequence < 2 ^ 32

structure TxOut.Sized (o : TxOut) : Prop where
  script : o.script.length < 2 ^ 64
  value : o.value < 2 ^ 64

instance (i : TxIn) : Decidable i.Sized :=
  decidable_of_iff (i.hash.length = 32 ∧ i.index < 2 ^ 32 ∧ i.script.length < 2 ^ 64 ∧
      i.sequence < 2 ^ 32)
    ⟨fun ⟨h₁, h₂, h₃, h₄⟩ => ⟨h₁, h₂, h₃, h₄⟩, fun ⟨h₁, h₂, h₃, h₄⟩ => ⟨h₁, h₂, h₃, h₄⟩⟩

instance (o : TxOut) : Decidable o.Sized :=
  decidable_of_iff (o.script.length < 2 ^ 64 ∧ o.value < 2 ^ 64)
    ⟨fun ⟨h₁, h₂⟩ => ⟨h₁, h₂⟩, fun ⟨h₁, h₂⟩ => ⟨h₁, h₂⟩⟩

structure Transaction.Sized (tx : Transaction) : Prop where
  version : tx.version < 2 ^ 32
  insLength : tx.ins.length < 2 ^ 64
  ins : ∀ i ∈ tx.ins, i.Sized
  outsLength : tx.outs.length < 2 ^ 64
  outs : ∀ o ∈ tx.outs, o.Sized
  locktime : tx.locktime < 2 ^ 32

instance (tx : Transaction) : Decidable tx.Sized :=
  decidable_of_iff (tx.version < 2 ^ 32 ∧ tx.ins.length < 2 ^ 64 ∧ (∀ i ∈ tx.ins, i.Sized) ∧
      tx.outs.length < 2 ^ 64 ∧ (∀ o ∈ tx.outs, o.Sized) ∧ tx.locktime < 2 ^ 32)
    ⟨fun ⟨h₁, h₂, h₃, h₄, h₅, h₆⟩ => ⟨h₁, h₂, h₃, h₄, h₅, h₆⟩,
      fun ⟨h₁, h₂, h₃, h₄, h₅, h₆⟩ => ⟨h₁, h₂, h₃, h₄, h₅, h₆⟩⟩

namespace Transaction

/-- An input as the txid's serialization has it. -/
def inBuffer (i : TxIn) : Bytes :=
  i.hash ++ Bytes.ofNatLE 4 i.index ++ varSlice i.script ++ Bytes.ofNatLE 4 i.sequence

def outBuffer (o : TxOut) : Bytes := Bytes.ofNatLE 8 o.value ++ varSlice o.script

/-- The fields the serialization has of an input without a witness are all of them. -/
theorem delimited_inBuffer : Delimited (fun i : TxIn => i.Sized ∧ i.witness = []) inBuffer := by
  intro i j hi hj s t he
  simp only [inBuffer, List.append_assoc] at he
  obtain ⟨hhash, he⟩ := Delimited.field 32 hi.1.hash hj.1.hash he
  obtain ⟨hindex, he⟩ := Delimited.natLE 4 hi.1.index hj.1.index he
  obtain ⟨hscript, he⟩ := delimited_varSlice hi.1.script hj.1.script he
  obtain ⟨hsequence, hst⟩ := Delimited.natLE 4 hi.1.sequence hj.1.sequence he
  have hwitness : i.witness = j.witness := by rw [hi.2, hj.2]
  refine ⟨?_, hst⟩
  cases i
  cases j
  simp only [TxIn.mk.injEq]
  exact ⟨hhash, hindex, hscript, hsequence, hwitness⟩

theorem delimited_outBuffer : Delimited TxOut.Sized outBuffer := by
  intro o p ho hp s t he
  simp only [outBuffer, List.append_assoc] at he
  obtain ⟨hvalue, he⟩ := Delimited.natLE 8 ho.value hp.value he
  obtain ⟨hscript, hst⟩ := delimited_varSlice ho.script hp.script he
  refine ⟨?_, hst⟩
  cases o
  cases p
  simp only [TxOut.mk.injEq]
  exact ⟨hscript, hvalue⟩

theorem toBuffer_eq (tx : Transaction) : tx.toBuffer = Bytes.ofNatLE 4 tx.version ++
    ((varInt tx.ins.length ++ tx.ins.flatMap inBuffer) ++
    ((varInt tx.outs.length ++ tx.outs.flatMap outBuffer) ++ Bytes.ofNatLE 4 tx.locktime)) := by
  have hbuffer : tx.toBuffer = Bytes.ofNatLE 4 tx.version ++ varInt tx.ins.length ++
      tx.ins.flatMap inBuffer ++ varInt tx.outs.length ++ tx.outs.flatMap outBuffer ++
      Bytes.ofNatLE 4 tx.locktime := rfl
  rw [hbuffer]
  simp only [List.append_assoc]

/-- Without witnesses the serialization tells the transaction. -/
theorem toBuffer_injective {a b : Transaction} (ha : a.Sized) (hb : b.Sized)
    (haw : ∀ i ∈ a.ins, i.witness = []) (hbw : ∀ i ∈ b.ins, i.witness = [])
    (h : a.toBuffer = b.toBuffer) : a = b := by
  have hins := Delimited.list delimited_varInt delimited_inBuffer
  have houts := Delimited.list delimited_varInt delimited_outBuffer
  rw [toBuffer_eq, toBuffer_eq] at h
  obtain ⟨hversion, he⟩ := Delimited.natLE 4 ha.version hb.version h
  obtain ⟨hins, he⟩ := hins ⟨ha.insLength, fun i hi => ⟨ha.ins i hi, haw i hi⟩⟩
    ⟨hb.insLength, fun i hi => ⟨hb.ins i hi, hbw i hi⟩⟩ he
  obtain ⟨houts, he⟩ := houts ⟨ha.outsLength, ha.outs⟩ ⟨hb.outsLength, hb.outs⟩ he
  have hlocktime := (Delimited.natLE 4).inj ha.locktime hb.locktime he
  cases a
  cases b
  simp only [Transaction.mk.injEq]
  exact ⟨hversion, hins, houts, hlocktime⟩

/-- The transaction without what signing adds. -/
def unsigned (tx : Transaction) : Transaction :=
  { tx with ins := tx.ins.map fun i => { i with script := [], witness := [] } }

/-- The parts of the BIP341 signature message that cover every input or every output. -/
def hashPrevouts (C : Crypto) (tx : Transaction) : Bytes :=
  C.sha256 (tx.ins.flatMap fun i => i.hash ++ Bytes.ofNatLE 4 i.index)

def hashSequences (C : Crypto) (tx : Transaction) : Bytes :=
  C.sha256 (tx.ins.flatMap fun i => Bytes.ofNatLE 4 i.sequence)

def hashOutputs (C : Crypto) (tx : Transaction) : Bytes := C.sha256 (tx.outs.flatMap outBuffer)

/-- `hashForWitnessV1` with `SIGHASH_DEFAULT`, a leaf and no annex. -/
def hashForWitnessV1 (C : Crypto) (tx : Transaction) (inIndex : Nat) (prevOuts : List TxOut)
    (leafHash : Bytes) : Except Fault Bytes := do
  ensure (prevOuts.length = tx.ins.length)
    ⟨none, "Must supply prevout script and value for all inputs"⟩
  let hashAmounts := C.sha256 (prevOuts.flatMap fun o => Bytes.ofNatLE 8 o.value)
  let hashScriptPubKeys := C.sha256 (prevOuts.flatMap fun o => varSlice o.script)
  return taggedHash C "TapSighash" (0x00 :: 0x00 ::
    (Bytes.ofNatLE 4 tx.version ++ Bytes.ofNatLE 4 tx.locktime ++ tx.hashPrevouts C ++
    hashAmounts ++ hashScriptPubKeys ++ tx.hashSequences C ++ tx.hashOutputs C ++ [0x02] ++
    Bytes.ofNatLE 4 inIndex ++ leafHash ++ [0x00] ++ Bytes.ofNatLE 4 0xffffffff))

/-- A signature hash covers nothing that signing adds. -/
theorem hashForWitnessV1_unsigned (C : Crypto) (tx : Transaction) (inIndex : Nat)
    (prevOuts : List TxOut) (leafHash : Bytes) :
    hashForWitnessV1 C tx.unsigned inIndex prevOuts leafHash =
      hashForWitnessV1 C tx inIndex prevOuts leafHash := by
  have hprevouts : tx.unsigned.hashPrevouts C = tx.hashPrevouts C := by
    simp only [hashPrevouts, unsigned, List.flatMap_map]
  have hsequences : tx.unsigned.hashSequences C = tx.hashSequences C := by
    simp only [hashSequences, unsigned, List.flatMap_map]
  have hlen : tx.unsigned.ins.length = tx.ins.length := by
    simp [unsigned]
  rw [hashForWitnessV1, hashForWitnessV1, hprevouts, hsequences, hlen]
  rfl

end Transaction

end Cove
