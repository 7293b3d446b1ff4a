import Cove.Bitcoin.Digest

/-! Witness stacks as bytes: `scriptWitness` of `packages/cove-guardian/src/v3/signer.ts` and
`extractWitnessSig` of `guardianApi.ts`. -/

namespace Cove

open Checked

/-- The `varInt` of `scriptWitness`. It has no form for lengths beyond four bytes, and
`writeUInt32LE` throws on them. -/
def witnessVarInt (n : Nat) : Except Fault Bytes :=
  if n < 0xfd then .ok [UInt8.ofNat n]
  else if n ≤ 0xffff then .ok (0xfd :: Bytes.ofNatLE 2 n)
  else do
    ensure (n ≤ 0xffffffff) ⟨some "ERR_OUT_OF_RANGE", "The value of \"value\" is out of range."⟩
    return 0xfe :: Bytes.ofNatLE 4 n

def witnessItem (it : Bytes) : Except Fault Bytes := do
  let len ← witnessVarInt it.length
  return len ++ it

def scriptWitness (items : List Bytes) : Except Fault Bytes := do
  let count ← witnessVarInt items.length
  let parts ← items.mapM witnessItem
  return count ++ parts.flatten

/-- The stack a serialized witness holds, when its bytes are used up by it. -/
def parseWitness : Bytes → Option (List Bytes) :=
  Reader.whole (Reader.list readVarInt (Reader.prefixed readVarInt))

def outOfBounds : Fault :=
  ⟨some "ERR_BUFFER_OUT_OF_BOUNDS", "Attempt to access memory outside buffer bounds"⟩

def extractWitnessSig (witness : Bytes) : Except Fault Bytes := do
  let (count, rest) ← demand (readVarInt witness) outOfBounds
  ensure (1 ≤ count) ⟨none, "empty witness"⟩
  let (len, rest) ← demand (readVarInt rest) outOfBounds
  return rest.take len

section

variable {n : Nat} {b it : Bytes} {items : List Bytes} {w : Bytes}

theorem witnessVarInt_ok (h : witnessVarInt n = .ok b) : n < 2 ^ 64 ∧ b = Transaction.varInt n := by
  unfold witnessVarInt at h
  unfold Transaction.varInt
  split_ifs at h ⊢ <;> simp at h <;> grind

theorem witnessItem_ok (h : witnessItem it = .ok b) :
    it.length < 2 ^ 64 ∧ b = Transaction.varSlice it := by
  simp only [witnessItem, bind_eq_ok, pure_eq_ok] at h
  obtain ⟨len, hlen, rfl⟩ := h
  obtain ⟨hlt, rfl⟩ := witnessVarInt_ok hlen
  exact ⟨hlt, rfl⟩

theorem witnessItems_ok {parts : List Bytes} (h : items.mapM witnessItem = .ok parts) :
    (∀ it ∈ items, it.length < 2 ^ 64) ∧ parts.flatten = items.flatMap Transaction.varSlice := by
  induction items generalizing parts with
  | nil =>
    obtain rfl : [] = parts := by simpa using h
    exact ⟨by simp, rfl⟩
  | cons it items ih =>
    simp only [List.mapM_cons, bind_eq_ok, pure_eq_ok] at h
    obtain ⟨part, hpart, parts', hparts, rfl⟩ := h
    obtain ⟨hlt, rfl⟩ := witnessItem_ok hpart
    obtain ⟨hall, hflat⟩ := ih hparts
    exact ⟨List.forall_mem_cons.mpr ⟨hlt, hall⟩, by rw [List.flatten_cons, hflat, List.flatMap_cons]⟩

theorem scriptWitness_ok (h : scriptWitness items = .ok w) :
    items.length < 2 ^ 64 ∧ (∀ it ∈ items, it.length < 2 ^ 64) ∧
      w = Transaction.varInt items.length ++ items.flatMap Transaction.varSlice := by
  simp only [scriptWitness, bind_eq_ok, pure_eq_ok] at h
  obtain ⟨count, hcount, parts, hparts, rfl⟩ := h
  obtain ⟨hlen, rfl⟩ := witnessVarInt_ok hcount
  obtain ⟨hall, hflat⟩ := witnessItems_ok hparts
  exact ⟨hlen, hall, by rw [hflat]⟩

/-- A witness that was written is read back item for item. -/
theorem parseWitness_scriptWitness (h : scriptWitness items = .ok w) :
    parseWitness w = some items := by
  obtain ⟨hlen, hall, rfl⟩ := scriptWitness_ok h
  have hitem := Reads.prefixed Transaction.readVarInt_varInt
  exact (Reads.list Transaction.readVarInt_varInt hitem).whole ⟨hlen, hall⟩

/-- What the service extracts is the first item written. -/
theorem extractWitnessSig_scriptWitness {sig : Bytes} (h : scriptWitness (sig :: items) = .ok w) :
    extractWitnessSig w = .ok sig := by
  obtain ⟨hlen, hall, rfl⟩ := scriptWitness_ok h
  have hcount := Transaction.readVarInt_varInt hlen ((sig :: items).flatMap Transaction.varSlice)
  have hsig := Transaction.readVarInt_varInt (hall sig (List.mem_cons_self ..))
    (sig ++ items.flatMap Transaction.varSlice)
  rw [List.flatMap_cons, Transaction.varSlice, List.append_assoc] at hcount ⊢
  rw [extractWitnessSig, hcount]
  simp only [demand, bind_eq_ok, ensure_eq_ok, pure_eq_ok]
  refine ⟨_, rfl, (), ?_, (sig.length, sig ++ items.flatMap Transaction.varSlice), ?_, ?_⟩
  · simp
  · rw [hsig]
  · exact List.take_left' rfl

end

end Cove
