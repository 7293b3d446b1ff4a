import Cove.Indexer.Chain
import Cove.Lib.Machine
import Cove.Lib.Tapscript
import Mathlib.Tactic.IntervalCases

/-! Threshold recovery of a vault: `buildThresholdRecoveryWitness` of
`packages/cove-vault/src/vaultProfile.ts`, and the collecting of signatures in
`packages/cove-recovery/src/recovery.ts`. -/

namespace Cove

open Checked Tapscript

section

variable (C : Crypto)

/-- The keys that have an entry, up to the threshold; `slice` counts a negative end from the
back. -/
def usedSigners (keys : List Bytes) (signatures : Dict Bytes Bytes) (threshold : Int) :
    List Bytes :=
  let present := keys.filter fun k => signatures.has k
  present.take (if threshold < 0 then present.length + threshold else threshold).toNat

def buildThresholdRecoveryWitness (pubkeys : List Bytes) (signatures : Dict Bytes Bytes)
    (threshold : Int) : Except Fault (List Bytes) := do
  let keys ← sortRecoveryPubkeys C pubkeys
  let present := keys.filter fun k => signatures.has k
  ensure (threshold ≤ present.length)
    ⟨none, s!"recovery threshold not met: {present.length}/{threshold} signatures"⟩
  return keys.reverse.map fun k =>
    if k ∈ usedSigners keys signatures threshold then (signatures.get k).getD [] else []

end

/-! The leaf as instructions. -/

theorem readNum_scriptNumber (n : Nat) :
    readNum 5 (scriptNumber n) = some ((n % 2 ^ 32 : Nat) : Int) := by
  rw [scriptNumber]
  by_cases hbig : n > 0x7fffffff
  · have hvalue : Bytes.toNatLE (Bytes.ofNatLE 4 n ++ [0x00]) = n % 2 ^ 32 := by
      simp [Bytes.ofNatLE, Bytes.toNatLE]
      omega
    have hlen : (Bytes.ofNatLE 4 n ++ [0x00]).length = 5 := by simp
    have hpositive : ¬ 2 ^ (8 * 5 - 1) ≤ n % 2 ^ 32 := by omega
    rw [if_pos hbig, readNum, hlen, hvalue, if_neg (by decide)]
    dsimp only
    rw [if_neg hpositive]
  · have hmod : n % 2 ^ 32 = n := Nat.mod_eq_of_lt (by omega)
    rw [if_neg hbig, hmod]
    dsimp only
    apply readNum_ofNatLE
    · split_ifs <;> omega
    · split_ifs <;> omega

theorem scriptNumber_length (n : Nat) : (scriptNumber n).length ≤ 5 := by
  rw [scriptNumber]
  split_ifs <;> simp

theorem asMinimalOp_eq_some {b : Bytes} {code : UInt8} (h : asMinimalOp b = some code) :
    b = [] ∧ code = 0x00 ∨ (∃ x, b = [x] ∧ 1 ≤ x ∧ x ≤ 16 ∧ code = 0x50 + x) ∨
      b = [0x81] ∧ code = 0x4f := by
  match b with
  | [] => exact Or.inl ⟨rfl, (Option.some.inj h).symm⟩
  | [x] =>
    rw [asMinimalOp] at h
    split_ifs at h with hsmall hminus
    · simp only [Bool.and_eq_true, decide_eq_true_eq] at hsmall
      exact Or.inr (Or.inl ⟨x, rfl, hsmall.1, hsmall.2, (Option.some.inj h).symm⟩)
    · rw [hminus]
      exact Or.inr (Or.inr ⟨rfl, (Option.some.inj h).symm⟩)
  | _ :: _ :: _ => cases h

/-- Short data is pushed as it is. -/
theorem instr_data {b : Bytes} (hb : b.length ≤ 0x4b) (rest : Bytes) :
    instr ((ScriptChunk.data b).compile ++ rest) = some (.push b, rest) := by
  rw [ScriptChunk.compile]
  cases hcode : asMinimalOp b with
  | some code =>
    rcases asMinimalOp_eq_some hcode with ⟨rfl, rfl⟩ | ⟨x, rfl, hlow, hhigh, rfl⟩ | ⟨rfl, rfl⟩
    · simp [instr, Reader.bytes]
    · have hback : 0x50 + x - 0x50 = x := by grind
      have hrange : 0x51 ≤ 0x50 + x ∧ 0x50 + x ≤ 0x60 := by grind
      have hpush : ¬ 0x50 + x ≤ 0x4b := by grind
      have hlong : 0x50 + x ≠ 0x4c ∧ 0x50 + x ≠ 0x4d ∧ 0x50 + x ≠ 0x4e ∧ 0x50 + x ≠ 0x4f := by
        grind
      simp [instr, hback, hrange, hpush, hlong]
    · simp [instr]
  | none =>
    have hlen : b.length < 0x4c := by omega
    have hsmall : UInt8.ofNat b.length ≤ 0x4b := by
      rw [UInt8.le_iff_toNat_le, UInt8.toNat_ofNat']
      simp
      omega
    have hcount : (UInt8.ofNat b.length).toNat = b.length := by
      rw [UInt8.toNat_ofNat']
      omega
    have hread := Reads.bytes b.length rfl rest
    rw [id] at hread
    simp [hlen, instr, hsmall, hcount, hread]

/-- The opcode of a small number pushes it. -/
theorem instr_small {n : Nat} (hpos : 1 ≤ n) (hn : n ≤ 16) (rest : Bytes) :
    instr ((ScriptChunk.op (UInt8.ofNat (0x50 + n))).compile ++ rest) =
      some (.push [UInt8.ofNat n], rest) := by
  interval_cases n <;> rfl

/-- The leaf's checks of the keys. -/
def recoveryChecks (keys : List Bytes) : List ScriptChunk :=
  keys.zipIdx.flatMap fun (k, i) =>
    [ScriptChunk.data k, ScriptChunk.op (if i = 0 then 0xac else 0xba)]

theorem recoveryChecks_cons (k : Bytes) (ks : List Bytes) : recoveryChecks (k :: ks) =
    .data k :: .op 0xac :: ks.flatMap fun k => [ScriptChunk.data k, .op 0xba] := by
  have htail : ∀ (ks : List Bytes) (n : Nat), ((ks.zipIdx (n + 1)).flatMap fun (k, i) =>
      [ScriptChunk.data k, ScriptChunk.op (if i = 0 then 0xac else 0xba)]) =
        ks.flatMap fun k => [ScriptChunk.data k, .op 0xba] := by
    intro ks
    induction ks with
    | nil => simp
    | cons k ks ih =>
      intro n
      rw [List.zipIdx_cons, List.flatMap_cons, List.flatMap_cons, ih (n + 1)]
      simp
  rw [recoveryChecks, List.zipIdx_cons, List.flatMap_cons, htail ks 0]
  simp

/-- A chunk is read as an instruction. -/
abbrev ReadsAs (chunk : ScriptChunk) (i : Instr) : Prop :=
  ∀ rest, instr (chunk.compile ++ rest) = some (i, rest)

theorem readsAs_op (o : Op) : ReadsAs (.op o.code) (.op o) := fun rest => instr_op o rest

theorem readsAs_addChecks {keys : List Bytes} (hkeys : ∀ k ∈ keys, k.length = 32) :
    List.Forall₂ ReadsAs (keys.flatMap fun k => [ScriptChunk.data k, .op 0xba])
      (Spend.addChecks keys) := by
  induction keys with
  | nil => exact List.Forall₂.nil
  | cons k ks ih =>
    obtain ⟨hkey, hkeys⟩ := List.forall_mem_cons.mp hkeys
    have hpush : ReadsAs (.data k) (.push k) := fun rest => instr_data (by omega) rest
    rw [Spend.addChecks, List.flatMap_cons, List.flatMap_cons]
    exact List.Forall₂.cons hpush (List.Forall₂.cons (readsAs_op .checkSigAdd) (ih hkeys))

theorem readsAs_keyChecks {keys : List Bytes} (hkeys : ∀ k ∈ keys, k.length = 32) :
    List.Forall₂ ReadsAs (recoveryChecks keys) (Spend.keyChecks keys) := by
  cases keys with
  | nil => exact List.Forall₂.nil
  | cons k ks =>
    obtain ⟨hkey, hkeys⟩ := List.forall_mem_cons.mp hkeys
    have hpush : ReadsAs (.data k) (.push k) := fun rest => instr_data (by omega) rest
    rw [recoveryChecks_cons, Spend.keyChecks]
    exact List.Forall₂.cons hpush
      (List.Forall₂.cons (readsAs_op .checkSig) (readsAs_addChecks hkeys))

/-! The keys. -/

section

variable {C : Crypto}

theorem checkRecoveryPubkeys_eq_ok {keys seen : List Bytes} :
    checkRecoveryPubkeys C keys seen = .ok () ↔
      (∀ k ∈ keys, k.length = 32 ∧ C.isXOnlyPoint k = true ∧ k ∉ seen) ∧ keys.Nodup := by
  induction keys generalizing seen with
  | nil => simp [checkRecoveryPubkeys]
  | cons k ks ih =>
    simp only [checkRecoveryPubkeys, bind_eq_ok, ensure_eq_ok, ih, List.forall_mem_cons,
      List.nodup_cons]
    constructor
    · intro h
      obtain ⟨_, hlen, _, hpoint, _, hfresh, hall, hnodup⟩ := h
      refine ⟨⟨⟨hlen, hpoint, hfresh⟩, ?_⟩, ?_, hnodup⟩
      · intro x hx
        obtain ⟨hxlen, hxpoint, hxfresh⟩ := hall x hx
        exact ⟨hxlen, hxpoint, fun hseen => hxfresh (List.mem_cons_of_mem k hseen)⟩
      · intro hk
        exact (hall k hk).2.2 List.mem_cons_self
    · intro h
      obtain ⟨⟨⟨hlen, hpoint, hfresh⟩, hall⟩, hk, hnodup⟩ := h
      refine ⟨(), hlen, (), hpoint, (), hfresh, ?_, hnodup⟩
      intro x hx
      obtain ⟨hxlen, hxpoint, hxfresh⟩ := hall x hx
      refine ⟨hxlen, hxpoint, ?_⟩
      intro hseen
      rcases List.mem_cons.mp hseen with heq | hseen
      · exact hk (heq ▸ hx)
      · exact hxfresh hseen

/-- Keys of 32 bytes, each once. -/
structure RecoveryKeys (keys : List Bytes) : Prop where
  width : ∀ k ∈ keys, k.length = 32
  nodup : keys.Nodup

theorem sortRecoveryPubkeys_ok {pubkeys keys : List Bytes}
    (h : sortRecoveryPubkeys C pubkeys = .ok keys) :
    keys.Perm pubkeys ∧ RecoveryKeys keys := by
  simp only [sortRecoveryPubkeys, bind_eq_ok, pure_eq_ok] at h
  obtain ⟨_, hcheck, rfl⟩ := h
  obtain ⟨hall, hnodup⟩ := checkRecoveryPubkeys_eq_ok.mp hcheck
  have hperm := List.perm_insertionSort Bytes.le pubkeys
  exact ⟨hperm, fun k hk => (hall k (hperm.mem_iff.mp hk)).1, hperm.nodup_iff.mpr hnodup⟩

theorem sortRecoveryPubkeys_eq {pubkeys keys : List Bytes}
    (h : sortRecoveryPubkeys C pubkeys = .ok keys) : keys = pubkeys.insertionSort Bytes.le := by
  simp only [sortRecoveryPubkeys, bind_eq_ok, pure_eq_ok] at h
  obtain ⟨_, -, hkeys⟩ := h
  exact hkeys.symm

/-- Sorted keys stay as they are. -/
theorem sortRecoveryPubkeys_sorted {pubkeys keys : List Bytes}
    (h : sortRecoveryPubkeys C pubkeys = .ok keys) : sortRecoveryPubkeys C keys = .ok keys := by
  obtain ⟨hperm, hsound⟩ := sortRecoveryPubkeys_ok h
  have heq := sortRecoveryPubkeys_eq h
  have hsorted : keys.insertionSort Bytes.le = keys := by
    rw [heq]
    exact (List.pairwise_insertionSort Bytes.le pubkeys).insertionSort_eq
  simp only [sortRecoveryPubkeys, bind_eq_ok, pure_eq_ok] at h ⊢
  obtain ⟨_, hcheck, -⟩ := h
  obtain ⟨hall, -⟩ := checkRecoveryPubkeys_eq_ok.mp hcheck
  refine ⟨(), checkRecoveryPubkeys_eq_ok.mpr ⟨?_, hsound.nodup⟩, hsorted⟩
  intro k hk
  exact hall k (hperm.mem_iff.mp hk)

/-- The leaf is the threshold script of its sorted keys. -/
theorem buildThresholdRecoveryLeaf_ok {csvBlocks threshold : Int} {pubkeys : List Bytes}
    {script : Bytes} (h : buildThresholdRecoveryLeaf C csvBlocks threshold pubkeys = .ok script) :
    1 ≤ threshold ∧ threshold ≤ 16 ∧ threshold ≤ pubkeys.length ∧
      ∃ keys, sortRecoveryPubkeys C pubkeys = .ok keys ∧ parse script.length script =
        some (Spend.thresholdScript (scriptNumber csvBlocks.toNat)
          (UInt8.ofNat threshold.toNat) keys) := by
  simp only [buildThresholdRecoveryLeaf, bind_eq_ok, ensure_eq_ok, pure_eq_ok] at h
  obtain ⟨_, -, _, ⟨hone, hsixteen⟩, _, hcount, keys, hkeys, rfl⟩ := h
  refine ⟨hone, hsixteen, hcount, keys, hkeys, ?_⟩
  have hsound := (sortRecoveryPubkeys_ok hkeys).2
  have hlock : ReadsAs (.data (scriptNumber csvBlocks.toNat))
      (.push (scriptNumber csvBlocks.toNat)) := by
    have hlen := scriptNumber_length csvBlocks.toNat
    exact fun rest => instr_data (by omega) rest
  have hsmall : ReadsAs (.op (UInt8.ofNat (0x50 + threshold.toNat)))
      (.push [UInt8.ofNat threshold.toNat]) :=
    fun rest => instr_small (by omega) (by omega) rest
  apply parse_flatMap
  apply List.rel_append
  · apply List.rel_append
    · exact .cons hlock (.cons (readsAs_op .checkSequenceVerify) (.cons (readsAs_op .drop) .nil))
    · exact readsAs_keyChecks hsound.width
  · exact .cons hsmall (.cons (readsAs_op .numEqual) .nil)

/-! The witness. -/

/-- The keys that have an entry, in the leaf's order. -/
def presentKeys (pubkeys : List Bytes) (signatures : Dict Bytes Bytes) : List Bytes :=
  (pubkeys.insertionSort Bytes.le).filter fun k => signatures.has k

/-- The entry of a key is a signature that passes its check. -/
def HasValid (tx : Spend) (signatures : Dict Bytes Bytes) (k : Bytes) : Prop :=
  ∃ sig, signatures.get k = some sig ∧ sig ≠ [] ∧ tx.checkSig k sig = true

/-- The keys with a signature for each that is used. -/
def usedSlots (signatures : Dict Bytes Bytes) (keys used : List Bytes) : List Spend.Slot :=
  keys.map fun k => (k, if k ∈ used then (signatures.get k).getD [] else [])

theorem usedSlots_fst (signatures : Dict Bytes Bytes) (keys used : List Bytes) :
    (usedSlots signatures keys used).map Prod.fst = keys := by
  induction keys with
  | nil => simp [usedSlots]
  | cons k ks ih => simpa [usedSlots] using ih

theorem signed_usedSlots (signatures : Dict Bytes Bytes) {keys used : List Bytes}
    (hkeys : keys.Nodup) (hused : used.Sublist keys) :
    Spend.signed (usedSlots signatures keys used) =
      used.countP fun k => (signatures.get k).getD [] ≠ [] := by
  have hperm : (keys.filter fun k => k ∈ used).Perm used := by
    apply (List.perm_ext_iff_of_nodup (hkeys.filter _) (hused.nodup hkeys)).mpr
    intro k
    simp only [List.mem_filter, decide_eq_true_eq]
    exact ⟨fun h => h.2, fun h => ⟨hused.subset h, h⟩⟩
  rw [← hperm.countP_eq, List.countP_filter, Spend.signed, usedSlots, List.countP_map]
  apply List.countP_congr
  intro k _
  by_cases hk : k ∈ used
  · simp [hk]
  · simp [hk]

/-- The slots count and pass exactly when every signature used is there and passes. -/
theorem usedSlots_pass_iff {tx : Spend} {signatures : Dict Bytes Bytes} {keys used : List Bytes}
    (hkeys : keys.Nodup) (hused : used.Sublist keys) :
    Spend.AllPass tx (usedSlots signatures keys used) ∧
      Spend.signed (usedSlots signatures keys used) = used.length ↔
    ∀ k ∈ used, HasValid tx signatures k := by
  rw [signed_usedSlots signatures hkeys hused, List.countP_eq_length]
  have hslot (k : Bytes) (hk : k ∈ used) (sig : Bytes) (hsig : signatures.get k = some sig) :
      (k, sig) ∈ usedSlots signatures keys used := by
    rw [usedSlots, List.mem_map]
    exact ⟨k, hused.subset hk, by rw [if_pos hk, hsig, Option.getD_some]⟩
  constructor
  · intro h k hk
    obtain ⟨hpass, hthere⟩ := h
    have hne : (signatures.get k).getD [] ≠ [] := by simpa using hthere k hk
    cases hget : signatures.get k with
    | none =>
      rw [hget] at hne
      exact absurd rfl hne
    | some sig =>
      rw [hget, Option.getD_some] at hne
      exact ⟨sig, hget, hne, hpass _ (hslot k hk sig hget) hne⟩
  · intro h
    constructor
    · intro x hx hne
      obtain ⟨k, -, rfl⟩ := List.mem_map.mp hx
      dsimp only at hne ⊢
      by_cases hk : k ∈ used
      · obtain ⟨sig, hget, -, hcheck⟩ := h k hk
        rw [if_pos hk, hget]
        exact hcheck
      · rw [if_neg hk] at hne
        exact absurd rfl hne
    · intro k hk
      obtain ⟨sig, hget, hne, -⟩ := h k hk
      simp [hget, hne]

theorem usedSigners_sublist (keys : List Bytes) (signatures : Dict Bytes Bytes)
    (threshold : Int) : (usedSigners keys signatures threshold).Sublist keys :=
  (List.take_sublist _ _).trans List.filter_sublist

/-- The items of a witness, in the order the leaf takes them. -/
theorem witness_reverse (signatures : Dict Bytes Bytes) (keys used : List Bytes) :
    (keys.reverse.map fun k => if k ∈ used then (signatures.get k).getD [] else []).reverse =
      (usedSlots signatures keys used).map Prod.snd := by
  rw [List.map_reverse, List.reverse_reverse, usedSlots, List.map_map]
  rfl

theorem witness_countP (signatures : Dict Bytes Bytes) (keys used : List Bytes) :
    (keys.reverse.map fun k =>
      if k ∈ used then (signatures.get k).getD [] else []).countP (· ≠ []) =
        Spend.signed (usedSlots signatures keys used) := by
  rw [← List.countP_reverse, witness_reverse, List.countP_map]
  rfl

/-- Where a threshold of keys has entries, the witness satisfies the leaf exactly when the lock has
run and the first of these entries are signatures that pass; with fewer the builder throws. -/
theorem threshold_recovery {csvBlocks threshold : Int} {pubkeys : List Bytes} {script : Bytes}
    (hleaf : buildThresholdRecoveryLeaf C csvBlocks threshold pubkeys = .ok script)
    (signatures : Dict Bytes Bytes) :
    ((presentKeys pubkeys signatures).length < threshold →
      ∃ e, buildThresholdRecoveryWitness C pubkeys signatures threshold = .error e) ∧
    (threshold ≤ (presentKeys pubkeys signatures).length →
      ∃ w, buildThresholdRecoveryWitness C pubkeys signatures threshold = .ok w ∧
        ∀ tx : Spend,
          (tx.satisfies script w = true ↔ tx.passesLock (csvBlocks.toNat % 2 ^ 32) = true ∧
            ∀ k ∈ (presentKeys pubkeys signatures).take threshold.toNat,
              HasValid tx signatures k) ∧
          (tx.satisfies script w = true → w.countP (· ≠ []) = threshold)) := by
  obtain ⟨hone, hsixteen, hcount, keys, hkeys, hparse⟩ := buildThresholdRecoveryLeaf_ok hleaf
  obtain ⟨hperm, hsound⟩ := sortRecoveryPubkeys_ok hkeys
  rw [presentKeys, ← sortRecoveryPubkeys_eq hkeys]
  constructor
  · intro hfew
    cases hw : buildThresholdRecoveryWitness C pubkeys signatures threshold with
    | error e => exact ⟨e, rfl⟩
    | ok w =>
      simp only [buildThresholdRecoveryWitness, hkeys, bind_eq_ok, ensure_eq_ok, Except.ok.injEq,
        exists_eq_left'] at hw
      obtain ⟨_, hmany, -⟩ := hw
      omega
  · intro hmany
    have hused : usedSigners keys signatures threshold =
        (keys.filter fun k => signatures.has k).take threshold.toNat := by
      rw [usedSigners, if_neg (by omega)]
    have hlen : (usedSigners keys signatures threshold).length = threshold.toNat := by
      rw [hused, List.length_take]
      omega
    have hw : buildThresholdRecoveryWitness C pubkeys signatures threshold =
        .ok (keys.reverse.map fun k => if k ∈ usedSigners keys signatures threshold
          then (signatures.get k).getD [] else []) := by
      simp only [buildThresholdRecoveryWitness, bind_eq_ok, ensure_eq_ok, pure_eq_ok]
      exact ⟨keys, hkeys, (), hmany, rfl⟩
    refine ⟨_, hw, ?_⟩
    intro tx
    rw [← hused, witness_countP]
    have hsub := usedSigners_sublist keys signatures threshold
    generalize usedSigners keys signatures threshold = used at hlen hsub
    have hbound : Spend.signed (usedSlots signatures keys used) ≤ threshold.toNat := by
      rw [signed_usedSlots signatures hsound.nodup hsub, ← hlen]
      exact List.countP_le_length
    have hslots : usedSlots signatures keys used ≠ [] := by
      have hlength := hperm.length_eq
      have hne : keys ≠ [] := List.ne_nil_of_length_pos (by omega)
      simpa [usedSlots] using hne
    have hwidth : ∀ x ∈ usedSlots signatures keys used, x.1.length = 32 := by
      intro x hx
      obtain ⟨k, hk, rfl⟩ := List.mem_map.mp hx
      exact hsound.width k hk
    have hrun := @Spend.threshold_iff tx _ hslots hwidth _ _ threshold.toNat
      (readNum_scriptNumber csvBlocks.toNat) (by omega) (by omega)
    rw [usedSlots_fst] at hrun
    rw [Spend.satisfies, hparse, Option.bind_some, witness_reverse, hrun,
      ← usedSlots_pass_iff hsound.nodup hsub, hlen]
    refine ⟨Iff.rfl, ?_⟩
    intro h
    obtain ⟨-, -, hexact⟩ := h
    omega

end

/-! Collecting the signatures offline. -/

structure RecoveryDraft where
  sighash : Bytes
  recoveryLeaf : Bytes
  recoveryControlBlock : Bytes
  signatures : Dict Bytes Bytes
  pubkeys : List Bytes
  threshold : Int

section

variable (C : Crypto) (verifySchnorr : Bytes → Bytes → Bytes → Bool)

/-- A check that throws is one that fails. -/
def addRecoverySignature (draft : RecoveryDraft) (xOnlyPubkey signature : Bytes) :
    Except Fault RecoveryDraft := do
  ensure (xOnlyPubkey ∈ draft.pubkeys) ⟨none, "signature key is not a committed recovery key"⟩
  ensure (verifySchnorr draft.sighash xOnlyPubkey signature)
    ⟨none, "invalid recovery signature"⟩
  return { draft with signatures := draft.signatures.set xOnlyPubkey signature }

/-- The witness of the recovery transaction. -/
def finalizeRecovery (draft : RecoveryDraft) : Except Fault (List Bytes) := do
  let size := draft.signatures.entries.card
  ensure (draft.threshold ≤ size)
    ⟨none, s!"recovery threshold not met ({size}/{draft.threshold})"⟩
  let stack ← buildThresholdRecoveryWitness C draft.pubkeys draft.signatures draft.threshold
  return stack ++ [draft.recoveryLeaf, draft.recoveryControlBlock]

/-- The signatures that were taken, one after the other. -/
def collect : RecoveryDraft → List (Bytes × Bytes) → Option RecoveryDraft :=
  Machine.run fun draft x => (addRecoverySignature verifySchnorr draft x.1 x.2).toOption

/-- The draft differs from the one begun with in its signatures only, and each of these is by one of
the keys and verifies. -/
structure Collected (begun draft : RecoveryDraft) : Prop where
  same : draft = { begun with signatures := draft.signatures }
  verified : ∀ k sig, draft.signatures.get k = some sig →
    k ∈ begun.pubkeys ∧ verifySchnorr begun.sighash k sig = true

variable {C verifySchnorr}

theorem Collected.add {begun draft next : RecoveryDraft} {k sig : Bytes}
    (h : Collected verifySchnorr begun draft)
    (hadd : addRecoverySignature verifySchnorr draft k sig = .ok next) :
    Collected verifySchnorr begun next := by
  obtain ⟨hsame, hverified⟩ := h
  simp only [addRecoverySignature, bind_eq_ok, ensure_eq_ok, pure_eq_ok] at hadd
  obtain ⟨_, hmem, _, hverifies, rfl⟩ := hadd
  have hpubkeys : draft.pubkeys = begun.pubkeys := by rw [hsame]
  have hsighash : draft.sighash = begun.sighash := by rw [hsame]
  constructor
  · rw [hsame]
  · intro k' sig' hget
    rw [Dict.get_set] at hget
    split_ifs at hget with heq
    · rw [heq, ← Option.some.inj hget, ← hpubkeys, ← hsighash]
      exact ⟨hmem, hverifies⟩
    · exact hverified k' sig' hget

theorem collect_collected {begun draft : RecoveryDraft} {calls : List (Bytes × Bytes)}
    (hbegun : begun.signatures = ∅) (h : collect verifySchnorr begun calls = some draft) :
    Collected verifySchnorr begun draft := by
  have hstart : Collected verifySchnorr begun begun := by
    constructor
    · rfl
    · intro k sig hget
      rw [hbegun, Dict.get_empty] at hget
      cases hget
  have hfree := @Machine.guarded_of_forall _ _
    (fun (draft : RecoveryDraft) (x : Bytes × Bytes) =>
      (addRecoverySignature verifySchnorr draft x.1 x.2).toOption) (fun _ => True) begun calls
        fun _ _ => trivial
  exact Machine.run_invariant
    (fun _ _ _ hd _ hstep => hd.add (toOption_eq_some.mp hstep)) hstart hfree h

/-- Where every entry is of one of the keys, the keys present are as many as the entries. -/
theorem presentKeys_length {pubkeys : List Bytes} {signatures : Dict Bytes Bytes}
    (hnodup : pubkeys.Nodup) (h : ∀ k sig, signatures.get k = some sig → k ∈ pubkeys) :
    (presentKeys pubkeys signatures).length = signatures.entries.card := by
  have hperm := List.perm_insertionSort Bytes.le pubkeys
  have hkeys : signatures.entries.map Prod.fst =
      (presentKeys pubkeys signatures : Multiset Bytes) := by
    apply (Multiset.Nodup.ext signatures.keys_nodup ?_).mpr
    · intro k
      rw [Multiset.mem_map, Multiset.mem_coe, presentKeys, List.mem_filter, hperm.mem_iff,
        Dict.has_iff]
      constructor
      · intro hparts
        obtain ⟨⟨k', sig⟩, hmem, heq⟩ := hparts
        have hget := Dict.mem_entries.mp hmem
        rw [← heq]
        exact ⟨h _ _ hget, sig, hget⟩
      · intro hparts
        obtain ⟨_, sig, hget⟩ := hparts
        exact ⟨(k, sig), Dict.mem_entries.mpr hget, rfl⟩
    · exact (hperm.nodup_iff.mpr hnodup).filter _
  have hcard := congrArg Multiset.card hkeys
  rw [Multiset.card_map, Multiset.coe_card] at hcard
  exact hcard.symm

/-- Signatures that were taken recover as soon as there is a threshold of them. -/
theorem collected_recovers {begun draft : RecoveryDraft} {csvBlocks : Int} {pubkeys : List Bytes}
    {calls : List (Bytes × Bytes)} {tx : Spend} (hbegun : begun.signatures = ∅)
    (hkeys : sortRecoveryPubkeys C pubkeys = .ok begun.pubkeys)
    (hleaf : buildThresholdRecoveryLeaf C csvBlocks begun.threshold begun.pubkeys =
      .ok begun.recoveryLeaf)
    (htx : ∀ k sig, verifySchnorr begun.sighash k sig = true →
      sig ≠ [] ∧ tx.checkSig k sig = true)
    (hlock : tx.passesLock (csvBlocks.toNat % 2 ^ 32) = true)
    (h : collect verifySchnorr begun calls = some draft) :
    (draft.signatures.entries.card < begun.threshold →
      ∃ e, finalizeRecovery C draft = .error e) ∧
    (begun.threshold ≤ draft.signatures.entries.card → ∃ stack,
      finalizeRecovery C draft =
        .ok (stack ++ [begun.recoveryLeaf, begun.recoveryControlBlock]) ∧
      tx.satisfies begun.recoveryLeaf stack = true ∧
      stack.countP (· ≠ []) = begun.threshold) := by
  obtain ⟨hsame, hverified⟩ := collect_collected hbegun h
  have hsound := (sortRecoveryPubkeys_ok hkeys).2
  have hsize := presentKeys_length hsound.nodup fun k sig hget => (hverified k sig hget).1
  obtain ⟨-, hmany⟩ := threshold_recovery hleaf draft.signatures
  have hthreshold : draft.threshold = begun.threshold := by rw [hsame]
  have hpubkeys : draft.pubkeys = begun.pubkeys := by rw [hsame]
  have hscript : draft.recoveryLeaf = begun.recoveryLeaf := by rw [hsame]
  have hblock : draft.recoveryControlBlock = begun.recoveryControlBlock := by rw [hsame]
  constructor
  · intro hfew
    cases hfinal : finalizeRecovery C draft with
    | error e => exact ⟨e, rfl⟩
    | ok w =>
      simp only [finalizeRecovery, bind_eq_ok, ensure_eq_ok] at hfinal
      obtain ⟨_, hcount, -⟩ := hfinal
      omega
  · intro hcount
    obtain ⟨stack, hstack, hsatisfies⟩ := hmany (by omega)
    obtain ⟨hiff, hexact⟩ := hsatisfies tx
    have hsat : tx.satisfies begun.recoveryLeaf stack = true := by
      apply hiff.mpr
      refine ⟨hlock, ?_⟩
      intro k hk
      have hpresent := List.mem_filter.mp (List.mem_of_mem_take hk)
      obtain ⟨sig, hget⟩ := Dict.has_iff.mp hpresent.2
      obtain ⟨hne, hcheck⟩ := htx k sig (hverified k sig hget).2
      exact ⟨sig, hget, hne, hcheck⟩
    refine ⟨stack, ?_, hsat, hexact hsat⟩
    simp only [finalizeRecovery, bind_eq_ok, ensure_eq_ok, pure_eq_ok]
    rw [hthreshold, hpubkeys, hscript, hblock]
    exact ⟨(), hcount, stack, hstack, rfl⟩

end

/-! One of two keys, of which the second has signed. -/

def sampleRecoveryKeys : List Bytes :=
  [sampleConfig.recoveryKeyXOnly, sampleConfig.guardianXOnly]

def recoveryCrypto : Crypto :=
  { sampleCrypto with isXOnlyPoint := fun key => key ∈ sampleRecoveryKeys }

def sampleSignature : Bytes := List.replicate 64 7

def sampleSpend : Spend where
  version := 2
  sequence := 144
  checkSig := fun key sig => key = sampleConfig.recoveryKeyXOnly && sig = sampleSignature

def sampleLeaf : Bytes :=
  (buildThresholdRecoveryLeaf recoveryCrypto 144 1 sampleRecoveryKeys).toOption.getD []

theorem sampleLeaf_ok :
    buildThresholdRecoveryLeaf recoveryCrypto 144 1 sampleRecoveryKeys = .ok sampleLeaf := by
  decide +kernel

/-- The valid signature alone. -/
def oneSignature : Dict Bytes Bytes :=
  Dict.set ∅ sampleConfig.recoveryKeyXOnly sampleSignature

/-- The valid signature, and one by the first key that is not. -/
def mixedSignatures : Dict Bytes Bytes :=
  oneSignature.set sampleConfig.guardianXOnly (List.replicate 64 0)

/-- The builder takes entries as they are: an invalid one by the first key is used in place of a
valid one, and alone it is no reason to throw. -/
theorem invalid_entry_used : HasValid sampleSpend mixedSignatures sampleConfig.recoveryKeyXOnly ∧
    (∃ w, buildThresholdRecoveryWitness recoveryCrypto sampleRecoveryKeys mixedSignatures 1 =
      .ok w ∧ sampleSpend.satisfies sampleLeaf w = false) ∧
    (∃ w, buildThresholdRecoveryWitness recoveryCrypto sampleRecoveryKeys
      (Dict.set ∅ sampleConfig.guardianXOnly (List.replicate 64 0)) 1 = .ok w) := by
  refine ⟨⟨sampleSignature, by decide +kernel, by decide, by decide +kernel⟩, ?_, ?_⟩
  · exact ⟨[[], List.replicate 64 0], by decide +kernel, by decide +kernel⟩
  · exact ⟨[[], List.replicate 64 0], by decide +kernel⟩

theorem threshold_recovery_one_of_two : ∃ w,
    buildThresholdRecoveryWitness recoveryCrypto sampleRecoveryKeys oneSignature 1 = .ok w ∧
      sampleSpend.satisfies sampleLeaf w = true ∧ w.countP (· ≠ []) = 1 := by
  obtain ⟨-, hmany⟩ := threshold_recovery sampleLeaf_ok oneSignature
  obtain ⟨w, hw, hsatisfies⟩ := hmany (by decide +kernel)
  obtain ⟨hiff, hexact⟩ := hsatisfies sampleSpend
  have hpresent : (presentKeys sampleRecoveryKeys oneSignature).take (1 : Int).toNat =
      [sampleConfig.recoveryKeyXOnly] := by
    decide +kernel
  have hsat : sampleSpend.satisfies sampleLeaf w = true := by
    apply hiff.mpr
    rw [hpresent]
    refine ⟨by decide, ?_⟩
    intro k hk
    rw [List.mem_singleton.mp hk]
    exact ⟨sampleSignature, by decide +kernel, by decide, by decide +kernel⟩
  have hcount := hexact hsat
  exact ⟨w, hw, hsat, by omega⟩

end Cove
