import Cove.Vault.BackingVault
import Cove.Vault.MerklePaths

/-! How long the scripts and the control blocks of a vault are. Its tree has three leaves, so one of
them is carried up and the other two lie a step deeper. -/

namespace Cove

open Checked

theorem length_compile_key {b : Bytes} (h : b.length = 32) :
    (ScriptChunk.data b).compile.length = 33 := by
  have hop : asMinimalOp b = none := by
    match b with
    | _ :: _ :: _ => rfl
  simp [ScriptChunk.compile, hop, h]

section

variable {C : Crypto}

theorem length_executionLeaf {policyIdentityHash guardianXOnly script : Bytes}
    (h : buildExecutionLeaf C policyIdentityHash guardianXOnly = .ok script) :
    script.length = 68 := by
  simp only [buildExecutionLeaf, bind_eq_ok, ensure_eq_ok, pure_eq_ok] at h
  obtain ⟨_, hidentity, _, hguardian, _, -, rfl⟩ := h
  have hop (code : UInt8) : (ScriptChunk.op code).compile.length = 1 := rfl
  simp [scriptCompile, length_compile_key hidentity, length_compile_key hguardian, hop]

/-- A tweaked key is x-only, so it takes 32 bytes. -/
def XOnlyKeys (C : Crypto) : Prop :=
  ∀ key tweak r, C.xOnlyPointAddTweak key tweak = some r → r.1.length = 32

structure VaultLengths (vault : CoveVaultV3) : Prop where
  mintLeaf : vault.mintLeaf.script.length = 68
  redeemLeaf : vault.redeemLeaf.script.length = 68
  scriptPubKey : vault.scriptPubKey.length = 34

theorem backingVault_lengths (hkeys : XOnlyKeys C) {s : CoveStateV2} {keys : VaultKeys}
    {vault : CoveVaultV3} (h : buildBackingVaultV3 C s keys = .ok vault) : VaultLengths vault := by
  simp only [buildBackingVaultV3, buildCoveVaultV3, tweakKey, bind_eq_ok, pure_eq_ok, Prod.exists,
    demand_eq_ok] at h
  obtain ⟨_, -, _, -, _, -, mintScript, hmint, redeemScript, hredeem, _, -, _, -, key, parity, hkey,
    rfl⟩ := h
  constructor
  case mintLeaf => exact length_executionLeaf hmint
  case redeemLeaf => exact length_executionLeaf hredeem
  case scriptPubKey =>
    have hlen := hkeys _ _ _ hkey
    simpa using hlen

/-- Two leaves are paired, and the third one with their branch. -/
theorem merklePaths_sorted {leafHashes : List Bytes} {x y z : Bytes}
    (hxyz : leafHashes.insertionSort Bytes.le = [x, y, z]) (hnodup : leafHashes.Nodup) :
    (merklePaths C leafHashes).get x = some [y, z] ∧
      (merklePaths C leafHashes).get y = some [x, z] ∧
      (merklePaths C leafHashes).get z = some [tapBranchHash C x y] := by
  have hperm := List.perm_insertionSort Bytes.le leafHashes
  rw [hxyz] at hperm
  have hdistinct : (x ≠ y ∧ x ≠ z) ∧ y ≠ z := by
    simpa using hperm.nodup_iff.mpr hnodup
  obtain ⟨⟨hxy, hxz⟩, hyz⟩ := hdistinct
  let start := (∅ : Dict Bytes (List Bytes)).setAll (leafHashes.map fun h => (h, []))
  have hstart (l : Bytes) (hl : l ∈ [x, y, z]) : start.get l = some [] := by
    apply Dict.get_setAll_of_mem
    · intro e he _
      obtain ⟨h, -, hentry⟩ := List.mem_map.mp he
      rw [← hentry]
    · exact List.mem_map_of_mem (hperm.mem_iff.mp hl)
  have hpaths : merklePaths C leafHashes = pushSibling [z] (tapBranchHash C x y)
      (pushSibling [x, y] z (pushSibling [y] x (pushSibling [x] y start))) := by
    rw [merklePaths, ← hperm.length_eq, hxyz]
    rfl
  rw [hpaths]
  have hone (l : Bytes) : [l].Nodup := List.nodup_singleton l
  have htwo : [x, y].Nodup := by simp [hxy]
  refine ⟨?_, ?_, ?_⟩
  · have hfirst := get_pushSibling_of_mem (hone x) y (hstart x (by simp)) (by simp)
    rw [← get_pushSibling_of_notMem (hone y) x _ (by simp [hxy])] at hfirst
    have hsecond := get_pushSibling_of_mem htwo z hfirst (by simp)
    rwa [← get_pushSibling_of_notMem (hone z) (tapBranchHash C x y) _ (by simp [hxz])] at hsecond
  · have hfirst := hstart y (by simp)
    rw [← get_pushSibling_of_notMem (hone x) y _ (by simp [hxy.symm])] at hfirst
    have hsecond := get_pushSibling_of_mem (hone y) x hfirst (by simp)
    have hthird := get_pushSibling_of_mem htwo z hsecond (by simp)
    rwa [← get_pushSibling_of_notMem (hone z) (tapBranchHash C x y) _ (by simp [hyz])] at hthird
  · have hfirst := hstart z (by simp)
    rw [← get_pushSibling_of_notMem (hone x) y _ (by simp [hxz.symm]),
      ← get_pushSibling_of_notMem (hone y) x _ (by simp [hyz.symm]),
      ← get_pushSibling_of_notMem htwo z _ (by simp [hxz.symm, hyz.symm])] at hfirst
    exact get_pushSibling_of_mem (hone z) _ hfirst (by simp)

/-- Of three leaves the one that sorts last has one sibling above it, the others have two. -/
theorem merklePaths_three (hwidth : ∀ m, (C.sha256 m).length = 32) {leafHashes : List Bytes}
    (hthree : leafHashes.length = 3) (hnodup : leafHashes.Nodup)
    (hhashes : ∀ leaf ∈ leafHashes, leaf.length = 32) {leaf : Bytes} (hleaf : leaf ∈ leafHashes) :
    (((merklePaths C leafHashes).get leaf).getD []).flatten.length =
      if ∀ other ∈ leafHashes, Bytes.le other leaf then 32 else 64 := by
  have hperm := List.perm_insertionSort Bytes.le leafHashes
  have hsorted := List.pairwise_insertionSort Bytes.le leafHashes
  obtain ⟨x, y, z, hxyz⟩ := List.length_eq_three.mp (hperm.length_eq.trans hthree)
  obtain ⟨hx, hy, hz⟩ := merklePaths_sorted (C := C) hxyz hnodup
  rw [hxyz] at hperm hsorted
  have hdistinct : (x ≠ y ∧ x ≠ z) ∧ y ≠ z := by
    simpa using hperm.nodup_iff.mpr hnodup
  have horder : (Bytes.le x y ∧ Bytes.le x z) ∧ Bytes.le y z := by
    simpa using hsorted
  have hbranch : (tapBranchHash C x y).length = 32 := hwidth _
  have hlen (l : Bytes) (hl : l ∈ [x, y, z]) : l.length = 32 := hhashes l (hperm.mem_iff.mp hl)
  have hlast (l : Bytes) (h : Bytes.le l z) (hne : l ≠ z) :
      ¬ ∀ other ∈ leafHashes, Bytes.le other l := by
    intro hall
    exact hne (antisymm (r := Bytes.le) h (hall z (hperm.mem_iff.mp (by simp))))
  have hmem : leaf = x ∨ leaf = y ∨ leaf = z := by
    simpa using hperm.mem_iff.mpr hleaf
  rcases hmem with rfl | rfl | rfl
  · rw [hx, if_neg (hlast leaf horder.1.2 hdistinct.1.2)]
    simp [hlen]
  · rw [hy, if_neg (hlast leaf horder.2 hdistinct.2)]
    simp [hlen]
  · rw [hz, if_pos]
    · simp [hbranch]
    · intro other hother
      have hcases : other = x ∨ other = y ∨ other = leaf := by
        simpa using hperm.mem_iff.mpr hother
      rcases hcases with rfl | rfl | rfl
      · exact horder.1.2
      · exact horder.2
      · exact refl (r := Bytes.le) other

/-- Every other leaf of the vault sorts before it. -/
def CoveVaultV3.SortsLast (vault : CoveVaultV3) (leaf : CoveVaultLeaf) : Prop :=
  ∀ other ∈ [vault.mintLeaf, vault.redeemLeaf, vault.recoveryLeaf],
    Bytes.le other.tapleafHash leaf.tapleafHash

instance (vault : CoveVaultV3) (leaf : CoveVaultLeaf) : Decidable (vault.SortsLast leaf) :=
  inferInstanceAs (Decidable (∀ _ ∈ _, _))

/-- The control block of an execution leaf takes 65 bytes where the leaf sorts last, and 97 where it
does not. -/
theorem controlBlock_length (hwidth : ∀ m, (C.sha256 m).length = 32) {s : CoveStateV2}
    {keys : VaultKeys} {vault : CoveVaultV3} (h : buildBackingVaultV3 C s keys = .ok vault)
    (hnodup : [vault.mintLeaf.tapleafHash, vault.redeemLeaf.tapleafHash,
      vault.recoveryLeaf.tapleafHash].Nodup) :
    vault.mintControlBlock.length = (if vault.SortsLast vault.mintLeaf then 65 else 97) ∧
      vault.redeemControlBlock.length = if vault.SortsLast vault.redeemLeaf then 65 else 97 := by
  simp only [buildBackingVaultV3, buildCoveVaultV3, bind_eq_ok, pure_eq_ok, Prod.exists] at h
  obtain ⟨_, -, _, -, _, -, mintScript, -, redeemScript, -, recoveryScript, -, _, -, key, parity, -,
    rfl⟩ := h
  have hnums : coveNumsXOnly.length = 32 := by decide
  have hleaf (script : Bytes) : (tapleafHash C script leafVersionTapscript).length = 32 := hwidth _
  have hhashes : ∀ leaf ∈ [tapleafHash C mintScript leafVersionTapscript,
      tapleafHash C redeemScript leafVersionTapscript,
      tapleafHash C recoveryScript leafVersionTapscript], leaf.length = 32 := by
    simp [hleaf]
  have hpath := @merklePaths_three C hwidth _ rfl hnodup hhashes
  have hsum (b : UInt8) (path : List Bytes) (last : Prop) [Decidable last]
      (h : path.flatten.length = if last then 32 else 64) :
      (b :: (coveNumsXOnly ++ path.flatten)).length = if last then 65 else 97 := by
    rw [List.length_cons, List.length_append, hnums, h]
    split <;> rfl
  refine ⟨hsum _ _ _ ?_, hsum _ _ _ ?_⟩
  · rw [hpath (by simp)]
    simp [CoveVaultV3.SortsLast]
  · rw [hpath (by simp)]
    simp [CoveVaultV3.SortsLast]

end

end Cove
