import Cove.Lib.PairTree
import Cove.Lib.Sha256
import Cove.Vault.Taproot
import Mathlib.Data.List.Perm.Basic

/-! The merkle paths of a script tree lead to its root: `packages/cove-vault/src/taproot.ts`
computes the two in separate loops. -/

namespace Cove

open Checked PairTree

/-- The children are put in order before they are hashed. -/
theorem tapBranchHash_comm (C : Crypto) (a b : Bytes) :
    tapBranchHash C a b = tapBranchHash C b a := by
  unfold tapBranchHash
  by_cases hab : Bytes.le a b
  · by_cases hba : Bytes.le b a
    · have heq : a = b := antisymm (r := Bytes.le) hab hba
      rw [heq]
    · simp [hab, hba]
  · have hba : Bytes.le b a := (total_of Bytes.le a b).resolve_left hab
    simp [hab, hba]

theorem combineLevel_eq (C : Crypto) (level : List Bytes) :
    combineLevel C level = pairUp (tapBranchHash C) level := by
  induction level using combineLevel.induct with
  | case1 a b rest ih => simp [combineLevel, pairUp, ih]
  | case2 a => simp [combineLevel, pairUp]
  | case3 => simp [combineLevel, pairUp]

/-- Each leaf of a collection of subtrees appears once, and its path so far leads from it to the
hash of its subtree. -/
structure PathsClimb (C : Crypto) (level : List MerkleNode) (paths : Dict Bytes (List Bytes)) :
    Prop where
  distinct : (level.flatMap MerkleNode.leaves).Nodup
  climbs : ∀ n ∈ level, ∀ leaf ∈ n.leaves, ∃ path,
    paths.get leaf = some path ∧ Climbs (tapBranchHash C) leaf path n.hash

/-- Only the listed leaves' paths are extended, each once. -/
theorem get_pushSibling {leaves : List Bytes} (hnodup : leaves.Nodup) (sibling : Bytes)
    (paths : Dict Bytes (List Bytes)) (leaf : Bytes) :
    (pushSibling leaves sibling paths).get leaf =
      if leaf ∈ leaves then some ((paths.get leaf).getD [] ++ [sibling]) else paths.get leaf := by
  induction leaves generalizing paths with
  | nil => simp [pushSibling]
  | cons l ls ih =>
    obtain ⟨hl, hls⟩ := List.nodup_cons.mp hnodup
    have hstep : pushSibling (l :: ls) sibling paths =
      pushSibling ls sibling (paths.set l ((paths.get l).getD [] ++ [sibling])) := rfl
    rw [hstep, ih hls]
    by_cases h : leaf = l
    · subst h
      simp [hl]
    · simp [h, Dict.get_set]

theorem get_pushSibling_of_notMem {leaves : List Bytes} (hnodup : leaves.Nodup) (sibling : Bytes)
    (paths : Dict Bytes (List Bytes)) {leaf : Bytes} (h : leaf ∉ leaves) :
    (pushSibling leaves sibling paths).get leaf = paths.get leaf := by
  rw [get_pushSibling hnodup, if_neg h]

theorem get_pushSibling_of_mem {leaves : List Bytes} (hnodup : leaves.Nodup) (sibling : Bytes)
    {paths : Dict Bytes (List Bytes)} {leaf : Bytes} {path : List Bytes}
    (hpath : paths.get leaf = some path) (h : leaf ∈ leaves) :
    (pushSibling leaves sibling paths).get leaf = some (path ++ [sibling]) := by
  rw [get_pushSibling hnodup, if_pos h, hpath, Option.getD_some]

/-- The two loops combine the same hashes. -/
theorem pairNodes_hash (C : Crypto) (level : List MerkleNode) (paths : Dict Bytes (List Bytes)) :
    (pairNodes C level paths).1.map MerkleNode.hash =
      pairUp (tapBranchHash C) (level.map MerkleNode.hash) := by
  induction level, paths using pairNodes.induct C with
  | case1 a b rest paths pushed next later hround ih =>
    simp only [pairNodes, List.map_cons, pairUp]
    rw [ih]
  | case2 a paths => simp [pairNodes, pairUp]
  | case3 paths => simp [pairNodes, pairUp]

/-- A round regroups the leaves in their order. -/
theorem pairNodes_leaves (C : Crypto) (level : List MerkleNode)
    (paths : Dict Bytes (List Bytes)) :
    (pairNodes C level paths).1.flatMap MerkleNode.leaves =
      level.flatMap MerkleNode.leaves := by
  induction level, paths using pairNodes.induct C with
  | case1 a b rest paths pushed next later hround ih =>
    simp only [pairNodes, List.flatMap_cons, List.append_assoc]
    rw [ih]
  | case2 a paths => simp [pairNodes]
  | case3 paths => simp [pairNodes]

/-- Leaves outside the level keep their paths. -/
theorem pairNodes_other (C : Crypto) {level : List MerkleNode} (paths : Dict Bytes (List Bytes))
    (hnodup : (level.flatMap MerkleNode.leaves).Nodup) {leaf : Bytes}
    (h : leaf ∉ level.flatMap MerkleNode.leaves) :
    (pairNodes C level paths).2.get leaf = paths.get leaf := by
  induction level, paths using pairNodes.induct C with
  | case1 a b rest paths pushed next later hround ih =>
    simp only [List.flatMap_cons, List.mem_append, not_or] at h
    simp only [List.flatMap_cons] at hnodup
    obtain ⟨ha, hrest, -⟩ := List.nodup_append'.mp hnodup
    obtain ⟨hb, hrest, -⟩ := List.nodup_append'.mp hrest
    simp only [pairNodes]
    rw [ih hrest h.2.2, get_pushSibling_of_notMem hb _ _ h.2.1,
      get_pushSibling_of_notMem ha _ _ h.1]
  | case2 a paths => simp [pairNodes]
  | case3 paths => simp [pairNodes]

/-- A round lengthens every path by one sibling, or by none for the node carried up. -/
theorem PathsClimb.pairNodes {C : Crypto} {level : List MerkleNode}
    {paths : Dict Bytes (List Bytes)} (h : PathsClimb C level paths) :
    PathsClimb C (pairNodes C level paths).1 (pairNodes C level paths).2 := by
  refine ⟨by rw [pairNodes_leaves]; exact h.distinct, ?_⟩
  induction level, paths using Cove.pairNodes.induct C with
  | case1 a b rest paths pushed next later hround ih =>
    have hnodup := h.distinct
    simp only [List.flatMap_cons] at hnodup
    obtain ⟨ha, hbrest, haway⟩ := List.nodup_append'.mp hnodup
    obtain ⟨hb, hrest, hbaway⟩ := List.nodup_append'.mp hbrest
    have hkept (leaf : Bytes) (hleaf : leaf ∈ rest.flatMap MerkleNode.leaves) :
        (pushSibling b.leaves a.hash (pushSibling a.leaves b.hash paths)).get leaf =
          paths.get leaf := by
      rw [get_pushSibling_of_notMem hb _ _ fun hmem => hbaway hmem hleaf,
        get_pushSibling_of_notMem ha _ _ fun hmem =>
          haway hmem (List.mem_append_right _ hleaf)]
    -- the rest of the level, with the paths as the first pair leaves them
    have hlater : PathsClimb C rest
        (pushSibling b.leaves a.hash (pushSibling a.leaves b.hash paths)) := by
      refine ⟨hrest, ?_⟩
      intro n hn leaf hleaf
      obtain ⟨path, hget, hclimb⟩ := h.climbs n (by simp [hn]) leaf hleaf
      refine ⟨path, ?_, hclimb⟩
      rw [hkept leaf (List.mem_flatMap.mpr ⟨n, hn, hleaf⟩), hget]
    have hcomm := tapBranchHash_comm C
    intro n hn leaf hleaf
    simp only [Cove.pairNodes, List.mem_cons] at hn ⊢
    rcases hn with hn | hn
    · subst hn
      have hout : leaf ∉ rest.flatMap MerkleNode.leaves := by
        intro hmem
        rcases List.mem_append.mp hleaf with hleaf | hleaf
        · exact haway hleaf (List.mem_append_right _ hmem)
        · exact hbaway hleaf hmem
      rw [pairNodes_other C _ hrest hout]
      rcases List.mem_append.mp hleaf with hleaf | hleaf
      · obtain ⟨path, hget, hclimb⟩ := h.climbs a (by simp) leaf hleaf
        have hnotb : leaf ∉ b.leaves := fun hmem => haway hleaf (List.mem_append_left _ hmem)
        refine ⟨path ++ [b.hash], ?_, hclimb.left b.hash⟩
        rw [get_pushSibling_of_notMem hb _ _ hnotb, get_pushSibling_of_mem ha _ hget hleaf]
      · obtain ⟨path, hget, hclimb⟩ := h.climbs b (by simp) leaf hleaf
        have hnota : leaf ∉ a.leaves := fun hmem => haway hmem (List.mem_append_left _ hleaf)
        refine ⟨path ++ [a.hash], ?_, hclimb.right hcomm a.hash⟩
        apply get_pushSibling_of_mem hb _ _ hleaf
        rw [get_pushSibling_of_notMem ha _ _ hnota, hget]
    · exact ih hlater n hn leaf hleaf
  | case2 a paths =>
    intro n hn
    exact h.climbs n (by simpa [Cove.pairNodes] using hn)
  | case3 paths =>
    intro n hn
    simp [Cove.pairNodes] at hn

theorem pairNodes_length (C : Crypto) (level : List MerkleNode)
    (paths : Dict Bytes (List Bytes)) :
    (pairNodes C level paths).1.length = (level.length + 1) / 2 := by
  have hhash := congrArg List.length (pairNodes_hash C level paths)
  rw [length_pairUp, List.length_map, List.length_map] at hhash
  exact hhash

/-- Both loops run to the top of the tree, where one subtree holds every leaf. -/
theorem merklePathsLoop_climbs (C : Crypto) {fuel : Nat} {level : List MerkleNode}
    {paths : Dict Bytes (List Bytes)} (hne : level ≠ []) (hfuel : level.length ≤ fuel)
    (h : PathsClimb C level paths) :
    ∃ root, merkleLevels C fuel (level.map MerkleNode.hash) = [root] ∧
      ∀ leaf ∈ level.flatMap MerkleNode.leaves, ∃ path,
        (merklePathsLoop C fuel level paths).get leaf = some path ∧
          Climbs (tapBranchHash C) leaf path root := by
  induction fuel generalizing level paths with
  | zero =>
    have hempty : level = [] := List.length_eq_zero_iff.mp (by omega)
    exact absurd hempty hne
  | succ fuel ih =>
    by_cases hlong : level.length > 1
    · have hpos := pairNodes_length C level paths
      have hup := @ih (pairNodes C level paths).1 (pairNodes C level paths).2
        (List.ne_nil_of_length_pos (by omega)) (by omega) h.pairNodes
      rw [pairNodes_hash, pairNodes_leaves] at hup
      simp only [merkleLevels, merklePathsLoop, List.length_map, hlong, if_true, combineLevel_eq]
      exact hup
    · cases level with
      | nil => exact absurd rfl hne
      | cons n rest =>
        have hrest : rest = [] := by
          apply List.length_eq_zero_iff.mp
          simp only [List.length_cons] at hlong
          omega
        subst hrest
        refine ⟨n.hash, by simp [merkleLevels], ?_⟩
        intro leaf hleaf
        simp only [List.flatMap_cons, List.flatMap_nil, List.append_nil] at hleaf
        simpa [merklePathsLoop] using h.climbs n (by simp) leaf hleaf

/-- Every leaf as a subtree of its own. -/
def leafNodes (leafHashes : List Bytes) : List MerkleNode := leafHashes.map fun h => ⟨h, [h]⟩

theorem leafNodes_hash (leafHashes : List Bytes) :
    (leafNodes leafHashes).map MerkleNode.hash = leafHashes := by
  induction leafHashes with
  | nil => simp [leafNodes]
  | cons h hs ih => simpa [leafNodes] using ih

theorem leafNodes_leaves (leafHashes : List Bytes) :
    (leafNodes leafHashes).flatMap MerkleNode.leaves = leafHashes := by
  induction leafHashes with
  | nil => simp [leafNodes]
  | cons h hs ih => simpa [leafNodes] using ih

/-- Before the first round every path is empty. -/
theorem PathsClimb.start (C : Crypto) {leafHashes : List Bytes} (hnodup : leafHashes.Nodup) :
    PathsClimb C (leafNodes (leafHashes.insertionSort Bytes.le))
      ((∅ : Dict Bytes (List Bytes)).setAll (leafHashes.map fun h => (h, []))) := by
  have hperm := List.perm_insertionSort Bytes.le leafHashes
  constructor
  · rw [leafNodes_leaves]
    exact hperm.nodup_iff.mpr hnodup
  · intro n hn leaf hleaf
    obtain ⟨hash, hhash, hnode⟩ := List.mem_map.mp hn
    subst hnode
    have hself : leaf = hash := by simpa using hleaf
    subst hself
    refine ⟨[], ?_, Climbs.nil _ leaf⟩
    apply Dict.get_setAll_of_mem
    · intro e he _
      obtain ⟨h, -, hentry⟩ := List.mem_map.mp he
      rw [← hentry]
    · exact List.mem_map.mpr ⟨leaf, hperm.mem_iff.mp hhash, rfl⟩

/-- Reordering the leaves does not change the root. -/
theorem taprootMerkleRoot_perm (C : Crypto) {leafHashes other : List Bytes}
    (h : other.Perm leafHashes) : taprootMerkleRoot C other = taprootMerkleRoot C leafHashes := by
  have hsort : other.insertionSort Bytes.le = leafHashes.insertionSort Bytes.le := by
    apply List.Perm.eq_of_pairwise' (List.pairwise_insertionSort Bytes.le other)
      (List.pairwise_insertionSort Bytes.le leafHashes)
    exact ((List.perm_insertionSort _ other).trans h).trans
      (List.perm_insertionSort _ leafHashes).symm
  have hne : other ≠ [] ↔ leafHashes ≠ [] := by
    rw [← List.length_pos_iff, ← List.length_pos_iff, h.length_eq]
  simp only [taprootMerkleRoot, hsort, h.length_eq, hne]

/-- Folding a leaf along its merkle path gives the root, whatever order the leaves come in. -/
theorem merkle_paths_verify (C : Crypto) (leafHashes : List Bytes) (hne : leafHashes ≠ [])
    (hnodup : leafHashes.Nodup) :
    ∃ root, taprootMerkleRoot C leafHashes = .ok root ∧
      (∀ leaf ∈ leafHashes, ∃ path, (merklePaths C leafHashes).get leaf = some path ∧
        path.foldl (tapBranchHash C) leaf = root) ∧
      ∀ other, other.Perm leafHashes → taprootMerkleRoot C other = .ok root := by
  have hperm := List.perm_insertionSort Bytes.le leafHashes
  have hlength : (leafNodes (leafHashes.insertionSort Bytes.le)).length = leafHashes.length := by
    rw [leafNodes, List.length_map, hperm.length_eq]
  have hsome : leafNodes (leafHashes.insertionSort Bytes.le) ≠ [] := by
    apply List.ne_nil_of_length_pos
    rw [hlength]
    exact List.length_pos_iff.mpr hne
  obtain ⟨root, hroot, hclimb⟩ :=
    merklePathsLoop_climbs C hsome hlength.le (PathsClimb.start C hnodup)
  rw [leafNodes_hash] at hroot
  rw [leafNodes_leaves] at hclimb
  have hok : taprootMerkleRoot C leafHashes = .ok root := by
    simp [taprootMerkleRoot, hroot, hne]
  refine ⟨root, hok, ?_, ?_⟩
  · intro leaf hleaf
    exact hclimb leaf (hperm.mem_iff.mpr hleaf)
  · intro other hother
    rw [taprootMerkleRoot_perm C hother, hok]

/-- SHA-256 alone: no curve point enters a script tree. -/
def treeCrypto : Crypto where
  sha256 := Sha256.sha256
  isXOnlyPoint _ := false
  xOnlyPointAddTweak _ _ := none

def treeLeaves : List Bytes := [Bytes.ofNatBE 32 3, Bytes.ofNatBE 32 1, Bytes.ofNatBE 32 2]

theorem merkle_paths_verify_three : ∃ root, taprootMerkleRoot treeCrypto treeLeaves = .ok root ∧
    (∀ leaf ∈ treeLeaves, ∃ path, (merklePaths treeCrypto treeLeaves).get leaf = some path ∧
      path.foldl (tapBranchHash treeCrypto) leaf = root) ∧
    ∀ other, other.Perm treeLeaves → taprootMerkleRoot treeCrypto other = .ok root :=
  merkle_paths_verify treeCrypto treeLeaves (by decide) (by decide)

end Cove
