import Mathlib.Tactic.Common

/-! Trees folded level by level: neighbours are combined in pairs and an odd last element is
carried up unchanged. -/

namespace PairTree

variable {α : Type} (node : α → α → α)

/-- One round of pairwise combination. -/
def pairUp : List α → List α
  | a :: b :: rest => node a b :: pairUp rest
  | [a] => [a]
  | [] => []

theorem length_pairUp (l : List α) : (pairUp node l).length = (l.length + 1) / 2 := by
  induction l using pairUp.induct with
  | case1 a b rest ih =>
    simp only [pairUp, List.length_cons, ih]
    omega
  | case2 a => simp [pairUp]
  | case3 => simp [pairUp]

/-- Combining a leaf with the hashes of its path leads to the given hash. -/
def Climbs (leaf : α) (path : List α) (top : α) : Prop := path.foldl node leaf = top

theorem Climbs.nil (leaf : α) : Climbs node leaf [] leaf := rfl

variable {node}

/-- A path to the left child, with the right child's hash behind it, leads to the parent. -/
theorem Climbs.left {leaf a : α} {path : List α} (h : Climbs node leaf path a) (b : α) :
    Climbs node leaf (path ++ [b]) (node a b) := by
  rw [Climbs] at h ⊢
  simp [List.foldl_append, h]

theorem Climbs.right (hcomm : ∀ x y, node x y = node y x) {leaf b : α} {path : List α}
    (h : Climbs node leaf path b) (a : α) : Climbs node leaf (path ++ [a]) (node a b) := by
  rw [hcomm a b]
  exact h.left a

end PairTree
