import Mathlib.Data.List.Induction
import Mathlib.Tactic.Common

/-! Chains of links, each of which names the hash of the one before it. -/

namespace HashChain

variable {α δ : Type} (previous hash : α → δ)

/-- Every link names the hash before it, the first one the start. -/
def Chained : δ → List α → Prop
  | _, [] => True
  | d, l :: ls => previous l = d ∧ Chained (hash l) ls

/-- The hash a chain ends in. -/
def head (start : δ) (ls : List α) : δ := (ls.getLast?.map hash).getD start

@[simp] theorem head_nil (start : δ) : head hash start [] = start := rfl

@[simp] theorem head_concat (start : δ) (ls : List α) (l : α) :
    head hash start (ls ++ [l]) = hash l := by
  simp [head]

theorem head_cons (start : δ) (l : α) (ls : List α) :
    head hash start (l :: ls) = head hash (hash l) ls := by
  induction ls using List.reverseRecOn with
  | nil => rfl
  | append_singleton ls m _ => rw [← List.cons_append, head_concat, head_concat]

variable {previous hash}

/-- A chain read from its end: the last link names what the others end in. -/
theorem chained_concat {start : δ} {ls : List α} {l : α} :
    Chained previous hash start (ls ++ [l]) ↔
      Chained previous hash start ls ∧ previous l = head hash start ls := by
  induction ls generalizing start with
  | nil => simp [Chained]
  | cons m ls ih => rw [List.cons_append, Chained, Chained, ih, head_cons, and_assoc]

theorem chained_append {start : δ} {ls ms : List α} :
    Chained previous hash start (ls ++ ms) ↔
      Chained previous hash start ls ∧ Chained previous hash (head hash start ls) ms := by
  induction ls generalizing start with
  | nil => simp [Chained]
  | cons l ls ih => rw [List.cons_append, Chained, Chained, ih, head_cons, and_assoc]

/-- A link put between two links of a chain has the hash of the one before it. -/
theorem Chained.hash_between {start : δ} {ls ms : List α} {l m : α}
    (h : Chained previous hash start (ls ++ m :: ms))
    (h' : Chained previous hash start (ls ++ l :: m :: ms)) : hash l = head hash start ls := by
  obtain ⟨-, hm, -⟩ := chained_append.mp h
  obtain ⟨-, -, hm', -⟩ := chained_append.mp h'
  rw [← hm', hm]

/-- What the start and every hash is, every named hash is. -/
theorem Chained.previous_of {P : δ → Prop} {start : δ} {ls : List α}
    (h : Chained previous hash start ls) (hstart : P start) (hhash : ∀ l ∈ ls, P (hash l)) :
    ∀ l ∈ ls, P (previous l) := by
  induction ls generalizing start with
  | nil => simp
  | cons l ls ih =>
    obtain ⟨hprev, hrest⟩ := h
    rw [List.forall_mem_cons] at hhash ⊢
    rw [hprev]
    exact ⟨hstart, ih hrest hhash.1 hhash.2⟩

/-- Where links of one hash agree on the hash before them and on `f`, and none hashes to the
start, the hash a chain ends in determines `f` along the chain. -/
theorem map_eq_of_head {γ : Type} {f : α → γ} {start : δ} {ls ms : List α}
    (hl : Chained previous hash start ls) (hm : Chained previous hash start ms)
    (hcollide : ∀ l ∈ ls, ∀ m ∈ ms, hash l = hash m → previous l = previous m ∧ f l = f m)
    (hstart : ∀ l ∈ ls ++ ms, hash l ≠ start)
    (h : head hash start ls = head hash start ms) : ls.map f = ms.map f := by
  induction ls using List.reverseRecOn generalizing ms with
  | nil =>
    cases ms using List.reverseRecOn with
    | nil => rfl
    | append_singleton ms m _ =>
      rw [head_nil, head_concat] at h
      exact absurd h.symm (hstart m (by simp))
  | append_singleton ls l ih =>
    cases ms using List.reverseRecOn with
    | nil =>
      rw [head_nil, head_concat] at h
      exact absurd h (hstart l (by simp))
    | append_singleton ms m _ =>
      rw [head_concat, head_concat] at h
      obtain ⟨hprev, hf⟩ := hcollide l (by simp) m (by simp) h
      obtain ⟨hl, hlp⟩ := chained_concat.mp hl
      obtain ⟨hm, hmp⟩ := chained_concat.mp hm
      have hhead : head hash start ls = head hash start ms := by rw [← hlp, hprev, hmp]
      have hbefore : ls.map f = ms.map f := by
        apply ih hl hm _ _ hhead
        · intro l hl m hm
          exact hcollide l (by simp [hl]) m (by simp [hm])
        · intro l hl
          have hl := List.mem_append.mp hl
          exact hstart l (by simp only [List.mem_append]; tauto)
      simp [hbefore, hf]

end HashChain
