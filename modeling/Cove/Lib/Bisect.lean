import Cove.Lib.Loop
import Mathlib.Order.Bounds.Basic

/-! Bisection of an interval of integers by a test that may throw: for the last number that
passes, and for the first. -/

namespace Bisect

open Loop

variable {ε : Type}

/-- The ends of the interval still searched. -/
structure Interval where
  lo : Int
  hi : Int
  deriving DecidableEq, Repr

/-- A turn of the search for the last number that passes; the middle is rounded up. -/
def lastTurn (test : Int → Except ε Bool) (w : Interval) : Except ε (Turn Interval) :=
  if ¬ w.lo < w.hi then .ok (.leave w)
  else do
    let mid := (w.lo + w.hi + 1) / 2
    let passes ← test mid
    return .again (if passes then { w with lo := mid } else { w with hi := mid - 1 })

/-- A turn of the search for the first number that passes; the middle is rounded down. -/
def firstTurn (test : Int → Except ε Bool) (w : Interval) : Except ε (Turn Interval) :=
  if ¬ w.lo < w.hi then .ok (.leave w)
  else do
    let mid := (w.lo + w.hi) / 2
    let passes ← test mid
    return .again (if passes then { w with hi := mid } else { w with lo := mid + 1 })

/-- What a search for the last number keeps: the lower end passes or is the bottom, and beyond the
upper end nothing passes. -/
structure LastWithin (bottom top : Int) (P : Int → Prop) (w : Interval) : Prop where
  lo_ge : bottom ≤ w.lo
  lo_passes : w.lo = bottom ∨ P w.lo
  hi_le : w.hi ≤ top
  beyond : ∀ m, w.hi < m → m ≤ top → ¬ P m
  ordered : w.lo ≤ max bottom w.hi

/-- The search for the last number ends with the greatest one that passes, or with the bottom. -/
theorem last_total {test : Int → Except ε Bool} {P : Int → Prop} [DecidablePred P]
    {bottom top : Int} (htest : ∀ m, bottom < m → m ≤ top → test m = .ok (decide (P m)))
    (hmono : ∀ m n, bottom < m → m ≤ n → n ≤ top → P n → P m) {fuel : Nat}
    (hfuel : (top - bottom).toNat < fuel) :
    ∃ w, run (lastTurn test) fuel ⟨bottom, top⟩ = some (.ok w) ∧
      IsGreatest {m | m = bottom ∨ bottom < m ∧ m ≤ top ∧ P m} w.lo := by
  have hturn : ∀ w, LastWithin bottom top P w →
      (∃ w', lastTurn test w = .ok (.leave w') ∧
        IsGreatest {m | m = bottom ∨ bottom < m ∧ m ≤ top ∧ P m} w'.lo) ∨
      ∃ w', lastTurn test w = .ok (.again w') ∧ LastWithin bottom top P w' ∧
        (w'.hi - w'.lo).toNat < (w.hi - w.lo).toNat := by
    intro w hw
    obtain ⟨hlow, hpass, hhigh, hbeyond, hordered⟩ := hw
    by_cases hlt : w.lo < w.hi
    · right
      have hmid := htest ((w.lo + w.hi + 1) / 2) (by omega) (by omega)
      by_cases hP : P ((w.lo + w.hi + 1) / 2)
      · refine ⟨{ w with lo := (w.lo + w.hi + 1) / 2 }, ?_, ?_, by dsimp only; omega⟩
        · simp [lastTurn, hlt, hmid, hP]
        · exact ⟨by dsimp only; omega, Or.inr hP, hhigh, hbeyond, by dsimp only; omega⟩
      · refine ⟨{ w with hi := (w.lo + w.hi + 1) / 2 - 1 }, ?_, ?_, by dsimp only; omega⟩
        · simp [lastTurn, hlt, hmid, hP]
        · refine ⟨hlow, hpass, by dsimp only; omega, ?_, by dsimp only; omega⟩
          intro m hm htop hPm
          exact hP (hmono _ m (by omega) (by dsimp only at hm; omega) htop hPm)
    · left
      refine ⟨w, by simp [lastTurn, hlt], ?_, ?_⟩
      · rcases hpass with hbottom | hP
        · exact Or.inl hbottom
        · by_cases hbottom : w.lo = bottom
          · exact Or.inl hbottom
          · exact Or.inr ⟨by omega, by omega, hP⟩
      · intro m hm
        rcases hm with hm | ⟨-, htop, hP⟩
        · omega
        · by_contra hmore
          exact hbeyond m (by omega) htop hP
  apply run_total (LastWithin bottom top P) _ (fun w => (w.hi - w.lo).toNat) hturn _ hfuel
  exact ⟨le_refl _, Or.inl rfl, le_refl _, fun m hm htop => absurd hm (by dsimp only; omega),
    le_max_left _ _⟩

/-- What a search for the first number keeps: below the lower end nothing passes, and the upper
end passes or is the top. -/
structure FirstWithin (bottom top : Int) (P : Int → Prop) (w : Interval) : Prop where
  lo_ge : bottom ≤ w.lo
  below : ∀ m, bottom ≤ m → m < w.lo → ¬ P m
  hi_le : w.hi ≤ top
  hi_passes : w.hi = top ∨ P w.hi
  ordered : w.lo ≤ w.hi

/-- The search for the first number ends with the least one that passes, or with the top. -/
theorem first_total {test : Int → Except ε Bool} {P : Int → Prop} [DecidablePred P]
    {bottom top : Int} (hle : bottom ≤ top)
    (htest : ∀ m, bottom ≤ m → m < top → test m = .ok (decide (P m)))
    (hmono : ∀ m n, bottom ≤ m → m ≤ n → n < top → P m → P n) {fuel : Nat}
    (hfuel : (top - bottom).toNat < fuel) :
    ∃ w, run (firstTurn test) fuel ⟨bottom, top⟩ = some (.ok w) ∧
      IsLeast {m | m = top ∨ bottom ≤ m ∧ m < top ∧ P m} w.lo := by
  have hturn : ∀ w, FirstWithin bottom top P w →
      (∃ w', firstTurn test w = .ok (.leave w') ∧
        IsLeast {m | m = top ∨ bottom ≤ m ∧ m < top ∧ P m} w'.lo) ∨
      ∃ w', firstTurn test w = .ok (.again w') ∧ FirstWithin bottom top P w' ∧
        (w'.hi - w'.lo).toNat < (w.hi - w.lo).toNat := by
    intro w hw
    obtain ⟨hlow, hbelow, hhigh, hpass, hordered⟩ := hw
    by_cases hlt : w.lo < w.hi
    · right
      have hmid := htest ((w.lo + w.hi) / 2) (by omega) (by omega)
      by_cases hP : P ((w.lo + w.hi) / 2)
      · refine ⟨{ w with hi := (w.lo + w.hi) / 2 }, ?_, ?_, by dsimp only; omega⟩
        · simp [firstTurn, hlt, hmid, hP]
        · exact ⟨hlow, hbelow, by dsimp only; omega, Or.inr hP, by dsimp only; omega⟩
      · refine ⟨{ w with lo := (w.lo + w.hi) / 2 + 1 }, ?_, ?_, by dsimp only; omega⟩
        · simp [firstTurn, hlt, hmid, hP]
        · refine ⟨by dsimp only; omega, ?_, hhigh, hpass, by dsimp only; omega⟩
          intro m hbottom hm hPm
          dsimp only at hm
          exact hP (hmono m _ hbottom (by omega) (by omega) hPm)
    · left
      refine ⟨w, by simp [firstTurn, hlt], ?_, ?_⟩
      · by_cases htop : w.lo = top
        · exact Or.inl htop
        · rcases hpass with hpass | hP
          · omega
          · have heq : w.hi = w.lo := by omega
            exact Or.inr ⟨hlow, by omega, heq ▸ hP⟩
      · intro m hm
        rcases hm with hm | ⟨hbottom, -, hP⟩
        · omega
        · by_contra hless
          exact hbelow m hbottom (by omega) hP
  apply run_total (FirstWithin bottom top P) _ (fun w => (w.hi - w.lo).toNat) hturn _ hfuel
  exact ⟨le_refl _, fun m hm hlow => absurd hlow (by dsimp only; omega), le_refl _, Or.inl rfl, hle⟩

end Bisect
