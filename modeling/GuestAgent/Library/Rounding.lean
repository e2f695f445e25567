import Mathlib.Data.Rat.Floor

/-!
Bounds on floating-point results. Whatever the rounding of an operation is, it moves no result
across a number it can represent, so an integer bound on the exact result is one on the rounded
result. Truncation keeps such bounds too.
-/
namespace GuestAgent.Library

/-- How an operation on doubles rounds; integers up to `2 ^ 53` are represented exactly. -/
structure Rounding where
  round : ℚ → ℚ
  round_le : ∀ (q : ℚ) (n : ℤ), |n| ≤ 2 ^ 53 → q ≤ n → round q ≤ n
  le_round : ∀ (q : ℚ) (n : ℤ), |n| ≤ 2 ^ 53 → (n : ℚ) ≤ q → (n : ℚ) ≤ round q

namespace Rounding

/-- Operations on numbers whose results need no rounding. -/
def exact : Rounding := ⟨id, fun _ _ _ h => h, fun _ _ _ h => h⟩

/-- Between two integer bounds before the rounding and after it. -/
theorem between (r : Rounding) {q : ℚ} {low high : ℤ} (small : |low| ≤ 2 ^ 53)
    (large : |high| ≤ 2 ^ 53) (above : (low : ℚ) ≤ q) (below : q ≤ high) :
    (low : ℚ) ≤ r.round q ∧ r.round q ≤ high :=
  ⟨r.le_round q low small above, r.round_le q high large below⟩

/-- Eighths are represented exactly as well. -/
def KeepsEighths (r : Rounding) : Prop := ∀ n : ℤ, |n| ≤ 2 ^ 53 → r.round (n / 8) = n / 8

end Rounding

/-- Truncation toward zero. -/
def truncate (q : ℚ) : ℤ := if 0 ≤ q then ⌊q⌋ else ⌈q⌉

theorem truncate_le {q : ℚ} {n : ℤ} (below : q ≤ n) : truncate q ≤ n := by
  unfold truncate
  split
  · have floor : (⌊q⌋ : ℚ) ≤ n := (Int.floor_le q).trans below
    exact_mod_cast floor
  · exact Int.ceil_le.mpr below

/-- A number that is not negative is truncated to the integer below it. -/
theorem truncate_lt_iff {q : ℚ} (nonneg : 0 ≤ q) (n : ℤ) : truncate q < n ↔ q < n := by
  rw [truncate, if_pos nonneg, Int.floor_lt]

theorem le_truncate {q : ℚ} {n : ℤ} (above : (n : ℚ) ≤ q) : n ≤ truncate q := by
  unfold truncate
  split
  · exact Int.le_floor.mpr above
  · have ceil : (n : ℚ) ≤ ⌈q⌉ := above.trans (Int.le_ceil q)
    exact_mod_cast ceil

end GuestAgent.Library
