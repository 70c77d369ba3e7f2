import Mathlib.Data.Rat.Floor
import Mathlib.Algebra.Order.Round
import Mathlib.Tactic.Linarith
import Mathlib.Tactic.Push

/-! # Truncation and conversions between the integers

Truncation rounds a rational toward zero. A conversion that never passes an
integer of a given range changes the truncation only by carrying a value onto
the next integer away from zero.
-/

namespace Numeric

def truncate (x : ℚ) : ℤ := if 0 ≤ x then ⌊x⌋ else ⌈x⌉

@[simp] theorem truncate_intCast (n : ℤ) : truncate n = n := by
  simp [truncate]

theorem truncate_of_nonneg {x : ℚ} (h : 0 ≤ x) : truncate x = ⌊x⌋ := if_pos h

theorem truncate_of_neg {x : ℚ} (h : x < 0) : truncate x = ⌈x⌉ := if_neg (not_le.mpr h)

theorem truncate_of_nonpos {x : ℚ} (h : x ≤ 0) : truncate x = ⌈x⌉ := by
  rcases h.lt_or_eq with h | rfl
  · exact truncate_of_neg h
  · simp [truncate]

theorem lt_truncate_add_one (x : ℚ) : x < truncate x + 1 := by
  rcases le_or_gt 0 x with h | h
  · rw [truncate_of_nonneg h]; exact Int.lt_floor_add_one x
  · rw [truncate_of_neg h]; exact lt_of_le_of_lt (Int.le_ceil x) (lt_add_one _)

theorem truncate_sub_one_lt (x : ℚ) : truncate x - 1 < x := by
  rcases le_or_gt 0 x with h | h
  · rw [truncate_of_nonneg h]; exact lt_of_lt_of_le (sub_one_lt _) (Int.floor_le x)
  · rw [truncate_of_neg h]; linarith [Int.ceil_lt_add_one x]

/-- `v` lies on the same side as `x` of every integer of absolute value at most `N`. -/
def Between (N : ℤ) (x v : ℚ) : Prop :=
  ∀ n : ℤ, |n| ≤ N → (x ≤ n → v ≤ n) ∧ (n ≤ x → n ≤ v)

variable {N : ℤ} {x v : ℚ}

theorem Between.eq_intCast {n : ℤ} (h : Between N n v) (hn : |n| ≤ N) : v = n :=
  le_antisymm ((h n hn).1 le_rfl) ((h n hn).2 le_rfl)

theorem Between.truncate_eq_iff (h : Between N x v) (hx : |truncate x| < N) :
    truncate v = truncate x ↔ |v| < |truncate x| + 1 := by
  rcases le_or_gt 0 x with h0 | h0
  · rw [truncate_of_nonneg h0] at hx ⊢
    have hn : 0 ≤ ⌊x⌋ := Int.floor_nonneg.mpr h0
    rw [abs_of_nonneg hn] at hx ⊢
    have hlo : (⌊x⌋ : ℚ) ≤ v := (h ⌊x⌋ (by rw [abs_of_nonneg hn]; omega)).2 (Int.floor_le x)
    have hv : 0 ≤ v := le_trans (by exact_mod_cast hn) hlo
    rw [truncate_of_nonneg hv, abs_of_nonneg hv, Int.floor_eq_iff]
    exact ⟨fun h => h.2, fun h => ⟨hlo, h⟩⟩
  · rw [truncate_of_neg h0] at hx ⊢
    have hn : ⌈x⌉ ≤ 0 := Int.ceil_le.mpr (by exact_mod_cast h0.le)
    rw [abs_of_nonpos hn] at hx ⊢
    have hhi : v ≤ (⌈x⌉ : ℚ) := (h ⌈x⌉ (by rw [abs_of_nonpos hn]; omega)).1 (Int.le_ceil x)
    have hv : v ≤ 0 := le_trans hhi (by exact_mod_cast hn)
    rw [truncate_of_nonpos hv, abs_of_nonpos hv, Int.ceil_eq_iff]
    push_cast
    constructor
    · rintro ⟨hlt, _⟩; linarith
    · intro hlt; exact ⟨by linarith, hhi⟩

end Numeric
