import Mathlib.Data.Int.Log
import Mathlib.Tactic.FieldSimp
import Mathlib.Tactic.Positivity
import DtProject.Numeric.Truncation

/-! # Binary floating-point formats

A format fixes a precision and an exponent range. Its data are the
representable rationals, the infinities and NaN. Rounding to nearest, ties to
even, never passes a representable value, so integers that fit the precision
are converted exactly and order against them is kept.
-/

namespace Numeric

def roundEven (x : ℚ) : ℤ :=
  if Int.fract x = 1 / 2 then ⌊x⌋ + ⌊x⌋ % 2 else round x

theorem abs_roundEven_sub_le (x : ℚ) : |(roundEven x : ℚ) - x| ≤ 1 / 2 := by
  unfold roundEven
  split_ifs with h
  · have hx : x = ⌊x⌋ + 1 / 2 := by rw [← h]; exact (Int.floor_add_fract x).symm
    have hb : ⌊x⌋ % 2 = 0 ∨ ⌊x⌋ % 2 = 1 := Int.emod_two_eq_zero_or_one _
    have he : ((⌊x⌋ + ⌊x⌋ % 2 : ℤ) : ℚ) - x = ((⌊x⌋ % 2 : ℤ) : ℚ) - 1 / 2 := by
      push_cast; linarith
    rw [he]
    rcases hb with hb | hb <;> rw [hb] <;> norm_num [abs_le]
  · rw [abs_sub_comm]; exact abs_sub_round x

theorem roundEven_mono {x y : ℚ} (hxy : x ≤ y) : roundEven x ≤ roundEven y := by
  rcases hxy.lt_or_eq with hlt | rfl
  · have hx := (abs_le.mp (abs_roundEven_sub_le x)).2
    have hy := (abs_le.mp (abs_roundEven_sub_le y)).1
    have h : (roundEven x : ℚ) < roundEven y + 1 := by linarith
    exact Int.lt_add_one_iff.mp (by exact_mod_cast h)
  · exact le_rfl

@[simp] theorem roundEven_intCast (n : ℤ) : roundEven n = n := by
  simp [roundEven]

theorem le_roundEven {x : ℚ} {n : ℤ} (h : n ≤ x) : n ≤ roundEven x := by
  simpa using roundEven_mono h

theorem roundEven_le {x : ℚ} {n : ℤ} (h : x ≤ n) : roundEven x ≤ n := by
  simpa using roundEven_mono h

theorem abs_roundEven_le {x : ℚ} {n : ℤ} (h : |x| ≤ n) : |roundEven x| ≤ n := by
  obtain ⟨hlo, hhi⟩ := abs_le.mp h
  exact abs_le.mpr ⟨le_roundEven (by push_cast; exact hlo), roundEven_le hhi⟩

/-- A binary format: significands below `2 ^ precision`, exponents from `minExp`, magnitudes
below `2 ^ maxExp`. -/
structure Format where
  precision : ℕ
  minExp : ℤ
  maxExp : ℤ
  precision_pos : 0 < precision

def binary64 : Format := ⟨53, -1074, 1024, by decide⟩

def binary32 : Format := ⟨24, -149, 128, by decide⟩

namespace Format

variable (F : Format)

def Representable (x : ℚ) : Prop :=
  |x| < 2 ^ F.maxExp ∧ ∃ m e : ℤ, |m| ≤ 2 ^ F.precision ∧ F.minExp ≤ e ∧ x = m * 2 ^ e

/-- The exponent of the last significand bit at the magnitude of `x`. -/
def exponent (x : ℚ) : ℤ := max (Int.log 2 |x| + 1 - F.precision) F.minExp

/-- Round to the last significand bit, before the overflow check. -/
def roundRat (x : ℚ) : ℚ := roundEven (x / 2 ^ F.exponent x) * 2 ^ F.exponent x

theorem two_zpow_pos (e : ℤ) : (0 : ℚ) < 2 ^ e := zpow_pos (by norm_num) e

theorem representable_zero : F.Representable 0 :=
  ⟨by simpa using two_zpow_pos _, 0, F.minExp, by simp, le_rfl, by simp⟩

theorem abs_div_exponent_lt (x : ℚ) : |x / 2 ^ F.exponent x| < 2 ^ F.precision := by
  rw [abs_div, abs_of_pos (two_zpow_pos _), div_lt_iff₀ (two_zpow_pos _)]
  calc |x| < 2 ^ (Int.log 2 |x| + 1) := Int.lt_zpow_succ_log_self (by norm_num) _
    _ ≤ 2 ^ ((F.precision : ℤ) + F.exponent x) :=
        zpow_le_zpow_right₀ (by norm_num) (by unfold exponent; omega)
    _ = 2 ^ F.precision * 2 ^ F.exponent x := by
        rw [zpow_add₀ (by norm_num), zpow_natCast]

theorem roundRat_significand (x : ℚ) :
    ∃ m e : ℤ, |m| ≤ 2 ^ F.precision ∧ F.minExp ≤ e ∧ F.roundRat x = m * 2 ^ e := by
  refine ⟨roundEven (x / 2 ^ F.exponent x), F.exponent x, ?_, le_max_right _ _, rfl⟩
  exact abs_roundEven_le (by exact_mod_cast (F.abs_div_exponent_lt x).le)

@[simp] theorem roundRat_zero : F.roundRat 0 = 0 := by
  have h := roundEven_intCast 0
  rw [Int.cast_zero] at h
  simp [roundRat, h]

variable {F} {x z : ℚ}

theorem roundRat_le_of_multiple {k : ℤ} (h : x ≤ k * 2 ^ F.exponent x) :
    F.roundRat x ≤ k * 2 ^ F.exponent x := by
  have hp := two_zpow_pos (F.exponent x)
  have hk : roundEven (x / 2 ^ F.exponent x) ≤ k := roundEven_le ((div_le_iff₀ hp).mpr h)
  exact mul_le_mul_of_nonneg_right (by exact_mod_cast hk) hp.le

theorem le_roundRat_of_multiple {k : ℤ} (h : k * 2 ^ F.exponent x ≤ x) :
    k * 2 ^ F.exponent x ≤ F.roundRat x := by
  have hp := two_zpow_pos (F.exponent x)
  have hk : k ≤ roundEven (x / 2 ^ F.exponent x) := le_roundEven ((le_div_iff₀ hp).mpr h)
  exact mul_le_mul_of_nonneg_right (by exact_mod_cast hk) hp.le

theorem multiple_of_le_exponent {e : ℤ} (m : ℤ) (h : F.exponent x ≤ e) :
    ∃ k : ℤ, (m : ℚ) * 2 ^ e = k * 2 ^ F.exponent x := by
  obtain ⟨d, hd⟩ := Int.eq_ofNat_of_zero_le (sub_nonneg.mpr h)
  refine ⟨m * 2 ^ d, ?_⟩
  have he : e = (d : ℤ) + F.exponent x := by omega
  rw [he, zpow_add₀ (by norm_num), zpow_natCast]
  push_cast
  ring

/-- A representable value is a multiple of the last significand bit of `x`, or a multiple lies
between its magnitude and the magnitude of `x`. -/
theorem Representable.multiple_or_le (hz : F.Representable z) (hx : x ≠ 0) :
    (∃ k : ℤ, z = k * 2 ^ F.exponent x) ∨
      ∃ k : ℤ, |z| ≤ k * 2 ^ F.exponent x ∧ k * 2 ^ F.exponent x ≤ |x| := by
  obtain ⟨-, m, e, hm, he, rfl⟩ := hz
  rcases le_or_gt (F.exponent x) e with hle | hlt
  · exact Or.inl (multiple_of_le_exponent m hle)
  right
  have hpos := F.precision_pos
  have hexp : F.exponent x = Int.log 2 |x| + 1 - F.precision := by
    unfold exponent at hlt ⊢; omega
  obtain ⟨k, hk⟩ := multiple_of_le_exponent (F := F) (x := x) (e := Int.log 2 |x|) 1 (by omega)
  rw [Int.cast_one, one_mul] at hk
  refine ⟨k, ?_, hk ▸ Int.zpow_log_le_self (by norm_num) (abs_pos.mpr hx)⟩
  have hm' : |(m : ℚ)| ≤ 2 ^ (F.precision : ℤ) := by rw [zpow_natCast]; exact_mod_cast hm
  calc |(m : ℚ) * 2 ^ e| = |(m : ℚ)| * 2 ^ e := by rw [abs_mul, abs_of_pos (two_zpow_pos e)]
    _ ≤ 2 ^ (F.precision : ℤ) * 2 ^ e := mul_le_mul_of_nonneg_right hm' (two_zpow_pos e).le
    _ = 2 ^ ((F.precision : ℤ) + e) := (zpow_add₀ (by norm_num) _ _).symm
    _ ≤ 2 ^ Int.log 2 |x| := zpow_le_zpow_right₀ (by norm_num) (by omega)
    _ = k * 2 ^ F.exponent x := hk

theorem roundRat_le (hz : F.Representable z) (h : x ≤ z) : F.roundRat x ≤ z := by
  rcases eq_or_ne x 0 with rfl | hx
  · simpa using h
  rcases hz.multiple_or_le hx with ⟨k, rfl⟩ | ⟨k, hzk, hkx⟩
  · exact roundRat_le_of_multiple h
  rcases hx.lt_or_gt with hx | hx
  · rw [abs_of_neg hx] at hkx
    have hr : F.roundRat x ≤ (-k : ℤ) * 2 ^ F.exponent x :=
      roundRat_le_of_multiple (by push_cast; linarith)
    push_cast at hr
    linarith [(abs_le.mp hzk).1]
  · rw [abs_of_pos hx] at hkx
    have hr : F.roundRat x ≤ k * 2 ^ F.exponent x :=
      roundRat_le_of_multiple (by linarith [(abs_le.mp hzk).2])
    linarith

theorem le_roundRat (hz : F.Representable z) (h : z ≤ x) : z ≤ F.roundRat x := by
  rcases eq_or_ne x 0 with rfl | hx
  · simpa using h
  rcases hz.multiple_or_le hx with ⟨k, rfl⟩ | ⟨k, hzk, hkx⟩
  · exact le_roundRat_of_multiple h
  rcases hx.lt_or_gt with hx | hx
  · rw [abs_of_neg hx] at hkx
    have hr : ((-k : ℤ) : ℚ) * 2 ^ F.exponent x ≤ F.roundRat x :=
      le_roundRat_of_multiple (by push_cast; linarith [(abs_le.mp hzk).1])
    push_cast at hr
    linarith
  · rw [abs_of_pos hx] at hkx
    have hr : (k : ℚ) * 2 ^ F.exponent x ≤ F.roundRat x := le_roundRat_of_multiple hkx
    linarith [(abs_le.mp hzk).2]

theorem representable_intCast {n : ℤ} (hn : |n| ≤ 2 ^ F.precision) (hmin : F.minExp ≤ 0)
    (hmax : (F.precision : ℤ) < F.maxExp) : F.Representable n := by
  refine ⟨?_, n, 0, hn, hmin, by simp⟩
  calc |(n : ℚ)| ≤ 2 ^ F.precision := by exact_mod_cast hn
    _ = 2 ^ (F.precision : ℤ) := (zpow_natCast _ _).symm
    _ < 2 ^ F.maxExp := zpow_lt_zpow_right₀ (by norm_num) hmax

end Format

/-- A datum of the format: a representable value, a signed infinity, or NaN. -/
inductive Datum (F : Format) where
  | finite (value : ℚ) (representable : F.Representable value)
  | infinity (negative : Bool)
  | nan

namespace Format

variable (F : Format)

/-- Convert a rational to the format, rounding to nearest and overflowing to an infinity. -/
def round (x : ℚ) : Datum F :=
  if h : |F.roundRat x| < 2 ^ F.maxExp then .finite (F.roundRat x) ⟨h, F.roundRat_significand x⟩
  else .infinity (x < 0)

end Format

namespace Datum

variable {F G : Format}

instance : Zero (Datum F) := ⟨.finite 0 F.representable_zero⟩

def cast : Datum F → Datum G
  | finite v _ => G.round v
  | infinity s => infinity s
  | nan => nan

def AtMost : Datum F → ℚ → Prop
  | finite v _, q => v ≤ q
  | infinity s, _ => s = true
  | nan, _ => False

def AtLeast : Datum F → ℚ → Prop
  | finite v _, q => q ≤ v
  | infinity s, _ => s = false
  | nan, _ => False

/-- `d` lies on the same side as `x` of every integer of absolute value at most `N`. -/
def Between (N : ℤ) (x : ℚ) (d : Datum F) : Prop :=
  ∀ n : ℤ, |n| ≤ N → (x ≤ n → d.AtMost n) ∧ (n ≤ x → d.AtLeast n)

@[simp] theorem between_finite {N : ℤ} {x v : ℚ} {h : F.Representable v} :
    (finite v h).Between N x ↔ Numeric.Between N x v := Iff.rfl

end Datum

namespace Format

variable {F : Format} {x z : ℚ}

theorem round_atMost (hz : F.Representable z) (h : x ≤ z) : (F.round x).AtMost z := by
  have hr := roundRat_le hz h
  unfold round
  split_ifs with hlt
  · exact hr
  · simp only [Datum.AtMost, decide_eq_true_eq]
    by_contra hx
    have hlo : 0 ≤ F.roundRat x := le_roundRat F.representable_zero (not_lt.mp hx)
    rw [abs_of_nonneg hlo] at hlt
    exact hlt (lt_of_le_of_lt (hr.trans (le_abs_self z)) hz.1)

theorem round_atLeast (hz : F.Representable z) (h : z ≤ x) : (F.round x).AtLeast z := by
  have hr := le_roundRat hz h
  unfold round
  split_ifs with hlt
  · exact hr
  · simp only [Datum.AtLeast, decide_eq_false_iff_not]
    intro hx
    have hhi : F.roundRat x ≤ 0 := roundRat_le F.representable_zero hx.le
    rw [abs_of_nonpos hhi] at hlt
    exact hlt (lt_of_le_of_lt ((neg_le_neg hr).trans (neg_le_abs z)) hz.1)

/-- Rounding keeps the side of every integer that the precision covers. -/
theorem round_between (hmin : F.minExp ≤ 0) (hmax : (F.precision : ℤ) < F.maxExp) (x : ℚ) :
    (F.round x).Between (2 ^ F.precision) x := by
  intro n hn
  have hz := representable_intCast hn hmin hmax
  exact ⟨round_atMost hz, round_atLeast hz⟩

end Format

end Numeric
