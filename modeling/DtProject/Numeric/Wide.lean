import DtProject.Numeric.Binary

/-! # 64-bit integers as doubles

A signed 64-bit integer that is stored as a floating datum and converted back comes
through precisely if the format holds it: a power of two times an integer that
fits the precision. Every other one is rounded to another integer.
-/

namespace Numeric

def InInt64 (n : ℤ) : Prop := -2 ^ 63 ≤ n ∧ n < 2 ^ 63

instance (n : ℤ) : Decidable (InInt64 n) := inferInstanceAs (Decidable (_ ∧ _))

theorem inInt64_toInt (n : Int64) : InInt64 n.toInt := ⟨n.le_toInt, n.toInt_lt⟩

namespace Datum

variable {F : Format}

def toInt64 (undefined : Datum F → Int64) : Datum F → Int64
  | finite v h => if InInt64 (truncate v) then .ofInt (truncate v) else undefined (finite v h)
  | d => undefined d

end Datum

namespace Format

variable {F : Format} {n : ℤ}

theorem round_of_representable {z : ℚ} (h : F.Representable z) : F.round z = .finite z h := by
  have hround : F.roundRat z = z := le_antisymm (roundRat_le h le_rfl) (le_roundRat h le_rfl)
  simp only [round, hround, dif_pos h.1]

theorem representable_of_multiple (hmin : F.minExp ≤ 0) (hlt : |(n : ℚ)| < 2 ^ F.maxExp) {m : ℤ}
    {e : ℕ} (hm : |m| ≤ 2 ^ F.precision) (hn : n = m * 2 ^ e) : F.Representable n :=
  ⟨hlt, m, e, hm, by omega, by rw [hn, zpow_natCast]; push_cast; rfl⟩

theorem roundRat_multiple (hn : 2 ^ F.precision < |n|) :
    ∃ (m : ℤ) (e : ℕ), |m| ≤ 2 ^ F.precision ∧ F.roundRat n = (m * 2 ^ e : ℤ) := by
  have hn' : (2 : ℚ) ^ F.precision < |(n : ℚ)| := by exact_mod_cast hn
  have hpos : (0 : ℚ) < |(n : ℚ)| := lt_trans (by positivity) hn'
  have hlog : (F.precision : ℤ) ≤ Int.log 2 |(n : ℚ)| := by
    rw [← Int.zpow_le_iff_le_log (by norm_num) hpos, zpow_natCast]
    exact_mod_cast hn'.le
  have hexp : 0 ≤ F.exponent n := by unfold exponent; omega
  obtain ⟨e, he⟩ := Int.eq_ofNat_of_zero_le hexp
  refine ⟨roundEven (n / 2 ^ F.exponent n), e, ?_, ?_⟩
  · exact abs_roundEven_le (by exact_mod_cast (F.abs_div_exponent_lt n).le)
  · rw [roundRat, he]
    push_cast
    rw [zpow_natCast]

theorem abs_toInt_lt (hmax : 63 < F.maxExp) (n : Int64) : |(n.toInt : ℚ)| < 2 ^ F.maxExp := by
  have hle : |n.toInt| ≤ 2 ^ 63 := abs_le.mpr ⟨n.le_toInt, n.toInt_lt.le⟩
  calc |(n.toInt : ℚ)| ≤ 2 ^ (63 : ℤ) := by exact_mod_cast hle
    _ < 2 ^ F.maxExp := zpow_lt_zpow_right₀ (by norm_num) hmax

theorem representable_of_abs_eq (hmin : F.minExp ≤ 0) (hmax : 63 < F.maxExp)
    (hn : |n| = 2 ^ 63) : F.Representable n := by
  obtain ⟨m, hm, rfl⟩ : ∃ m : ℤ, |m| = 1 ∧ n = m * 2 ^ 63 := by
    rcases (abs_eq (by norm_num)).mp hn with rfl | rfl
    · exact ⟨1, rfl, by norm_num⟩
    · exact ⟨-1, rfl, by norm_num⟩
  refine representable_of_multiple hmin ?_ (hm ▸ one_le_pow₀ (by norm_num)) rfl
  rw [← Int.cast_abs, hn]
  calc ((2 ^ 63 : ℤ) : ℚ) = 2 ^ (63 : ℤ) := by norm_num
    _ < 2 ^ F.maxExp := zpow_lt_zpow_right₀ (by norm_num) hmax

theorem exists_round_eq_finite (hmin : F.minExp ≤ 0) (hmax : 63 < F.maxExp) (n : Int64) :
    ∃ v h, F.round n.toInt = .finite v h := by
  have hlo : (F.round n.toInt).AtLeast (-2 ^ 63 : ℤ) :=
    round_atLeast (representable_of_abs_eq hmin hmax (by norm_num)) (by exact_mod_cast n.le_toInt)
  have hhi : (F.round n.toInt).AtMost (2 ^ 63 : ℤ) :=
    round_atMost (representable_of_abs_eq hmin hmax (by norm_num))
      (by exact_mod_cast n.toInt_lt.le)
  cases hround : F.round n.toInt with
  | finite v h => exact ⟨v, h, rfl⟩
  | infinity s =>
    rw [hround] at hlo hhi
    exact absurd (hlo.symm.trans hhi) Bool.false_ne_true
  | nan =>
    rw [hround] at hlo
    exact hlo.elim

/-- Whatever undefined conversions give, a 64-bit integer comes through precisely if it is a power
of two times an integer that fits the precision. -/
theorem round_toInt64_iff (hmin : F.minExp ≤ 0) (hmax : 63 < F.maxExp) (n : Int64) :
    (∀ undefined, (F.round n.toInt).toInt64 undefined = n) ↔
      ∃ (m : ℤ) (e : ℕ), |m| ≤ 2 ^ F.precision ∧ n.toInt = m * 2 ^ e := by
  constructor
  · intro h
    rcases le_or_gt |n.toInt| (2 ^ F.precision) with hle | hgt
    · exact ⟨n.toInt, 0, hle, by rw [pow_zero, mul_one]⟩
    obtain ⟨m, e, hm, hround⟩ := roundRat_multiple hgt
    refine ⟨m, e, hm, ?_⟩
    have hother : n + 1 ≠ n := by simp
    have hn := h fun _ => n + 1
    rw [round] at hn
    split_ifs at hn with hlt
    · simp only [Datum.toInt64, hround, truncate_intCast] at hn
      split_ifs at hn with hin
      · rw [← hn, Int64.toInt_ofInt_of_le hin.1 hin.2]
      · exact absurd hn hother
    · exact absurd hn hother
  · rintro ⟨m, e, hm, hn⟩ undefined
    have hrep : F.Representable n.toInt :=
      representable_of_multiple hmin (abs_toInt_lt hmax n) hm hn
    rw [round_of_representable hrep, Datum.toInt64, truncate_intCast, if_pos (inInt64_toInt n),
      Int64.ofInt_toInt]

end Format

end Numeric
