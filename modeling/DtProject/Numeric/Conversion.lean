import DtProject.Numeric.Binary

/-! # Conversion to 32-bit integers

Converting a floating datum to a signed 32-bit integer truncates it when the
truncation fits. Every other conversion is undefined and gives whatever value
the parameter names. A rational stored as a datum first keeps its own truncation
exactly when that truncation fits and the datum has not been carried onto
another integer.
-/

namespace Numeric

def InInt32 (n : ℤ) : Prop := -2 ^ 31 ≤ n ∧ n < 2 ^ 31

instance (n : ℤ) : Decidable (InInt32 n) := inferInstanceAs (Decidable (_ ∧ _))

theorem InInt32.abs_bound {n : ℤ} (h : InInt32 n) : |n| ≤ 2 ^ 31 :=
  abs_le.mpr ⟨h.1, h.2.le⟩

theorem InInt32.toInt_ofInt {n : ℤ} (h : InInt32 n) : (Int32.ofInt n).toInt = n :=
  Int32.toInt_ofInt_of_le h.1 h.2

namespace Datum

variable {F : Format}

def ConvertsToInt32 : Datum F → Prop
  | finite v _ => InInt32 (truncate v)
  | _ => False

/-- The signed 32-bit integer a datum converts to, given the results of undefined conversions. -/
def toInt32 (undefined : Datum F → Int32) : Datum F → Int32
  | finite v h => if InInt32 (truncate v) then .ofInt (truncate v) else undefined (finite v h)
  | d => undefined d

/-- The datum stored for `x` has reached the next integer away from zero. -/
def Carries (x : ℚ) : Datum F → Prop
  | finite v _ => |truncate x| + 1 ≤ |v|
  | _ => False

variable {N : ℤ} {x : ℚ} {d : Datum F} {undefined : Datum F → Int32}

theorem Between.exists_finite (h : d.Between N x) (hx : |truncate x| < N) :
    ∃ v hv, d = finite v hv := by
  cases d with
  | finite v hv => exact ⟨v, hv, rfl⟩
  | infinity s =>
    obtain ⟨hlo, hhi⟩ := abs_lt.mp hx
    have hle : |truncate x - 1| ≤ N := abs_le.mpr ⟨by omega, by omega⟩
    have hge : |truncate x + 1| ≤ N := abs_le.mpr ⟨by omega, by omega⟩
    have hs : s = false := (h _ hle).2 (by exact_mod_cast (truncate_sub_one_lt x).le)
    have hs' : s = true := (h _ hge).1 (by exact_mod_cast (lt_truncate_add_one x).le)
    simp [hs] at hs'
  | nan =>
    obtain ⟨hlo, hhi⟩ := abs_lt.mp hx
    have hge : |truncate x + 1| ≤ N := abs_le.mpr ⟨by omega, by omega⟩
    exact ((h _ hge).1 (by exact_mod_cast (lt_truncate_add_one x).le)).elim

/-- A stored rational converts in range to its own truncation exactly when the truncation
fits and the stored datum has not been carried to another integer. -/
theorem Between.toInt32_eq_truncate_iff (h : d.Between N x) (hN : 2 ^ 31 < N) :
    d.ConvertsToInt32 ∧ (d.toInt32 undefined).toInt = truncate x ↔
      InInt32 (truncate x) ∧ ¬ d.Carries x := by
  constructor
  · rintro ⟨hd, heq⟩
    cases d with
    | finite v hv =>
      have hv' : InInt32 (truncate v) := hd
      simp only [toInt32, if_pos hv', hv'.toInt_ofInt] at heq
      have hx : InInt32 (truncate x) := heq ▸ hv'
      refine ⟨hx, fun hc => ?_⟩
      have hb : Numeric.Between N x v := h
      have hlt := (hb.truncate_eq_iff (lt_of_le_of_lt hx.abs_bound hN)).mp heq
      exact not_le.mpr hlt hc
    | infinity s => exact hd.elim
    | nan => exact hd.elim
  · rintro ⟨hx, hc⟩
    have hlt : |truncate x| < N := lt_of_le_of_lt hx.abs_bound hN
    obtain ⟨v, hv, rfl⟩ := h.exists_finite hlt
    have hb : Numeric.Between N x v := h
    have heq : truncate v = truncate x := (hb.truncate_eq_iff hlt).mpr (not_le.mp hc)
    have hv' : InInt32 (truncate v) := heq.symm ▸ hx
    refine ⟨hv', ?_⟩
    rw [toInt32, if_pos hv', hv'.toInt_ofInt, heq]

theorem Between.not_carries {n : ℤ} (h : d.Between N (n : ℚ)) (hn : |n| ≤ N) :
    ¬ d.Carries n := by
  cases d with
  | finite v hv =>
    have hb : Numeric.Between N n v := h
    have hv : v = n := hb.eq_intCast hn
    simp [Carries, hv, ← Int.cast_abs]
  | infinity s => exact id
  | nan => exact id

end Datum

end Numeric
