import Mathlib.Data.List.Infix
import DtProject.Framing.Basic

/-! # Items ended by a terminator

The items of a stream may be ended by a fixed nonempty terminator. The first
occurrence of the terminator ends the first item, and an occurrence once found
stays the first when the stream goes on.
-/

namespace Framing

variable {α : Type*} [DecidableEq α]

def findPattern (pattern : List α) : List α → Option ℕ
  | [] => none
  | x :: xs => if pattern <+: x :: xs then some 0 else (findPattern pattern xs).map (· + 1)

variable {pattern xs ys : List α} {i : ℕ}

theorem findPattern_le (h : findPattern pattern xs = some i) :
    i + pattern.length ≤ xs.length := by
  induction xs generalizing i with
  | nil => cases h
  | cons x xs ih =>
    unfold findPattern at h
    split_ifs at h with hp
    · obtain rfl := Option.some.inj h
      simpa using hp.length_le
    · obtain ⟨j, hj, rfl⟩ := Option.map_eq_some_iff.mp h
      have hle := ih hj
      rw [List.length_cons]
      omega

theorem findPattern_append (h : findPattern pattern xs = some i) (ys : List α) :
    findPattern pattern (xs ++ ys) = some i := by
  induction xs generalizing i with
  | nil => cases h
  | cons x xs ih =>
    unfold findPattern at h
    rw [List.cons_append, findPattern]
    split_ifs at h with hp
    · have hpre : pattern <+: x :: (xs ++ ys) := hp.trans (List.prefix_append (x :: xs) ys)
      rw [if_pos hpre]
      exact h
    · obtain ⟨j, hj, rfl⟩ := Option.map_eq_some_iff.mp h
      have hle := findPattern_le hj
      have hn : ¬ pattern <+: x :: (xs ++ ys) := by
        intro hpre
        refine hp (List.prefix_of_prefix_length_le hpre (List.prefix_append (x :: xs) ys) ?_)
        rw [List.length_cons]
        omega
      rw [if_neg hn, ih hj]
      rfl

theorem findPattern_eq_some_iff (hne : pattern ≠ []) :
    findPattern pattern xs = some i ↔
      pattern <+: xs.drop i ∧ ∀ j < i, ¬ pattern <+: xs.drop j := by
  induction xs generalizing i with
  | nil => simp [findPattern, hne]
  | cons x xs ih =>
    unfold findPattern
    split_ifs with hp
    · constructor
      · rintro ⟨⟩
        exact ⟨hp, fun j hj => absurd hj (Nat.not_lt_zero j)⟩
      · rintro ⟨-, hfirst⟩
        cases i with
        | zero => rfl
        | succ i => exact absurd hp (hfirst 0 (Nat.succ_pos i))
    · cases i with
      | zero => simp [hp]
      | succ i =>
        rw [Option.map_eq_some_iff]
        simp only [Nat.add_right_cancel_iff, exists_eq_right, ih, List.drop_succ_cons]
        refine and_congr_right fun _ => ⟨fun h j hj => ?_, fun h j hj => ?_⟩
        · cases j with
          | zero => exact hp
          | succ j => exact h j (Nat.lt_of_succ_lt_succ hj)
        · exact h (j + 1) (Nat.succ_lt_succ hj)

theorem findPattern_eq_none_iff (hne : pattern ≠ []) :
    findPattern pattern xs = none ↔ ¬ pattern <:+: xs := by
  induction xs with
  | nil => simpa [findPattern] using hne
  | cons x xs ih =>
    unfold findPattern
    rw [List.infix_cons_iff, not_or]
    split_ifs with hp
    · simp [hp]
    · simp [hp, ih]

/-- Cut off the item before the first terminator. -/
def terminated (pattern : List α) (hne : pattern ≠ []) : Framing α (List α) where
  next xs := (findPattern pattern xs).map fun i => (xs.take i, xs.drop (i + pattern.length))
  shrinks := by
    rintro xs b ys h
    obtain ⟨i, hi, hcut⟩ := Option.map_eq_some_iff.mp h
    obtain ⟨-, rfl⟩ := Prod.mk.inj hcut
    have hle := findPattern_le hi
    have hpos := List.length_pos_iff.mpr hne
    rw [List.length_drop]
    omega
  stable := by
    rintro xs b ys zs h
    obtain ⟨i, hi, hcut⟩ := Option.map_eq_some_iff.mp h
    obtain ⟨rfl, rfl⟩ := Prod.mk.inj hcut
    have hle := findPattern_le hi
    rw [findPattern_append hi, Option.map_some, List.take_append_of_le_length (by omega),
      List.drop_append_of_le_length hle]

theorem terminated_next_iff (hne : pattern ≠ []) :
    (terminated pattern hne).next (xs ++ pattern) = some (xs, []) ↔
      findPattern pattern (xs ++ pattern) = some xs.length := by
  constructor
  · intro h
    obtain ⟨i, hi, hcut⟩ := Option.map_eq_some_iff.mp h
    have hle := findPattern_le hi
    rw [List.length_append] at hle
    have htake := congrArg List.length (Prod.mk.inj hcut).1
    rw [List.length_take, List.length_append] at htake
    rw [hi]
    congr 1
    omega
  · intro h
    simp [terminated, h]

end Framing
