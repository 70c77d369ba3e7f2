import Mathlib.Algebra.Order.Ring.Int
import Mathlib.Data.List.Basic

/-! # Memory regions and little-endian numbers

Copying into a region of memory changes that region only, and reading it gives
back what was copied. A number that fits the bytes of its little-endian layout
is read back as it was written.
-/

namespace Bytes

section Region

variable {α : Type*}

def read (mem : List α) (i n : ℕ) : List α := (mem.drop i).take n

def write (mem : List α) (i : ℕ) (xs : List α) : List α :=
  mem.take i ++ (xs ++ mem.drop (i + xs.length))

variable {mem xs : List α} {i j n : ℕ}

theorem length_write (h : i + xs.length ≤ mem.length) : (write mem i xs).length = mem.length := by
  simp only [write, List.length_append, List.length_take, List.length_drop]
  omega

theorem read_write_inside (hj : i ≤ j) (hn : j + n ≤ i + xs.length) (hi : i ≤ mem.length) :
    read (write mem i xs) j n = read xs (j - i) n := by
  have hlen : (mem.take i).length = i := List.length_take_of_le hi
  obtain ⟨k, rfl⟩ := Nat.exists_eq_add_of_le hj
  rw [read, write, ← List.drop_drop, List.drop_left' hlen,
    List.drop_append_of_le_length (by omega),
    List.take_append_of_le_length (by rw [List.length_drop]; omega), read, Nat.add_sub_cancel_left]

theorem read_write (h : i ≤ mem.length) : read (write mem i xs) i xs.length = xs := by
  rw [read_write_inside le_rfl le_rfl h, Nat.sub_self, read, List.drop_zero, List.take_length]

theorem read_write_before (h : j + n ≤ i) (hi : i ≤ mem.length) :
    read (write mem i xs) j n = read mem j n := by
  have hlen : (mem.take i).length = i := List.length_take_of_le hi
  rw [read, write, List.drop_append_of_le_length (by omega),
    List.take_append_of_le_length (by rw [List.length_drop]; omega), read, List.drop_take,
    List.take_take, min_eq_left (by omega)]

end Region

section LittleEndian

/-- The lowest `k` bytes of a number, the lowest first. -/
def toLE : ℕ → ℕ → List UInt8
  | 0, _ => []
  | k + 1, n => UInt8.ofNat n :: toLE k (n / 256)

def ofLE : List UInt8 → ℕ
  | [] => 0
  | b :: bs => b.toNat + 256 * ofLE bs

@[simp] theorem length_toLE (k n : ℕ) : (toLE k n).length = k := by
  induction k generalizing n with
  | zero => rfl
  | succ k ih => rw [toLE, List.length_cons, ih]

theorem ofLE_toLE {k n : ℕ} (h : n < 256 ^ k) : ofLE (toLE k n) = n := by
  induction k generalizing n with
  | zero => rw [toLE, ofLE]; omega
  | succ k ih =>
    rw [toLE, ofLE, ih (Nat.div_lt_of_lt_mul (by rwa [← Nat.pow_succ'])), UInt8.toNat_ofNat']
    exact Nat.mod_add_div n 256

end LittleEndian

end Bytes
