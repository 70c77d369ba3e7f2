import DtProject.Bytes.Layout

/-! # Doubles as they lie in memory

A double of the binary64 format is a word of 64 bits, its sign the highest. Sign
and magnitude order the words as the numbers that they stand for, and no
comparison with NaN holds.
-/

namespace Numeric

structure Bits64 where
  bits : UInt64
  deriving DecidableEq

namespace Bits64

variable (x y : Bits64)

def magnitude : ℕ := x.bits.toNat % 2 ^ 63

/-- The magnitudes beyond that of infinity. -/
def isNaN : Bool := 0x7FF0000000000000 < x.magnitude

def signed : ℤ := if x.bits.toNat < 2 ^ 63 then x.magnitude else -x.magnitude

def le : Bool := !x.isNaN && !y.isNaN && x.signed ≤ y.signed

def lt : Bool := !x.isNaN && !y.isNaN && x.signed < y.signed

def zero : Bits64 := ⟨0⟩

def minusOne : Bits64 := ⟨0xBFF0000000000000⟩

theorem zero_le_minusOne : zero.le minusOne = false := by decide

def toBytes : List UInt8 := Bytes.toLE 8 x.bits.toNat

def ofBytes (bs : List UInt8) : Bits64 := ⟨.ofNat (Bytes.ofLE bs)⟩

@[simp] theorem length_toBytes : x.toBytes.length = 8 := Bytes.length_toLE 8 _

@[simp] theorem ofBytes_toBytes : ofBytes x.toBytes = x := by
  rw [ofBytes, toBytes, Bytes.ofLE_toLE x.bits.toNat_lt, UInt64.ofNat_toNat]

end Bits64

end Numeric
