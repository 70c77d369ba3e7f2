import Mathlib.Data.List.TakeWhile
import Mathlib.Tactic.SplitIfs

/-! # Texts as bytes

`TCHAR_TO_UTF8` converts a string as a C string, up to its first NUL.
-/

namespace DtProject

def nul : Char := Char.ofNat 0

def utf8Bytes (message : String) : List UInt8 :=
  message.toList.flatMap String.utf8EncodeChar

/-- `TCHAR_TO_UTF8`, less the NUL that it writes at the end. -/
def tcharToUtf8 (message : String) : List UInt8 :=
  (message.toList.takeWhile (· ≠ nul)).flatMap String.utf8EncodeChar

variable {message : String}

theorem zero_not_mem_utf8EncodeChar {c : Char} (h : c ≠ nul) :
    0 ∉ String.utf8EncodeChar c := by
  have hc : c.toNat ≠ 0 := fun h0 => h (Char.toNat_inj.mp h0)
  have hval : c.val.toNat = c.toNat := rfl
  dsimp only [String.utf8EncodeChar]
  rw [hval]
  split_ifs <;> simp [← UInt8.toNat_inj] <;> omega

theorem zero_not_mem_utf8Bytes (h : nul ∉ message.toList) : 0 ∉ utf8Bytes message := by
  simp only [utf8Bytes, List.mem_flatMap, not_exists, not_and]
  intro c hc
  exact zero_not_mem_utf8EncodeChar fun hnul => h (hnul ▸ hc)

theorem tcharToUtf8_eq (h : nul ∉ message.toList) : tcharToUtf8 message = utf8Bytes message := by
  have htake : message.toList.takeWhile (· ≠ nul) = message.toList := by
    rw [List.takeWhile_eq_self_iff]
    intro c hc
    simpa using ne_of_mem_of_not_mem hc h
  rw [tcharToUtf8, htake, utf8Bytes]

/-- Only what comes after the first NUL is lost. -/
theorem utf8Bytes_eq (message : String) : utf8Bytes message =
    tcharToUtf8 message ++
      (message.toList.dropWhile (· ≠ nul)).flatMap String.utf8EncodeChar := by
  rw [tcharToUtf8, ← List.flatMap_append, List.takeWhile_append_dropWhile, utf8Bytes]

end DtProject
