import DtProject.Numeric.Wide
import DtProject.Platform.Reference

/-! # Integers in JSON

A JSON number is a double, so the exporter of arrays rounds a 64-bit integer to
the nearest one, and the deserializer converts that back. The integers of at most
53 significant bits come through, and no others.
-/

namespace DtProject

open Numeric

/-- A double as a JSON number. There is none for infinities and NaN. -/
def jsonNumber : Double → FJsonValue
  | .finite v _ => .number v
  | _ => .null

/-- An integer as `ObjectJsonCallback` writes it into an array. -/
def exportInteger (n : Int64) : FJsonValue := jsonNumber (binary64.round n.toInt)

def asNumber : FJsonValue → Double
  | .number x => binary64.round x
  | .boolean b => binary64.round (if b then 1 else 0)
  | _ => 0

/-- `JsonValueToFNumericProperty` for a property of 64 bits, given the results of `Atoi64` and of
undefined conversions. -/
def jsonValueToFNumericProperty (atoi64 : String → Int64) (undefinedInt64 : Double → Int64) :
    FJsonValue → Int64
  | .string s => atoi64 s
  | j => (asNumber j).toInt64 undefinedInt64

/-- An integer arrives as it was sent precisely if it is a power of two times an integer of at most
53 bits. -/
theorem integer_kept_iff (atoi64 : String → Int64) (n : Int64) :
    (∀ undefinedInt64,
      jsonValueToFNumericProperty atoi64 undefinedInt64 (exportInteger n) = n) ↔
        ∃ (m : ℤ) (e : ℕ), |m| ≤ 2 ^ 53 ∧ n.toInt = m * 2 ^ e := by
  obtain ⟨v, hv, hround⟩ := Format.exists_round_eq_finite (F := binary64) (by decide) (by decide) n
  have hiff := Format.round_toInt64_iff (F := binary64) (by decide) (by decide) n
  have hexport : exportInteger n = .number v := by rw [exportInteger, hround, jsonNumber]
  have hread : ∀ undefinedInt64, jsonValueToFNumericProperty atoi64 undefinedInt64
      (exportInteger n) = (binary64.round n.toInt).toInt64 undefinedInt64 := by
    intro undefinedInt64
    rw [hexport, hround, ← Format.round_of_representable hv]
    rfl
  simp only [hread]
  exact hiff

end DtProject
