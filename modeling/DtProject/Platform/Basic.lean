import DtProject.Numeric.Conversion

/-! # The platform under the subsystem

The engine's JSON module and the undefined integer conversions of the target
are parameters of the model. `StoresNumbers` is what the subsystem relies on of
the JSON module: a numeric field is stored as a double that keeps the numeral's
side of every integer up to `2 ^ 53`, in particular such integers exactly.
-/

namespace DtProject

open Numeric

abbrev Double := Datum binary64

abbrev Single := Datum binary32

/-- The JSON accessors that the subsystem calls. A `tryGet` accessor is `none` where it returns
false and stores nothing; `numericField` is the exact value of a numeric field's numeral. -/
structure JsonModule where
  Object : Type
  deserialize : String → Option Object
  getStringField : Object → String → String
  tryGetStringField : Object → String → Option String
  getNumberField : Object → String → Double
  tryGetNumberField : Object → String → Option Double
  tryGetObjectField : Object → String → Option (Option Object)
  numericField : Object → String → Option ℚ

/-- The JSON module, and the results of double-to-int32 conversions that are undefined. -/
structure Platform extends JsonModule where
  undefinedInt32 : Double → Int32

/-- Numeric fields are stored, on their own side of every integer up to `2 ^ 53`. -/
def JsonModule.StoresNumbers (J : JsonModule) : Prop :=
  ∀ o field x, J.numericField o field = some x →
    ∃ d, J.tryGetNumberField o field = some d ∧ d.Between (2 ^ 53) x

/-- Equality of `FString`s, which ignores case. -/
def equalsIgnoreCase (a b : String) : Bool :=
  a.toList.map Char.toLower == b.toList.map Char.toLower

namespace Platform

variable (P : Platform)

/-- Store a string field over the given value. -/
def stringField (root : P.Object) (field stored : String) : String :=
  (P.tryGetStringField root field).getD stored

def numberField (root : P.Object) (field : String) (stored : Double) : Double :=
  (P.tryGetNumberField root field).getD stored

def int32 (d : Double) : Int32 := d.toInt32 P.undefinedInt32

end Platform

end DtProject
