import DtProject.Platform.Basic

/-! # A reference platform

Parsed JSON objects with the engine's accessors on them. Numerals are rounded
to double precision, so the numeric fields meet `StoresNumbers`. Parsing itself
is given by a table from texts to their objects.
-/

namespace DtProject

open Numeric

inductive FJsonValue where
  | null
  | boolean (b : Bool)
  | number (x : ℚ)
  | string (s : String)
  | array (values : List FJsonValue)
  | object (fields : List (String × FJsonValue))

abbrev FJsonObject := List (String × FJsonValue)

namespace FJsonObject

variable (o : FJsonObject) (field : String)

def find : Option FJsonValue :=
  (List.find? (fun p => equalsIgnoreCase p.1 field) o).map Prod.snd

def tryGetString : Option String :=
  match find o field with
  | some (.string s) => some s
  | some (.boolean b) => some (if b then "true" else "false")
  | _ => none

def numeric : Option ℚ :=
  match find o field with
  | some (.number x) => some x
  | _ => none

def tryGetObject : Option (Option FJsonObject) :=
  match find o field with
  | some (.object fields) => some (some fields)
  | _ => none

end FJsonObject

/-- The platform whose texts parse as the table says. -/
def referencePlatform (texts : List (String × FJsonObject)) : Platform where
  Object := FJsonObject
  deserialize text := (texts.find? fun p => p.1 == text).map Prod.snd
  getStringField o field := (o.tryGetString field).getD ""
  tryGetStringField := FJsonObject.tryGetString
  getNumberField o field := ((o.numeric field).map binary64.round).getD 0
  tryGetNumberField o field := (o.numeric field).map binary64.round
  tryGetObjectField := FJsonObject.tryGetObject
  numericField := FJsonObject.numeric
  undefinedInt32 _ := Int32.minValue

theorem referencePlatform_storesNumbers (texts : List (String × FJsonObject)) :
    (referencePlatform texts).StoresNumbers := by
  intro o field x hx
  refine ⟨binary64.round x, congrArg (Option.map binary64.round) hx, ?_⟩
  exact Format.round_between (by decide) (by decide) x

end DtProject
