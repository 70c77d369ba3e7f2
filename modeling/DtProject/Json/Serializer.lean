import DtProject.Platform.Reference

/-! # Objects as JSON

`UODJsonSerializer` writes an object with all the objects that it points to, and
keeps the objects that it is in the middle of in `VisitedObjects`.
`UODJsonDeserializer` creates a new object for each JSON object. What the
reflection system and the settings of the delivery box say about classes is a
parameter, as are the conversions of the values that hold no objects.
-/

namespace DtProject

/-- The value of a property: one or several values without objects, or pointers to objects. -/
inductive PropertyValue (α ι : Type*) where
  | plain (a : α)
  | scalars (as : List α)
  | object (o : Option ι)
  | objects (os : List (Option ι))

def PropertyValue.pointers {α ι : Type*} : PropertyValue α ι → List ι
  | .object o => o.toList
  | .objects os => os.reduceOption
  | _ => []

/-- A new object, whose pointers lead to new objects of their own. -/
inductive ObjectTree (κ π α : Type*) where
  | mk (objectClass : κ) (value : π → PropertyValue α (ObjectTree κ π α))

/-- The classes and their properties. The class of a property is that of the objects it points to,
and its name the one of `ConvertFPropertyName` if there is one. `writesType` says whether the
objects of a class are serialized by `UODWriteTypeJsonSerializer`, the class being null where no
target class is set. `dateJson` is the text that a non-empty array of `FDateTime` is written as. -/
structure Schema (κ π α : Type*) where
  properties : κ → List π
  propertyName : κ → π → String
  propertyClass : π → κ
  isDateTime : π → Bool
  defaultValue : κ → π → PropertyValue α (ObjectTree κ π α)
  elementDefault : π → α
  className : κ → String
  findClass : String → Option κ
  writesType : Option κ → Bool
  toJson : π → α → FJsonValue
  ofJson : π → FJsonValue → Option α
  dateJson : List α → String

structure ObjectHeap (ι κ π α : Type*) where
  objectClass : ι → κ
  value : ι → π → PropertyValue α ι

/-- `SetField`, which replaces the value of a field that is there already. -/
def FJsonObject.setField (field : String) (v : FJsonValue) : FJsonObject → FJsonObject
  | [] => [(field, v)]
  | (name, j) :: o =>
    if equalsIgnoreCase name field then (name, v) :: o else (name, j) :: setField field v o

variable {ι κ π α : Type*} (S : Schema κ π α)

section Export

variable (H : ObjectHeap ι κ π α)

abbrev Exporter (ι κ : Type*) := κ → List ι → ι → Option (FJsonValue × List ι)

/-- The branch of `ObjectJsonCallback` on arrays of objects. -/
def exportObjects (exporter : Exporter ι κ) (c : κ) :
    List ι → List (Option ι) → Option (List FJsonValue × List ι)
  | visited, [] => some ([], visited)
  | visited, none :: os =>
    (exportObjects exporter c visited os).map fun r => (.null :: r.1, r.2)
  | visited, some o :: os =>
    (exporter c visited o).bind fun r =>
      (exportObjects exporter c r.2 os).map fun t => (r.1 :: t.1, t.2)

/-- The branches of `ObjectJsonCallback` on other arrays. At the first `FDateTime` it returns a
string for the whole array. -/
def exportScalars (p : π) (as : List α) : FJsonValue :=
  if S.isDateTime p && !as.isEmpty then .string (S.dateJson as) else .array (as.map (S.toJson p))

def objectJsonCallback (exporter : Exporter ι κ) (p : π) (visited : List ι) :
    PropertyValue α ι → Option (FJsonValue × List ι)
  | .plain a => some (S.toJson p a, visited)
  | .scalars as => some (exportScalars S p as, visited)
  | .object none => some (.null, visited)
  | .object (some o) => exporter (S.propertyClass p) visited o
  | .objects os =>
    (exportObjects exporter (S.propertyClass p) visited os).map fun r => (.array r.1, r.2)

def addJsonValue (exporter : Exporter ι κ) (o : ι) :
    List π → FJsonObject → List ι → Option (FJsonObject × List ι)
  | [], fields, visited => some (fields, visited)
  | p :: ps, fields, visited =>
    (objectJsonCallback S exporter p visited (H.value o p)).bind fun r =>
      addJsonValue exporter o ps
        (FJsonObject.setField (S.propertyName (H.objectClass o) p) r.1 fields) r.2

def writeType (c : κ) (o : ι) (fields : FJsonObject) : FJsonObject :=
  if S.writesType (some c) then
    FJsonObject.setField "Body" (.object fields)
      (FJsonObject.setField "Type" (.string (S.className (H.objectClass o))) [])
  else fields

/-- `UObjectToJsonObject`, in calls nested at most so deep. -/
def uObjectToJsonObject [DecidableEq ι] : ℕ → Exporter ι κ
  | 0, _, _, _ => none
  | n + 1, c, visited, o =>
    if o ∈ visited then some (.object [], visited)
    else
      (addJsonValue S H (uObjectToJsonObject n) o (S.properties (H.objectClass o)) []
        (visited ++ [o])).map fun r =>
          (.object (writeType S H c o r.1), r.2.filter fun v => v ≠ o)

def createJsonObject [DecidableEq ι] (n : ℕ) (o : ι) : Option (FJsonValue × List ι) :=
  uObjectToJsonObject S H n (H.objectClass o) [] o

end Export

section Import

/-- A value is left as it was where the field is null or the conversion fails. -/
def importPlain (p : π) (j : FJsonValue) (a : α) : α :=
  match j with
  | .null => a
  | j => (S.ofJson p j).getD a

/-- `JsonValueToFArrayProperty`, which keeps the elements that are there already below nulls. -/
def importScalars (p : π) : List FJsonValue → List α → List α
  | [], _ => []
  | j :: js, as =>
    importPlain S p j (as.headD (S.elementDefault p)) :: importScalars p js as.tail

def jsonValueToScalars (p : π) (j : FJsonValue) (as : List α) : List α :=
  match j with
  | .array js => importScalars S p js as
  | _ => as

mutual

/-- `JsonObjectToUObject`, with the serializer of the target class. -/
def jsonObjectToUObject (target : Option κ) : FJsonValue → Option (ObjectTree κ π α)
  | .object fields =>
    if S.writesType target then
      match (FJsonObject.tryGetString fields "Type").bind S.findClass with
      | some c => bodyToUObject c fields
      | none => none
    else target.map fun c => .mk c fun p => jsonPropertyToFProperty c p fields
  | _ => none

def bodyToUObject (c : κ) : List (String × FJsonValue) → Option (ObjectTree κ π α)
  | [] => none
  | (name, j) :: fields =>
    if equalsIgnoreCase name "Body" then fieldsToUObject c j else bodyToUObject c fields

def fieldsToUObject (c : κ) : FJsonValue → Option (ObjectTree κ π α)
  | .object fields => some (.mk c fun p => jsonPropertyToFProperty c p fields)
  | _ => none

def jsonPropertyToFProperty (c : κ) (p : π) :
    List (String × FJsonValue) → PropertyValue α (ObjectTree κ π α)
  | [] => S.defaultValue c p
  | (name, j) :: fields =>
    if equalsIgnoreCase name (S.propertyName c p) then
      match S.defaultValue c p with
      | .plain a => .plain (importPlain S p j a)
      | .scalars as => .scalars (jsonValueToScalars S p j as)
      | .object o => .object ((jsonObjectToUObject (some (S.propertyClass p)) j).or o)
      | .objects os => .objects (jsonValueToFArrayProperty (S.propertyClass p) j os)
    else jsonPropertyToFProperty c p fields

def jsonValueToFArrayProperty (c : κ) (j : FJsonValue)
    (os : List (Option (ObjectTree κ π α))) : List (Option (ObjectTree κ π α)) :=
  match j with
  | .array js => importObjects c js os
  | _ => os

def importObjects (c : κ) (js : List FJsonValue) (os : List (Option (ObjectTree κ π α))) :
    List (Option (ObjectTree κ π α)) :=
  match js with
  | [] => []
  | j :: js => (jsonObjectToUObject (some c) j).or (os.headD none) :: importObjects c js os.tail

end

end Import

end DtProject
