import Mathlib.Data.Fintype.Card
import Mathlib.Data.List.ReduceOption
import DtProject.Json.Serializer

/-! # The export of an object comes to an end

Every call that is nested in the export of an object has one more object in
`VisitedObjects`, so no export nests deeper than there are objects, whatever
cycles they form. Each call leaves the list as it found it.
-/

namespace DtProject

section Fields

variable {field name : String} {j v : FJsonValue} {fields : FJsonObject}

theorem equalsIgnoreCase_iff {a b : String} : equalsIgnoreCase a b = true ↔
    a.toList.map Char.toLower = b.toList.map Char.toLower := by
  simp [equalsIgnoreCase]

theorem equalsIgnoreCase_congr {a b c : String} (h : equalsIgnoreCase a b = true) :
    equalsIgnoreCase a c = equalsIgnoreCase b c := by
  simp only [equalsIgnoreCase, equalsIgnoreCase_iff.mp h]

theorem equalsIgnoreCase_comm (a b : String) :
    equalsIgnoreCase a b = equalsIgnoreCase b a := by
  rw [Bool.eq_iff_iff, equalsIgnoreCase_iff, equalsIgnoreCase_iff, eq_comm]

@[simp] theorem find_nil : FJsonObject.find [] field = none := rfl

theorem find_cons : FJsonObject.find ((name, j) :: fields) field =
    if equalsIgnoreCase name field then some j else FJsonObject.find fields field := by
  simp only [FJsonObject.find, List.find?_cons]
  cases equalsIgnoreCase name field <;> rfl

theorem find_setField : FJsonObject.find (FJsonObject.setField name v fields) field =
    if equalsIgnoreCase name field then some v else FJsonObject.find fields field := by
  induction fields with
  | nil => simp [FJsonObject.setField, find_cons]
  | cons entry fields ih =>
    obtain ⟨n, j⟩ := entry
    rw [FJsonObject.setField]
    by_cases hn : equalsIgnoreCase n name = true
    · rw [if_pos hn, find_cons, find_cons, equalsIgnoreCase_congr hn]
      split_ifs <;> rfl
    · rw [if_neg hn, find_cons, find_cons, ih]
      by_cases hf : equalsIgnoreCase n field = true
      · have hname : ¬ equalsIgnoreCase name field = true := by
          rw [equalsIgnoreCase_comm name field, ← equalsIgnoreCase_congr hf]
          exact hn
        simp [hf, hname]
      · simp [hf]

end Fields

variable {ι κ π α : Type*} {S : Schema κ π α} {H : ObjectHeap ι κ π α}
  {exporter exporter' : Exporter ι κ} {Q : κ → ι → FJsonValue → Prop} {visited : List ι}

def ObjectsJson (Q : ι → FJsonValue → Prop) : List (Option ι) → List FJsonValue → Prop
  | [], [] => True
  | none :: os, j :: js => j = .null ∧ ObjectsJson Q os js
  | some o :: os, j :: js => Q o j ∧ ObjectsJson Q os js
  | _, _ => False

/-- What a property is written as, where objects are written as `Q` says. -/
def ValueJson (S : Schema κ π α) (Q : κ → ι → FJsonValue → Prop) (p : π) :
    PropertyValue α ι → FJsonValue → Prop
  | .plain a, j => j = S.toJson p a
  | .scalars as, j => j = exportScalars S p as
  | .object none, j => j = .null
  | .object (some o), j => Q (S.propertyClass p) o j
  | .objects os, j => ∃ js, j = .array js ∧ ObjectsJson (Q (S.propertyClass p)) os js

def FieldsJson (S : Schema κ π α) (H : ObjectHeap ι κ π α) (Q : κ → ι → FJsonValue → Prop) (o : ι)
    (ps : List π) (fields : FJsonObject) : Prop :=
  ∀ p ∈ ps, ∃ j, FJsonObject.find fields (S.propertyName (H.objectClass o) p) = some j ∧
    ValueJson S Q p (H.value o p) j

section Loops

theorem exportObjects_spec (exporter : Exporter ι κ) {c : κ} (os : List (Option ι))
    (h : ∀ o, some o ∈ os → ∃ j, exporter c visited o = some (j, visited) ∧ Q c o j) :
    ∃ js, exportObjects exporter c visited os = some (js, visited) ∧ ObjectsJson (Q c) os js := by
  induction os with
  | nil => exact ⟨[], rfl, trivial⟩
  | cons o os ih =>
    obtain ⟨js, hjs, hQs⟩ := ih fun o ho => h o (List.mem_cons_of_mem _ ho)
    cases o with
    | none => exact ⟨.null :: js, by rw [exportObjects, hjs]; rfl, rfl, hQs⟩
    | some o =>
      obtain ⟨j, hj, hQ⟩ := h o List.mem_cons_self
      exact ⟨j :: js, by rw [exportObjects, hj, Option.bind_some, hjs]; rfl, hQ, hQs⟩

theorem objectJsonCallback_spec {p : π} {v : PropertyValue α ι}
    (h : ∀ o ∈ v.pointers, ∃ j, exporter (S.propertyClass p) visited o = some (j, visited) ∧
      Q (S.propertyClass p) o j) :
    ∃ j, objectJsonCallback S exporter p visited v = some (j, visited) ∧ ValueJson S Q p v j := by
  cases v with
  | plain a => exact ⟨_, rfl, rfl⟩
  | scalars as => exact ⟨_, rfl, rfl⟩
  | object o =>
    cases o with
    | none => exact ⟨_, rfl, rfl⟩
    | some o => exact h o (Option.mem_toList.mpr rfl)
  | objects os =>
    obtain ⟨js, hjs, hQ⟩ := exportObjects_spec exporter os fun o ho =>
      h o (List.reduceOption_mem_iff.mpr ho)
    exact ⟨.array js, by rw [objectJsonCallback, hjs]; rfl, js, rfl, hQ⟩

/-- The loop over the properties sets their fields, and keeps those of other names. -/
theorem addJsonValue_spec (exporter : Exporter ι κ) (o : ι) (ps : List π) (fields : FJsonObject)
    (h : ∀ p ∈ ps, ∀ o' ∈ (H.value o p).pointers,
      ∃ j, exporter (S.propertyClass p) visited o' = some (j, visited) ∧
        Q (S.propertyClass p) o' j) :
    ∃ fields', addJsonValue S H exporter o ps fields visited = some (fields', visited) ∧
      (∀ name, (∀ p ∈ ps, equalsIgnoreCase (S.propertyName (H.objectClass o) p) name = false) →
        FJsonObject.find fields' name = FJsonObject.find fields name) ∧
      ((ps.Pairwise fun p q => equalsIgnoreCase (S.propertyName (H.objectClass o) p)
        (S.propertyName (H.objectClass o) q) = false) → FieldsJson S H Q o ps fields') := by
  induction ps generalizing fields with
  | nil => exact ⟨fields, rfl, fun _ _ => rfl, fun _ => by simp [FieldsJson]⟩
  | cons p ps ih =>
    obtain ⟨j, hj, hQ⟩ := objectJsonCallback_spec (h p List.mem_cons_self)
    obtain ⟨fields', hfields, hkept, hfound⟩ := ih
      (FJsonObject.setField (S.propertyName (H.objectClass o) p) j fields)
      fun q hq => h q (List.mem_cons_of_mem _ hq)
    refine ⟨fields', by rw [addJsonValue, hj, Option.bind_some, hfields], ?_, ?_⟩
    · intro name hname
      rw [hkept name fun q hq => hname q (List.mem_cons_of_mem _ hq), find_setField,
        if_neg (by rw [hname p List.mem_cons_self]; exact Bool.false_ne_true)]
    · intro hnames q hq
      obtain ⟨hp, hps⟩ := List.pairwise_cons.mp hnames
      rcases List.mem_cons.mp hq with rfl | hq
      · refine ⟨j, ?_, hQ⟩
        rw [hkept _ fun q hq => by rw [equalsIgnoreCase_comm]; exact hp q hq, find_setField,
          if_pos (equalsIgnoreCase_iff.mpr rfl)]
      · exact hfound hps q hq

end Loops

section Nesting

variable [DecidableEq ι] {c : κ} {o : ι} {n m : ℕ}

theorem filter_visited (ho : o ∉ visited) :
    (visited ++ [o]).filter (fun v => v ≠ o) = visited := by
  have hvisited : ∀ v ∈ visited, v ≠ o := fun v hv hvo => ho (hvo ▸ hv)
  simpa [List.filter_append] using hvisited

/-- What holds of a back reference, and of an object if it holds of those that it points to, holds
of every export that may nest deeper than there are objects outside `VisitedObjects`. -/
theorem export_induction [Fintype ι] {Q : List ι → κ → ι → FJsonValue → Prop}
    (hback : ∀ visited c o, o ∈ visited → Q visited c o (.object []))
    (hobject : ∀ visited c o fields, o ∉ visited →
      ((S.properties (H.objectClass o)).Pairwise (fun p q =>
        equalsIgnoreCase (S.propertyName (H.objectClass o) p)
          (S.propertyName (H.objectClass o) q) = false) →
        FieldsJson S H (Q (visited ++ [o])) o (S.properties (H.objectClass o)) fields) →
      Q visited c o (.object (writeType S H c o fields)))
    (hnodup : visited.Nodup) (hcard : Fintype.card ι < n + visited.length) (c : κ) (o : ι) :
    ∃ j, uObjectToJsonObject S H n c visited o = some (j, visited) ∧ Q visited c o j := by
  induction n generalizing visited c o with
  | zero =>
    have := hnodup.length_le_card
    omega
  | succ n ih =>
    rw [uObjectToJsonObject]
    by_cases ho : o ∈ visited
    · rw [if_pos ho]
      exact ⟨_, rfl, hback visited c o ho⟩
    · have hnodup' : (visited ++ [o]).Nodup := by
        rw [← List.concat_eq_append]
        exact hnodup.concat ho
      obtain ⟨fields, hfields, -, hfound⟩ := addJsonValue_spec (uObjectToJsonObject S H n) o
        (S.properties (H.objectClass o)) [] fun p _ o' _ =>
          ih hnodup' (by simp; omega) (S.propertyClass p) o'
      refine ⟨_, ?_, hobject visited c o fields ho hfound⟩
      rw [if_neg ho, hfields, Option.map_some, filter_visited ho]

end Nesting

section Depth

variable {n m : ℕ} {c : κ} {r : FJsonValue × List ι}

/-- An exporter that does what another does wherever that one comes to an end. -/
def Extends (exporter' exporter : Exporter ι κ) : Prop :=
  ∀ c visited o r, exporter c visited o = some r → exporter' c visited o = some r

theorem exportObjects_mono (h : Extends exporter' exporter) {os : List (Option ι)}
    {t : List FJsonValue × List ι} (ht : exportObjects exporter c visited os = some t) :
    exportObjects exporter' c visited os = some t := by
  induction os generalizing visited t with
  | nil => exact ht
  | cons o os ih =>
    cases o with
    | none =>
      obtain ⟨t', ht', rfl⟩ := Option.map_eq_some_iff.mp ht
      rw [exportObjects, ih ht']
      rfl
    | some o =>
      obtain ⟨r, hr, ht⟩ := Option.bind_eq_some_iff.mp ht
      obtain ⟨t', ht', rfl⟩ := Option.map_eq_some_iff.mp ht
      rw [exportObjects, h _ _ _ _ hr, Option.bind_some, ih ht']
      rfl

theorem objectJsonCallback_mono (h : Extends exporter' exporter) {p : π} {v : PropertyValue α ι}
    (hr : objectJsonCallback S exporter p visited v = some r) :
    objectJsonCallback S exporter' p visited v = some r := by
  cases v with
  | plain | scalars => exact hr
  | object o =>
    cases o with
    | none => exact hr
    | some o => exact h _ _ _ _ hr
  | objects os =>
    obtain ⟨t, ht, rfl⟩ := Option.map_eq_some_iff.mp hr
    rw [objectJsonCallback, exportObjects_mono h ht]
    rfl

theorem addJsonValue_mono (h : Extends exporter' exporter) {o : ι} {ps : List π}
    {fields : FJsonObject} {t : FJsonObject × List ι}
    (ht : addJsonValue S H exporter o ps fields visited = some t) :
    addJsonValue S H exporter' o ps fields visited = some t := by
  induction ps generalizing fields visited with
  | nil => exact ht
  | cons p ps ih =>
    obtain ⟨r, hr, ht⟩ := Option.bind_eq_some_iff.mp ht
    rw [addJsonValue, objectJsonCallback_mono h hr, Option.bind_some, ih ht]

theorem uObjectToJsonObject_mono [DecidableEq ι] (hnm : n ≤ m) :
    Extends (uObjectToJsonObject S H m) (uObjectToJsonObject S H n) := by
  induction n generalizing m with
  | zero =>
    intro c visited o r hr
    cases hr
  | succ n ih =>
    obtain ⟨m, rfl⟩ := Nat.exists_eq_succ_of_ne_zero (Nat.ne_zero_of_lt (Nat.lt_of_succ_le hnm))
    intro c visited o r hr
    rw [uObjectToJsonObject] at hr ⊢
    split_ifs with ho
    · simpa [ho] using hr
    · rw [if_neg ho] at hr
      obtain ⟨t, ht, rfl⟩ := Option.map_eq_some_iff.mp hr
      rw [addJsonValue_mono (ih (Nat.succ_le_succ_iff.mp hnm)) ht]
      rfl

theorem exists_createJsonObject [DecidableEq ι] [Fintype ι] (hn : Fintype.card ι < n) (o : ι) :
    ∃ fields : FJsonObject, createJsonObject S H n o = some (.object fields, []) := by
  obtain ⟨j, hj, fields, rfl⟩ := export_induction (S := S) (H := H)
    (Q := fun _ _ _ j => ∃ fields, j = .object fields) (fun _ _ _ _ => ⟨_, rfl⟩)
    (fun _ _ _ _ _ _ => ⟨_, rfl⟩) List.nodup_nil (by simpa using hn) (H.objectClass o) o
  exact ⟨fields, hj⟩

/-- Whatever cycles the objects form, the export of one of them comes to an end, in calls that nest
no deeper than one more than there are objects, and leaves `VisitedObjects` empty. -/
theorem createJsonObject_terminates [DecidableEq ι] [Fintype ι] (S : Schema κ π α)
    (H : ObjectHeap ι κ π α) (o : ι) : ∃ fields : FJsonObject, ∀ n, Fintype.card ι < n →
      createJsonObject S H n o = some (.object fields, []) := by
  obtain ⟨fields, hfields⟩ := exists_createJsonObject (S := S) (H := H)
    (Nat.lt_succ_self (Fintype.card ι)) o
  exact ⟨fields, fun n hn => uObjectToJsonObject_mono (Nat.succ_le_of_lt hn) _ _ _ _ hfields⟩

end Depth

end DtProject
