import Mathlib.Data.Fintype.EquivFin
import DtProject.Descent.Acyclic
import DtProject.Json.Export

/-! # Objects that arrive as they were sent

An object arrives as it was sent if the new object represents it: it is of the same
class and holds the same values, and its pointers lead to new objects that
represent those that the object points to. No new object represents one on a
cycle. The deserializer leaves a property at its default where it finds null, and
takes the class of an object from its own target class or by name.
-/

namespace DtProject

open Relation

universe u

variable {ι α : Type u} {κ π : Type*} (S : Schema κ π α) (H : ObjectHeap ι κ π α)

def PointsTo (o o' : ι) : Prop :=
  ∃ p ∈ S.properties (H.objectClass o), o' ∈ (H.value o p).pointers

section Represents

mutual

/-- An object is as the created one, up to sharing: what is pointed to twice is created twice. -/
def Represents : ι → ObjectTree κ π α → Prop
  | o, .mk c value =>
    c = H.objectClass o ∧ ∀ p ∈ S.properties c, RepresentsValue (H.value o p) (value p)

def RepresentsValue : PropertyValue α ι → PropertyValue α (ObjectTree κ π α) → Prop
  | .plain a, .plain b => a = b
  | .scalars as, .scalars bs => as = bs
  | .object o, .object t => RepresentsPointer o t
  | .objects os, .objects ts => RepresentsPointers os ts
  | _, _ => False

def RepresentsPointer : Option ι → Option (ObjectTree κ π α) → Prop
  | none, none => True
  | some o, some t => Represents o t
  | _, _ => False

def RepresentsPointers : List (Option ι) → List (Option (ObjectTree κ π α)) → Prop
  | [], [] => True
  | o :: os, t :: ts => RepresentsPointer o t ∧ RepresentsPointers os ts
  | _, _ => False

end

variable {S H}

mutual

theorem acc_of_represents : ∀ {o : ι} {t : ObjectTree κ π α}, Represents S H o t →
    Acc (fun b a => PointsTo S H a b) o
  | o, .mk c value, h => by
    rw [Represents] at h
    obtain ⟨rfl, h⟩ := h
    refine .intro o ?_
    rintro o' ⟨p, hp, ho'⟩
    exact acc_of_representsValue (h p hp) ho'

theorem acc_of_representsValue : ∀ {v : PropertyValue α ι}
    {w : PropertyValue α (ObjectTree κ π α)}, RepresentsValue S H v w →
    ∀ {o}, o ∈ v.pointers → Acc (fun b a => PointsTo S H a b) o
  | .object o, .object t, h, o', ho' => by
    rw [RepresentsValue] at h
    exact acc_of_representsPointer h (Option.mem_toList.mp ho')
  | .objects os, .objects ts, h, o', ho' => by
    rw [RepresentsValue] at h
    exact acc_of_representsPointers h (List.reduceOption_mem_iff.mp ho')

theorem acc_of_representsPointer : ∀ {o : Option ι} {t : Option (ObjectTree κ π α)},
    RepresentsPointer S H o t → ∀ {o'}, o' ∈ o → Acc (fun b a => PointsTo S H a b) o'
  | some o, some t, h, o', ho' => by
    obtain rfl := Option.some.inj ho'
    rw [RepresentsPointer] at h
    exact acc_of_represents h

theorem acc_of_representsPointers : ∀ {os : List (Option ι)}
    {ts : List (Option (ObjectTree κ π α))}, RepresentsPointers S H os ts →
    ∀ {o'}, some o' ∈ os → Acc (fun b a => PointsTo S H a b) o'
  | o :: os, t :: ts, h, o', ho' => by
    rw [RepresentsPointers] at h
    rcases List.mem_cons.mp ho' with rfl | ho'
    · exact acc_of_representsPointer h.1 rfl
    · exact acc_of_representsPointers h.2 ho'

end

end Represents

section Kept

def createdClass (target : Option κ) (o : ι) : Option κ :=
  if S.writesType target then S.findClass (S.className (H.objectClass o)) else target

/-- The nulls of an array meet nulls in the array that is there already. -/
def NullsKept : List (Option ι) → List (Option (ObjectTree κ π α)) → Prop
  | none :: os, ts => ts.headD none = none ∧ NullsKept os ts.tail
  | some _ :: os, ts => NullsKept os ts.tail
  | [], _ => True

/-- The value of a property, but for the objects that it points to, is the same after it has been
written and read over another value. -/
def ValueKept (p : π) : PropertyValue α ι → PropertyValue α (ObjectTree κ π α) → Prop
  | .plain a, .plain b => importPlain S p (S.toJson p a) b = a
  | .scalars as, .scalars bs => jsonValueToScalars S p (exportScalars S p as) bs = as
  | .object none, .object t => t = none
  | .object (some _), .object _ => True
  | .objects os, .objects ts => NullsKept os ts
  | _, _ => False

/-- The values of an object are kept over the defaults of its class, and so are the classes of the
objects that it points to. -/
structure ObjectKept (o : ι) : Prop where
  values : ∀ p ∈ S.properties (H.objectClass o),
    ValueKept S p (H.value o p) (S.defaultValue (H.objectClass o) p)
  classes : ∀ p ∈ S.properties (H.objectClass o), ∀ o' ∈ (H.value o p).pointers,
    createdClass S H (some (S.propertyClass p)) o' = some (H.objectClass o')

/-- What an object that is exported after the visited ones needs to arrive as it is. -/
def Kept (visited : List ι) (target : Option κ) (o : ι) : Prop :=
  createdClass S H target o = some (H.objectClass o) ∧
    Descent.Clear (PointsTo S H) visited o ∧
      ∀ o', ReflTransGen (PointsTo S H) o o' → ObjectKept S H o'

variable {S H} {visited : List ι} {target : Option κ} {o : ι}

theorem kept_step : Kept S H visited target o ↔
    createdClass S H target o = some (H.objectClass o) ∧ o ∉ visited ∧
      ∀ p ∈ S.properties (H.objectClass o),
        ValueKept S p (H.value o p) (S.defaultValue (H.objectClass o) p) ∧
          ∀ o' ∈ (H.value o p).pointers,
            Kept S H (visited ++ [o]) (some (S.propertyClass p)) o' := by
  rw [Kept, Descent.clear_step, Descent.forall_reach_iff]
  constructor
  · rintro ⟨hc, ⟨ho, hclear⟩, hkept, hbelow⟩
    refine ⟨hc, ho, fun p hp => ⟨hkept.values p hp, fun o' ho' => ?_⟩⟩
    exact ⟨hkept.classes p hp o' ho', hclear o' ⟨p, hp, ho'⟩, hbelow o' ⟨p, hp, ho'⟩⟩
  · rintro ⟨hc, ho, h⟩
    refine ⟨hc, ⟨ho, ?_⟩, ⟨fun p hp => (h p hp).1, fun p hp o' ho' => ((h p hp).2 o' ho').1⟩, ?_⟩
    · rintro o' ⟨p, hp, ho'⟩
      exact ((h p hp).2 o' ho').2.1
    · rintro o' ⟨p, hp, ho'⟩
      exact ((h p hp).2 o' ho').2.2

end Kept

section Import

variable {S H} {visited : List ι} {c : κ} {p : π} {j : FJsonValue} {fields : FJsonObject}
  {target : Option κ} {o : ι} {Q : κ → ι → FJsonValue → Prop}

theorem jsonPropertyToFProperty_some
    (h : FJsonObject.find fields (S.propertyName c p) = some j) :
    jsonPropertyToFProperty S c p fields =
      match S.defaultValue c p with
      | .plain a => .plain (importPlain S p j a)
      | .scalars as => .scalars (jsonValueToScalars S p j as)
      | .object t => .object ((jsonObjectToUObject S (some (S.propertyClass p)) j).or t)
      | .objects ts => .objects (jsonValueToFArrayProperty S (S.propertyClass p) j ts) := by
  induction fields with
  | nil => cases h
  | cons entry fields ih =>
    obtain ⟨name, j'⟩ := entry
    rw [find_cons] at h
    rw [jsonPropertyToFProperty]
    split_ifs at h ⊢ with hname
    · cases h
      cases S.defaultValue c p <;> rfl
    · exact ih h

theorem jsonObjectToUObject_writeType (h : S.writesType target = S.writesType (some c)) :
    jsonObjectToUObject S target (.object (writeType S H c o fields)) =
      (createdClass S H target o).map fun c' =>
        .mk c' fun p => jsonPropertyToFProperty S c' p fields := by
  rw [jsonObjectToUObject, createdClass, writeType, ← h]
  cases S.writesType target with
  | false => rfl
  | true =>
    have htype : FJsonObject.tryGetString
        (FJsonObject.setField "Body" (.object fields) (FJsonObject.setField "Type"
          (.string (S.className (H.objectClass o))) [])) "Type" =
        some (S.className (H.objectClass o)) := by
      have hbody : equalsIgnoreCase "Body" "Type" = false := by decide
      have htype : equalsIgnoreCase "Type" "Type" = true := by decide
      simp [FJsonObject.tryGetString, find_setField, hbody, htype]
    rw [if_pos rfl, if_pos rfl, if_pos rfl, htype, Option.bind_some]
    cases S.findClass (S.className (H.objectClass o)) with
    | none => rfl
    | some c' => rfl

/-- An exported object is created, or lost, as its type and the way to it let it. -/
structure Arrives (S : Schema κ π α) (H : ObjectHeap ι κ π α) (visited : List ι)
    (target : Option κ) (o : ι) (j : FJsonValue) : Prop where
  created : ∀ t, jsonObjectToUObject S target j = some t →
    (Represents S H o t ↔ Kept S H visited target o)
  lost : jsonObjectToUObject S target j = none → ¬ Kept S H visited target o ∧
    (target = none ∨ ∀ t, ¬ Represents S H o t)

theorem Arrives.pointer (h : Arrives S H visited (some c) o j) (t : Option (ObjectTree κ π α)) :
    RepresentsPointer S H (some o) ((jsonObjectToUObject S (some c) j).or t) ↔
      Kept S H visited (some c) o := by
  cases hj : jsonObjectToUObject S (some c) j with
  | some t' => exact h.created t' hj
  | none =>
    obtain ⟨hkept, hlost⟩ := h.lost hj
    refine iff_of_false ?_ hkept
    cases t with
    | none => exact id
    | some t => exact hlost.resolve_left (Option.some_ne_none c) t

theorem importObjects_iff {os : List (Option ι)} {js : List FJsonValue}
    (hjs : ObjectsJson (Q c) os js)
    (hQ : ∀ o, some o ∈ os → ∀ j, Q c o j → Arrives S H visited (some c) o j)
    (ts : List (Option (ObjectTree κ π α))) :
    RepresentsPointers S H os (importObjects S c js ts) ↔
      NullsKept os ts ∧ ∀ o, some o ∈ os → Kept S H visited (some c) o := by
  induction os generalizing js ts with
  | nil =>
    cases js with
    | nil => simp [importObjects, RepresentsPointers, NullsKept]
    | cons j js => exact hjs.elim
  | cons o os ih =>
    cases js with
    | nil => cases o <;> exact hjs.elim
    | cons j js =>
      cases o with
      | none =>
        obtain ⟨rfl, hjs⟩ := hjs
        have hrest := ih hjs (fun o ho => hQ o (List.mem_cons_of_mem _ ho)) ts.tail
        have hnull : RepresentsPointer S H none
            ((jsonObjectToUObject S (some c) .null).or (ts.headD none)) ↔ ts.headD none = none := by
          cases ts.headD none <;> simp [jsonObjectToUObject, RepresentsPointer]
        rw [importObjects, RepresentsPointers, NullsKept, hrest, hnull]
        simp [and_assoc]
      | some o =>
        obtain ⟨hj, hjs⟩ := hjs
        have hrest := ih hjs (fun o ho => hQ o (List.mem_cons_of_mem _ ho)) ts.tail
        have hsome := (hQ o List.mem_cons_self j hj).pointer (ts.headD none)
        rw [importObjects, RepresentsPointers, NullsKept, hrest, hsome]
        simp only [List.mem_cons, Option.some.injEq, forall_eq_or_imp]
        tauto

/-- A property arrives as it is if its own value is kept and every object that it points to is. -/
theorem property_iff (hj : FJsonObject.find fields (S.propertyName c p) = some j)
    {v : PropertyValue α ι} (hv : ValueJson S Q p v j)
    (hQ : ∀ o ∈ v.pointers, ∀ j, Q (S.propertyClass p) o j →
      Arrives S H visited (some (S.propertyClass p)) o j) :
    RepresentsValue S H v (jsonPropertyToFProperty S c p fields) ↔
      ValueKept S p v (S.defaultValue c p) ∧
        ∀ o ∈ v.pointers, Kept S H visited (some (S.propertyClass p)) o := by
  rw [jsonPropertyToFProperty_some hj]
  cases hd : S.defaultValue c p <;> cases v
  case plain.plain a b =>
    obtain rfl := hv
    simp [RepresentsValue, ValueKept, PropertyValue.pointers, eq_comm]
  case scalars.scalars as bs =>
    obtain rfl := hv
    simp [RepresentsValue, ValueKept, PropertyValue.pointers, eq_comm]
  case object.object t o =>
    cases o with
    | none =>
      obtain rfl := hv
      cases t <;> simp [RepresentsValue, RepresentsPointer, ValueKept, PropertyValue.pointers,
        jsonObjectToUObject]
    | some o =>
      have hpointer := (hQ o (by simp [PropertyValue.pointers]) j hv).pointer t
      simp [RepresentsValue, ValueKept, PropertyValue.pointers, hpointer]
  case objects.objects ts os =>
    obtain ⟨js, rfl, hjs⟩ := hv
    have hobjects := importObjects_iff hjs
      (fun o ho => hQ o (List.reduceOption_mem_iff.mpr ho)) ts
    simp only [RepresentsValue, jsonValueToFArrayProperty, ValueKept, PropertyValue.pointers,
      List.reduceOption_mem_iff, hobjects]
  all_goals simp [RepresentsValue, ValueKept]

end Import

section Delivery

def Schema.NamesDistinct : Prop :=
  ∀ c, (S.properties c).Pairwise fun p q =>
    equalsIgnoreCase (S.propertyName c p) (S.propertyName c q) = false

def ClassesFound : Prop := ∀ o, S.findClass (S.className (H.objectClass o)) ≠ none

def deliverObject [DecidableEq ι] [Fintype ι] (target : Option κ) (o : ι) :
    Option (ObjectTree κ π α) :=
  (createJsonObject S H (Fintype.card ι + 1) o).bind fun r => jsonObjectToUObject S target r.1

variable {S H} {visited : List ι} {c : κ} {o : ι} {fields : FJsonObject} {target : Option κ}

theorem not_represents_of_cycle (h : TransGen (PointsTo S H) o o) (t : ObjectTree κ π α) :
    ¬ Represents S H o t :=
  fun ht => Descent.acc_irrefl (acc_of_represents ht) h

/-- A back reference never arrives as it was. -/
theorem arrives_back (ho : o ∈ visited) (h : TransGen (PointsTo S H) o o) :
    Arrives S H visited target o (.object []) where
  created t _ := iff_of_false (not_represents_of_cycle h t) fun hk => (hk.2.1.not_mem .refl) ho
  lost _ := ⟨fun hk => (hk.2.1.not_mem .refl) ho, .inr (not_represents_of_cycle h)⟩

theorem arrives_object (hfound : ClassesFound S H)
    (hsame : S.writesType target = S.writesType (some c)) (ho : o ∉ visited)
    (hfields : ∀ p ∈ S.properties (H.objectClass o),
      RepresentsValue S H (H.value o p) (jsonPropertyToFProperty S (H.objectClass o) p fields) ↔
        ValueKept S p (H.value o p) (S.defaultValue (H.objectClass o) p) ∧
          ∀ o' ∈ (H.value o p).pointers,
            Kept S H (visited ++ [o]) (some (S.propertyClass p)) o') :
    Arrives S H visited target o (.object (writeType S H c o fields)) := by
  constructor
  · intro t ht
    rw [jsonObjectToUObject_writeType hsame] at ht
    obtain ⟨c', hc', rfl⟩ := Option.map_eq_some_iff.mp ht
    rw [Represents, kept_step, hc', Option.some.injEq]
    refine and_congr_right fun hclass => ?_
    subst hclass
    rw [and_iff_right ho]
    exact forall₂_congr hfields
  · intro hnone
    rw [jsonObjectToUObject_writeType hsame, Option.map_eq_none_iff] at hnone
    refine ⟨fun hk => ?_, .inl ?_⟩
    · have := hnone.symm.trans hk.1
      cases this
    · rw [createdClass] at hnone
      split_ifs at hnone
      · exact absurd hnone (hfound o)
      · exact hnone

/-- An export comes to an end, and what it has written arrives as it is if it can. -/
theorem export_arrives [DecidableEq ι] [Fintype ι] {n : ℕ} (hnames : S.NamesDistinct)
    (hfound : ClassesFound S H) (hn : Fintype.card ι < n)
    (hsame : S.writesType target = S.writesType (some c)) :
    ∃ j, uObjectToJsonObject S H n c [] o = some (j, []) ∧ Arrives S H [] target o j := by
  suffices h : ∃ j, uObjectToJsonObject S H n c [] o = some (j, []) ∧
      ∀ target, S.writesType target = S.writesType (some c) →
        (∀ v ∈ [], TransGen (PointsTo S H) v o) → Arrives S H [] target o j by
    obtain ⟨j, hj, harrives⟩ := h
    exact ⟨j, hj, harrives target hsame (by simp)⟩
  refine export_induction (Q := fun visited c o j => ∀ target,
    S.writesType target = S.writesType (some c) → (∀ v ∈ visited, TransGen (PointsTo S H) v o) →
      Arrives S H visited target o j) ?_ ?_ List.nodup_nil (by simpa using hn) c o
  · intro visited c o ho target _ hpath
    exact arrives_back ho (hpath o ho)
  · intro visited c o fields ho hfields target hsame hpath
    refine arrives_object hfound hsame ho fun p hp => ?_
    obtain ⟨j, hj, hvalue⟩ := hfields (hnames _) p hp
    refine property_iff hj hvalue fun o' ho' j hQ => hQ _ rfl fun v hv => ?_
    have hstep : PointsTo S H o o' := ⟨p, hp, ho'⟩
    rcases List.mem_append.mp hv with hv | hv
    · exact (hpath v hv).tail hstep
    · obtain rfl := List.mem_singleton.mp hv
      exact .single hstep

/-- An object arrives as it was sent precisely if it is created of its own class, and no object
that it leads to lies on a cycle, loses a value, or is pointed to as one of another class. -/
theorem object_delivered_iff [DecidableEq ι] [Fintype ι] {root : ι} (hnames : S.NamesDistinct)
    (hfound : ClassesFound S H)
    (hsame : S.writesType target = S.writesType (some (H.objectClass root))) :
    (∃ t, deliverObject S H target root = some t ∧ Represents S H root t) ↔
      createdClass S H target root = some (H.objectClass root) ∧
        ∀ o, ReflTransGen (PointsTo S H) root o →
          ¬ TransGen (PointsTo S H) o o ∧ ObjectKept S H o := by
  obtain ⟨j, hj, harrives⟩ := export_arrives (o := root) hnames hfound
    (Nat.lt_succ_self (Fintype.card ι)) hsame
  have hkept : Kept S H [] target root ↔
      createdClass S H target root = some (H.objectClass root) ∧
        ∀ o, ReflTransGen (PointsTo S H) root o →
          ¬ TransGen (PointsTo S H) o o ∧ ObjectKept S H o := by
    rw [Kept, Descent.clear_nil_iff]
    simp only [imp_and, forall_and]
  rw [deliverObject, createJsonObject, hj, Option.bind_some, ← hkept]
  cases ht : jsonObjectToUObject S target j with
  | none => simp [(harrives.lost ht).1]
  | some t => simp [harrives.created t ht]

section Witness

def linkSchema : Schema Unit Unit Unit where
  properties _ := [()]
  propertyName _ _ := "Next"
  propertyClass _ := ()
  isDateTime _ := false
  defaultValue _ _ := .object none
  elementDefault _ := ()
  className _ := "Link"
  findClass name := if name = "Link" then some () else none
  writesType _ := false
  toJson _ _ := .null
  ofJson _ _ := none
  dateJson _ := ""

def twoLinks : ObjectHeap Bool Unit Unit Unit where
  objectClass _ := ()
  value o _ := .object (if o then some false else none)

theorem pointsTo_twoLinks {o o' : Bool} (h : PointsTo linkSchema twoLinks o o') :
    o = true ∧ o' = false := by
  obtain ⟨p, -, ho'⟩ := h
  cases o with
  | true => exact ⟨rfl, List.mem_singleton.mp ho'⟩
  | false => cases ho'

theorem object_delivered_iff_twoLinks :
    ∃ t, deliverObject linkSchema twoLinks (some ()) true = some t ∧
      Represents linkSchema twoLinks true t := by
  have hnames : linkSchema.NamesDistinct := fun _ => List.pairwise_singleton _ _
  have hfound : ClassesFound linkSchema twoLinks := fun _ h => by cases h
  refine (object_delivered_iff hnames hfound rfl).mpr ⟨rfl, fun o _ => ⟨fun hcycle => ?_, ?_⟩⟩
  · obtain ⟨o', hfirst, -⟩ := TransGen.head'_iff.mp hcycle
    obtain ⟨o'', -, hlast⟩ := TransGen.tail'_iff.mp hcycle
    have := (pointsTo_twoLinks hfirst).1.symm.trans (pointsTo_twoLinks hlast).2
    cases this
  · exact ⟨fun _ _ => by cases o <;> trivial, fun _ _ _ _ => rfl⟩

end Witness

end Delivery

end DtProject
